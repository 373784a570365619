import Trendline.Text.Shown

/-!
Texts between double quotes, in which double quotes, backslashes and characters that would not show
are escaped.
-/
namespace Trendline.Text

/-- The escape of a character by its number, in hexadecimal digits between braces. -/
def numberEscape (c : Char) : String :=
  "\\u\x7b" ++ String.ofList (Nat.toDigits 16 c.toNat) ++ "\x7d"

/-- A character as it stands in a literal. -/
def literalChar (c : Char) : String :=
  match c with
  | '\x00' => "\\0"
  | '\t' => "\\t"
  | '\r' => "\\r"
  | '\n' => "\\n"
  | '"' => "\\\""
  | '\\' => "\\\\"
  | c => if isShown c then String.singleton c else numberEscape c

/-- A text as a literal. -/
def literal (s : String) : String :=
  "\"" ++ String.join (s.toList.map literalChar) ++ "\""

end Trendline.Text
