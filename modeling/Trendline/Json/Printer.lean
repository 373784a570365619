import Trendline.Decimal.Layout
import Trendline.Json.Basic

/-!
Documents from values, and their text: on one line, or with every item on a line of its own.
-/
namespace Trendline

open Decimal

namespace Piece

def hexDigit (n : Nat) : Char :=
  if n < 10 then Char.ofNat ('0'.toNat + n) else Char.ofNat ('a'.toNat + (n - 10))

/-- The letter or sign that stands for a character after a backslash. -/
def escapeLetter (c : Char) : Char :=
  match c with
  | '\x08' => 'b'
  | '\x0c' => 'f'
  | '\n' => 'n'
  | '\r' => 'r'
  | '\t' => 't'
  | c => c

/-- The written form. A malformed byte has none. -/
def chars : Piece → List Char
  | .char c => [c]
  | .malformed => []
  | .escape c => ['\\', escapeLetter c]
  | .unit n =>
      ['\\', 'u', hexDigit (n / 4096 % 16), hexDigit (n / 256 % 16), hexDigit (n / 16 % 16),
        hexDigit (n % 16)]

/-- The piece that writes a character: only quotes, backslashes and control characters are not
written as they are. -/
def ofChar (c : Char) : Piece :=
  match c with
  | '"' | '\\' | '\x08' | '\x0c' | '\n' | '\r' | '\t' => .escape c
  | c => if c.toNat < 0x20 then .unit c.toNat else .char c

end Piece

def Quoted.ofString (s : String) : Quoted :=
  s.toList.map Piece.ofChar

namespace Token

def chars : Token → List Char
  | .openList => ['[']
  | .closeList => [']']
  | .openObject => ['\x7b']
  | .closeObject => ['\x7d']
  | .comma => [',']
  | .colon => [':']
  | .null => ['n', 'u', 'l', 'l']
  | .bool true => ['t', 'r', 'u', 'e']
  | .bool false => ['f', 'a', 'l', 's', 'e']
  | .number n => n.chars
  | .text q => '"' :: q.flatMap Piece.chars ++ ['"']

/-- How deep the tokens after this one stand. -/
def depthAfter (depth : Nat) : Token → Nat
  | .openList | .openObject => depth + 1
  | .closeList | .closeObject => depth - 1
  | _ => depth

end Token

/-- The blanks between the tokens of a written document. -/
inductive Spacing where
  | compact
  | indented
  deriving Repr, DecidableEq

namespace Spacing

def newline (depth : Nat) : List Char :=
  '\n' :: List.replicate (2 * depth) ' '

/-- The blanks between two tokens; `depth` is that of what stands after the left one. -/
def gap : Spacing → Nat → Token → Token → List Char
  | .compact, _, _, _ => []
  | .indented, depth, left, right =>
      match left, right with
      | .openList, .closeList | .openObject, .closeObject => []
      | .openList, _ | .openObject, _ | .comma, _ => newline depth
      | _, .closeList | _, .closeObject => newline (depth - 1)
      | .colon, _ => [' ']
      | _, _ => []

/-- The text of some tokens: what was written, its last token and how deep the next one stands. -/
structure Written where
  text : String
  last : Option Token
  depth : Nat

def write (spacing : Spacing) (w : Written) (t : Token) : Written :=
  let blanks :=
    match w.last with
    | none => []
    | some last => spacing.gap w.depth last t
  ⟨(t.chars.foldl String.push (blanks.foldl String.push w.text)), some t, t.depthAfter w.depth⟩

end Spacing

namespace Json

mutual

/-- The tokens of a document in order. -/
def tokens : Json → List Token
  | .null => [.null]
  | .bool b => [.bool b]
  | .number n => [.number n]
  | .text q => [.text q]
  | .list [] => [.openList, .closeList]
  | .list (v :: rest) => .openList :: v.tokens ++ itemTokens rest ++ [.closeList]
  | .object [] => [.openObject, .closeObject]
  | .object ((q, v) :: rest) =>
      .openObject :: .text q :: .colon :: v.tokens ++ memberTokens rest ++ [.closeObject]

/-- The tokens of the items of a list after the first. -/
def itemTokens : List Json → List Token
  | [] => []
  | v :: rest => .comma :: v.tokens ++ itemTokens rest

/-- The tokens of the members of an object after the first. -/
def memberTokens : List (Quoted × Json) → List Token
  | [] => []
  | (q, v) :: rest => .comma :: .text q :: .colon :: v.tokens ++ memberTokens rest

end

/-- The text of a document. -/
def render (spacing : Spacing) (v : Json) : String :=
  (v.tokens.foldl spacing.write ⟨"", none, 0⟩).text

/-- Doubles in documents have their shortest digits, the even ones of two; those from a hundred
thousandth up to ten to the sixteenth have no exponent, and whole ones a zero as fraction. -/
def layout : Layout :=
  ⟨.even, some (-4, 16), [Digit.zero]⟩

/-- A double that is not finite has no numeral and is written as null. -/
def ofFloat (x : Float) : Json :=
  match layout.numeral? x with
  | some n => .number n
  | none => .null

def ofInt (i : Int) : Json :=
  .number (.ofInt i)

def ofNat (n : Nat) : Json :=
  .number (.ofNat n)

def ofString (s : String) : Json :=
  .text (.ofString s)

def ofOption {α : Type} (encode : α → Json) : Option α → Json
  | none => .null
  | some a => encode a

def ofList {α : Type} (encode : α → Json) (xs : List α) : Json :=
  .list (xs.map encode)

/-- An object with the given keys in order. -/
def ofMembers (members : List (String × Json)) : Json :=
  .object (members.map fun (key, v) => (.ofString key, v))

end Json

end Trendline
