import Trendline.Json.Lexer
import Trendline.Json.Printer
import Trendline.Proofs.Decimal.Numerals

/-!
Tokens read back as they were written. A number ends where no digit, point or power follows it; a
text ends at its quote, since no quote inside it stands unescaped.
-/

namespace Trendline

open Decimal Text

namespace Decimal

@[simp]
theorem Digit.ofChar?_char (d : Digit) : Digit.ofChar? d.char = some d := by
  revert d
  decide

end Decimal

namespace Token

variable {rest : Source}

section Numbers

/-- What follows a number is none of it. -/
structure EndsNumber (rest : Source) : Prop where
  digits : takeDigits rest = ([], rest)
  fraction : takeFraction rest = some ([], rest)
  exponent : takeExponent rest = some (none, rest)

theorem endsNumber_nil : EndsNumber [] :=
  ⟨rfl, rfl, rfl⟩

/-- The characters that can follow a number in a document. -/
theorem endsNumber_cons {c : Char} (delimits : c ∈ [',', ']', '\x7d', ' ', '\n']) :
    EndsNumber (some c :: rest) := by
  simp only [List.mem_cons, List.not_mem_nil, or_false] at delimits
  rcases delimits with rfl | rfl | rfl | rfl | rfl
  all_goals exact ⟨rfl, rfl, rfl⟩

theorem takeDigits_append (ds : List Digit) (stop : takeDigits rest = ([], rest)) :
    takeDigits (ds.map (some ∘ Digit.char) ++ rest) = (ds, rest) := by
  induction ds with
  | nil => exact stop
  | cons d ds ih => simp [takeDigits, ih]

theorem takeDigitRun_append {ds : List Digit} (nonempty : ds ≠ [])
    (stop : takeDigits rest = ([], rest)) :
    takeDigitRun (ds.map (some ∘ Digit.char) ++ rest) = some (ds, rest) := by
  rw [takeDigitRun, takeDigits_append ds stop]
  cases ds with
  | nil => exact absurd rfl nonempty
  | cons d ds => rfl

theorem takeWhole_append {ds : List Digit} (nonempty : ds ≠ [])
    (single : ds.head? = some 0 → ds.length = 1) (stop : takeDigits rest = ([], rest)) :
    takeWhole (ds.map (some ∘ Digit.char) ++ rest) = some (ds, rest) := by
  rw [takeWhole, takeDigitRun_append nonempty stop]
  split
  · simp_all
  · rfl

theorem takeFraction_append (ds : List Digit) (stop : takeDigits rest = ([], rest))
    (noPoint : takeFraction rest = some ([], rest)) :
    takeFraction ((if ds.isEmpty then [] else '.' :: ds.map Digit.char).map some ++ rest)
      = some (ds, rest) := by
  cases ds with
  | nil => exact noPoint
  | cons d ds =>
      have run := takeDigitRun_append (List.cons_ne_nil d ds) stop
      simpa [takeFraction] using run

/-- The letter and the sign of a power of ten with its digits. -/
def exponentChars : Option Exponent → List Char
  | none => []
  | some e => 'e' :: (if e.negative then '-' else '+') :: e.digits.map Digit.char

theorem takeExponent_append {exponent : Option Exponent} (digits : ∀ e ∈ exponent, e.digits ≠ [])
    (ends : EndsNumber rest) :
    takeExponent ((exponentChars exponent).map some ++ rest) = some (exponent, rest) := by
  cases exponent with
  | none => exact ends.exponent
  | some e =>
      have run := takeDigitRun_append (digits e rfl) ends.digits
      obtain ⟨negative, ds⟩ := e
      cases negative
      all_goals simpa [exponentChars, takeExponent, takeExponentDigits] using run

/-- The fraction of a number and its power of ten. -/
def tailChars (n : Numeral) : List Char :=
  (if n.fraction.isEmpty then [] else '.' :: n.fraction.map Digit.char) ++ exponentChars n.exponent

theorem chars_eq (n : Numeral) :
    n.chars = (if n.negative then ['-'] else []) ++ (n.whole.map Digit.char ++ tailChars n) := by
  rw [Numeral.chars, tailChars]
  cases n.exponent <;> simp [exponentChars]

theorem takeNumber_append {n : Numeral} (written : n.WellWritten) (ends : EndsNumber rest) :
    takeNumber n.negative ((n.whole.map Digit.char ++ tailChars n).map some ++ rest)
      = some (.number n, rest) := by
  obtain ⟨negative, whole, fraction, exponent⟩ := n
  obtain ⟨nonempty, single, digits⟩ := written
  have power := takeExponent_append digits ends
  have noDigit : takeDigits ((exponentChars exponent).map some ++ rest)
      = ([], (exponentChars exponent).map some ++ rest) := by
    cases exponent with
    | none => exact ends.digits
    | some e => rfl
  have noPoint : takeFraction ((exponentChars exponent).map some ++ rest)
      = some ([], (exponentChars exponent).map some ++ rest) := by
    cases exponent with
    | none => exact ends.fraction
    | some e => rfl
  have point := takeFraction_append fraction noDigit noPoint
  have first : takeDigits ((tailChars ⟨negative, whole, fraction, exponent⟩).map some ++ rest)
      = ([], (tailChars ⟨negative, whole, fraction, exponent⟩).map some ++ rest) := by
    cases fraction with
    | nil => exact noDigit
    | cons d ds => rfl
  have run := takeWhole_append nonempty single first
  simp only [takeNumber, List.map_append, List.map_map, List.append_assoc, Option.bind_eq_bind] at *
  rw [run]
  simp only [tailChars, List.map_append, List.append_assoc, Option.bind_some, point, power,
    Option.pure_def]

end Numbers

section Texts

/-- A control character as four hexadecimal digits. -/
theorem hexUnit?_hexDigit : ∀ n < 0x20,
    hexUnit? (Piece.hexDigit (n / 4096 % 16)) (Piece.hexDigit (n / 256 % 16))
      (Piece.hexDigit (n / 16 % 16)) (Piece.hexDigit (n % 16)) = some n := by
  decide

theorem takeText_unit {n : Nat} (control : n < 0x20) (s : Source) :
    takeText ((Piece.unit n).chars.map some ++ s)
      = (takeText s).bind fun found => some (.unit n :: found.1, found.2) := by
  simp [Piece.chars, takeText, hexUnit?_hexDigit n control]

theorem takeText_char {c : Char} (quote : c ≠ '"') (backslash : c ≠ '\\')
    (control : ¬ c.toNat < 0x20) (s : Source) :
    takeText (some c :: s) = (takeText s).bind fun found => some (.char c :: found.1, found.2) := by
  rw [takeText.eq_4]
  · simp [backslash, control]
  all_goals simp_all

/-- A character is taken back from the piece that writes it. -/
theorem takeText_ofChar (c : Char) (s : Source) :
    takeText ((Piece.ofChar c).chars.map some ++ s)
      = (takeText s).bind fun found => some (Piece.ofChar c :: found.1, found.2) := by
  rw [Piece.ofChar.eq_def]
  split
  case h_8 quote backslash _ _ _ _ _ =>
      split
      · exact takeText_unit ‹_› s
      · exact takeText_char quote backslash ‹_› s
  all_goals
    simp [Piece.chars, Piece.escapeLetter, takeText, escaped?]

theorem takeText_ofString (s : String) :
    takeText (((Quoted.ofString s).flatMap Piece.chars ++ ['"']).map some ++ rest)
      = some (Quoted.ofString s, rest) := by
  rw [Quoted.ofString]
  induction s.toList with
  | nil => rfl
  | cons c cs ih =>
      rw [List.map_cons, List.flatMap_cons, List.append_assoc, List.map_append, List.append_assoc,
        takeText_ofChar, ih]
      rfl

end Texts

/-- A token as printing leaves it. -/
def WellWritten : Token → Prop
  | .number n => n.WellWritten
  | .text q => ∃ s, q = Quoted.ofString s
  | _ => True

theorem take_minus (s : Source) : take (some '-' :: s) = takeNumber true s :=
  rfl

theorem take_digit (d : Digit) (s : Source) :
    take (some d.char :: s) = takeNumber false (some d.char :: s) := by
  match d with
  | 0 | 1 | 2 | 3 | 4 | 5 | 6 | 7 | 8 | 9 => rfl

theorem take_number {n : Numeral} (written : n.WellWritten) (ends : EndsNumber rest) :
    take (n.chars.map some ++ rest) = some (.number n, rest) := by
  have number := takeNumber_append written ends
  rw [chars_eq]
  cases sign : n.negative with
  | true => simpa [sign, take_minus] using number
  | false =>
      obtain ⟨d, ds, whole⟩ := List.exists_cons_of_ne_nil written.whole_ne_nil
      simpa [sign, whole, take_digit] using number

/-- What was written of a token is taken as that token. -/
theorem take_append {t : Token} (written : t.WellWritten)
    (ends : ∀ n, t = .number n → EndsNumber rest) :
    take (t.chars.map some ++ rest) = some (t, rest) := by
  cases t with
  | number n => exact take_number written (ends n rfl)
  | text q =>
      obtain ⟨s, rfl⟩ := written
      simpa [chars, take] using takeText_ofString s
  | bool b => cases b <;> rfl
  | openList | closeList | openObject | closeObject | comma | colon | null => rfl

theorem isBlank_digit (d : Digit) : isBlank d.char = false := by
  revert d
  decide

/-- No token starts with a blank. -/
theorem exists_chars_cons {t : Token} (written : t.WellWritten) :
    ∃ c cs, t.chars = c :: cs ∧ isBlank c = false := by
  cases t with
  | number n =>
      obtain ⟨d, ds, whole⟩ := List.exists_cons_of_ne_nil written.whole_ne_nil
      cases sign : n.negative with
      | true => exact ⟨'-', _, by rw [chars, chars_eq, sign]; rfl, rfl⟩
      | false => exact ⟨d.char, _, by rw [chars, chars_eq, sign, whole]; rfl, isBlank_digit d⟩
  | bool b => cases b <;> exact ⟨_, _, rfl, rfl⟩
  | openList | closeList | openObject | closeObject | comma | colon | null | text =>
      exact ⟨_, _, rfl, rfl⟩

end Token

end Trendline
