import Trendline.Json.Basic
import Trendline.Text.Source

/-!
Tokens at the front of a text. A number or a text is taken by its form alone: how large the number
is and which characters the text stands for are questions for whoever wants the value.
-/
namespace Trendline.Token

open Decimal Text

/-- The blanks of JSON. -/
def isBlank (c : Char) : Bool :=
  c = ' ' || c = '\n' || c = '\t' || c = '\r'

/-- The digits at the front, and what follows them. -/
def takeDigits : Source → List Digit × Source
  | some c :: rest =>
      match Digit.ofChar? c with
      | some d =>
          let (ds, after) := takeDigits rest
          (d :: ds, after)
      | none => ([], some c :: rest)
  | s => ([], s)

/-- At least one digit, and what follows. -/
def takeDigitRun (s : Source) : Option (List Digit × Source) :=
  match takeDigits s with
  | ([], _) => none
  | found => some found

/-- The whole part of a number: a zero alone, or digits that do not start with a zero. -/
def takeWhole (s : Source) : Option (List Digit × Source) :=
  match takeDigitRun s with
  | some (0 :: _ :: _, _) => none
  | found => found

/-- The fraction after a point, empty where no point follows. -/
def takeFraction : Source → Option (List Digit × Source)
  | some '.' :: rest => takeDigitRun rest
  | s => some ([], s)

def takeExponentDigits (negative : Bool) (s : Source) : Option (Option Exponent × Source) :=
  (takeDigitRun s).map fun (ds, rest) => (some ⟨negative, ds⟩, rest)

/-- The power of ten after a number, if one follows. -/
def takeExponent : Source → Option (Option Exponent × Source)
  | some c :: rest =>
      if c = 'e' || c = 'E' then
        match rest with
        | some '+' :: after => takeExponentDigits false after
        | some '-' :: after => takeExponentDigits true after
        | after => takeExponentDigits false after
      else
        some (none, some c :: rest)
  | s => some (none, s)

/-- A number after its sign. -/
def takeNumber (negative : Bool) (s : Source) : Option (Token × Source) := do
  let (whole, s) ← takeWhole s
  let (fraction, s) ← takeFraction s
  let (exponent, s) ← takeExponent s
  return (.number ⟨negative, whole, fraction, exponent⟩, s)

/-- The character that a letter or sign after a backslash stands for. -/
def escaped? : Char → Option Char
  | '"' => some '"'
  | '\\' => some '\\'
  | '/' => some '/'
  | 'b' => some '\x08'
  | 'f' => some '\x0c'
  | 'n' => some '\n'
  | 'r' => some '\r'
  | 't' => some '\t'
  | _ => none

def hexValue? (c : Char) : Option Nat :=
  let n := c.toNat
  if '0'.toNat ≤ n ∧ n ≤ '9'.toNat then some (n - '0'.toNat)
  else if 'a'.toNat ≤ n ∧ n ≤ 'f'.toNat then some (n - 'a'.toNat + 10)
  else if 'A'.toNat ≤ n ∧ n ≤ 'F'.toNat then some (n - 'A'.toNat + 10)
  else none

/-- The unit that four hexadecimal digits write. -/
def hexUnit? (a b c d : Char) : Option Nat := do
  return (((← hexValue? a) * 16 + (← hexValue? b)) * 16 + (← hexValue? c)) * 16 + (← hexValue? d)

/-- The pieces up to the closing quote, and what follows it. Control characters may not stand in a
text. -/
def takeText : Source → Option (Quoted × Source)
  | some '"' :: rest => some ([], rest)
  | some '\\' :: some 'u' :: some a :: some b :: some c :: some d :: rest => do
      let n ← hexUnit? a b c d
      let (q, rest) ← takeText rest
      return (.unit n :: q, rest)
  | some '\\' :: some e :: rest => do
      let c ← escaped? e
      let (q, rest) ← takeText rest
      return (.escape c :: q, rest)
  | some c :: rest =>
      if c = '\\' || c.toNat < 0x20 then none
      else do
        let (q, rest) ← takeText rest
        return (.char c :: q, rest)
  | none :: rest => do
      let (q, rest) ← takeText rest
      return (.malformed :: q, rest)
  | [] => none

/-- The token at the front of a text that does not start with a blank, and what follows it. -/
def take : Source → Option (Token × Source)
  | some '[' :: rest => some (.openList, rest)
  | some ']' :: rest => some (.closeList, rest)
  | some '\x7b' :: rest => some (.openObject, rest)
  | some '\x7d' :: rest => some (.closeObject, rest)
  | some ',' :: rest => some (.comma, rest)
  | some ':' :: rest => some (.colon, rest)
  | some 'n' :: some 'u' :: some 'l' :: some 'l' :: rest => some (.null, rest)
  | some 't' :: some 'r' :: some 'u' :: some 'e' :: rest => some (.bool true, rest)
  | some 'f' :: some 'a' :: some 'l' :: some 's' :: some 'e' :: rest => some (.bool false, rest)
  | some '"' :: rest => (takeText rest).map fun (q, rest) => (.text q, rest)
  | some '-' :: rest => takeNumber true rest
  | s => takeNumber false s

theorem takeDigits_length (s : Source) : (takeDigits s).2.length ≤ s.length := by
  fun_induction takeDigits s with
  | case1 c rest d hd ds after h ih =>
      have : after.length ≤ rest.length := by simpa [h] using ih
      simp only [List.length_cons]
      omega
  | case2 | case3 => exact Nat.le_refl _

theorem takeDigits_length_lt {s : Source} (h : (takeDigits s).1 ≠ []) :
    (takeDigits s).2.length < s.length := by
  fun_cases takeDigits s with
  | case1 c rest d hd ds after hs =>
      have := takeDigits_length rest
      simp only [hs, List.length_cons] at this ⊢
      omega
  | case2 c rest hd => simp [takeDigits, hd] at h
  | case3 => simp_all [takeDigits]

theorem takeDigitRun_length {s rest : Source} {ds : List Digit}
    (h : takeDigitRun s = some (ds, rest)) : rest.length < s.length := by
  unfold takeDigitRun at h
  split at h
  · cases h
  · next hne =>
      have hs : takeDigits s = (ds, rest) := Option.some.inj h
      have := takeDigits_length_lt (s := s) fun h0 => hne rest (by rw [hs] at h0 ⊢; rw [← h0])
      simpa [hs] using this

theorem takeWhole_length {s rest : Source} {ds : List Digit}
    (h : takeWhole s = some (ds, rest)) : rest.length < s.length := by
  unfold takeWhole at h
  split at h
  · cases h
  · exact takeDigitRun_length h

theorem takeFraction_length {s rest : Source} {ds : List Digit}
    (h : takeFraction s = some (ds, rest)) : rest.length ≤ s.length := by
  unfold takeFraction at h
  split at h
  · have := takeDigitRun_length h
    simp only [List.length_cons]
    omega
  · cases h
    exact Nat.le_refl _

theorem takeExponentDigits_length {negative : Bool} {s rest : Source} {e : Option Exponent}
    (h : takeExponentDigits negative s = some (e, rest)) : rest.length ≤ s.length := by
  unfold takeExponentDigits at h
  obtain ⟨⟨ds, after⟩, hs, hr⟩ := Option.map_eq_some_iff.1 h
  cases hr
  exact Nat.le_of_lt (takeDigitRun_length hs)

theorem takeExponent_length {s rest : Source} {e : Option Exponent}
    (h : takeExponent s = some (e, rest)) : rest.length ≤ s.length := by
  unfold takeExponent at h
  split at h
  · split at h
    · split at h <;>
        · have := takeExponentDigits_length h
          simp only [List.length_cons] at *
          omega
    · cases h
      exact Nat.le_refl _
  · cases h
    exact Nat.le_refl _

theorem takeNumber_length {negative : Bool} {s rest : Source} {t : Token}
    (h : takeNumber negative s = some (t, rest)) : rest.length < s.length := by
  simp only [takeNumber, Option.bind_eq_bind, Option.bind_eq_some_iff] at h
  obtain ⟨⟨whole, s₁⟩, h₁, ⟨fraction, s₂⟩, h₂, ⟨exponent, s₃⟩, h₃, h⟩ := h
  cases h
  have := takeWhole_length h₁
  have := takeFraction_length h₂
  have := takeExponent_length h₃
  simp only at *
  omega

theorem takeText_length {s rest : Source} {q : Quoted}
    (h : takeText s = some (q, rest)) : rest.length < s.length := by
  fun_induction takeText s generalizing q rest with
  | case1 => cases h; simp
  | case2 a b c d s ih =>
      simp only [Option.bind_eq_bind, Option.bind_eq_some_iff] at h
      obtain ⟨_, _, ⟨q', rest'⟩, hq, h⟩ := h
      cases h
      have := ih hq
      simp only [List.length_cons]
      omega
  | case3 e s _ ih =>
      simp only [Option.bind_eq_bind, Option.bind_eq_some_iff] at h
      obtain ⟨_, _, ⟨q', rest'⟩, hq, h⟩ := h
      cases h
      have := ih hq
      simp only [List.length_cons]
      omega
  | case4 | case7 => cases h
  | case5 c s _ _ _ _ ih | case6 s ih =>
      simp only [Option.bind_eq_bind, Option.bind_eq_some_iff] at h
      obtain ⟨⟨q', rest'⟩, hq, h⟩ := h
      cases h
      have := ih hq
      simp only [List.length_cons]
      omega

/-- Every token takes up at least one character. -/
theorem take_length {s rest : Source} {t : Token} (h : take s = some (t, rest)) :
    rest.length < s.length := by
  unfold take at h
  split at h
  case h_10 s _ =>
    obtain ⟨⟨q, after⟩, hq, hr⟩ := Option.map_eq_some_iff.1 h
    cases hr
    have := takeText_length hq
    simp only [List.length_cons]
    omega
  case h_11 s _ =>
    have := takeNumber_length h
    simp only [List.length_cons]
    omega
  case h_12 => exact takeNumber_length h
  all_goals
    cases h
    simp only [List.length_cons]
    omega

end Trendline.Token
