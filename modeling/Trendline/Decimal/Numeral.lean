/-!
Decimal numerals: digits, and numbers written with them.
-/
namespace Trendline.Decimal

abbrev Digit := Fin 10

def Digit.zero : Digit := 0

/-- The digits of a natural number, at least one. -/
def digitsOf (n : Nat) : List Digit :=
  if h : n < 10 then [⟨n, h⟩] else digitsOf (n / 10) ++ [⟨n % 10, Nat.mod_lt n (by decide)⟩]

/-- The number that some digits stand for. -/
def valueOf (ds : List Digit) : Nat :=
  ds.foldl (fun n d => 10 * n + d.val) 0

def Digit.char (d : Digit) : Char :=
  Char.ofNat ('0'.toNat + d.val)

def Digit.ofChar? (c : Char) : Option Digit :=
  if h : '0'.toNat ≤ c.toNat ∧ c.toNat - '0'.toNat < 10 then some ⟨c.toNat - '0'.toNat, h.2⟩
  else none

/-- A power of ten after a numeral. -/
structure Exponent where
  negative : Bool
  digits : List Digit
  deriving Repr, DecidableEq

def Exponent.toInt (e : Exponent) : Int :=
  if e.negative then -(valueOf e.digits : Int) else valueOf e.digits

def Exponent.ofInt (e : Int) : Exponent :=
  ⟨e < 0, digitsOf e.natAbs⟩

/-- A number as written: a sign, whole digits, digits after a point (no point stands before none)
and a power of ten. -/
structure Numeral where
  negative : Bool
  whole : List Digit
  fraction : List Digit
  exponent : Option Exponent
  deriving Repr, DecidableEq

namespace Numeral

def ofNat (n : Nat) : Numeral :=
  ⟨false, digitsOf n, [], none⟩

def ofInt (i : Int) : Numeral :=
  ⟨i < 0, digitsOf i.natAbs, [], none⟩

/-- The written form. A power of ten always carries its sign. -/
def chars (n : Numeral) : List Char :=
  let sign := if n.negative then ['-'] else []
  let fraction := if n.fraction.isEmpty then [] else '.' :: n.fraction.map Digit.char
  let exponent :=
    match n.exponent with
    | none => []
    | some e => 'e' :: (if e.negative then '-' else '+') :: e.digits.map Digit.char
  sign ++ n.whole.map Digit.char ++ fraction ++ exponent

def text (n : Numeral) : String :=
  String.ofList n.chars

end Numeral

end Trendline.Decimal
