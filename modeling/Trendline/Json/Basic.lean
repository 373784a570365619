import Trendline.Decimal.Numeral

/-!
JSON documents as written: numbers and texts keep the form in which they stand in the document, so
that a document may hold a number too large to represent, or a text that stands for no characters,
as long as nobody asks for its value.
-/
namespace Trendline

/-- One piece of a text between quotes. -/
inductive Piece where
  | char (c : Char)
  /-- A byte that belongs to no character. -/
  | malformed
  /-- A backslash with one letter or sign, by the character it stands for. -/
  | escape (c : Char)
  /-- A backslash with four hexadecimal digits: a unit of sixteen bits. -/
  | unit (n : Nat)
  deriving Repr, DecidableEq

abbrev Quoted := List Piece

inductive Json where
  | null
  | bool (b : Bool)
  | number (n : Decimal.Numeral)
  | text (q : Quoted)
  | list (items : List Json)
  | object (members : List (Quoted × Json))
  deriving Repr, Inhabited

/-- The smallest units of a JSON document; blanks between them mean nothing. -/
inductive Token where
  | openList
  | closeList
  | openObject
  | closeObject
  | comma
  | colon
  | null
  | bool (b : Bool)
  | number (n : Decimal.Numeral)
  | text (q : Quoted)
  deriving Repr, DecidableEq

end Trendline
