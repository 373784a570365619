import Trendline.Json.Value

/-!
Values from documents. A record may be written as an object with its field names as keys, in any
order, or as the list of its fields.
-/
namespace Trendline.Json

/-- Any number, as the nearest double. -/
def float? : Json → Option Float
  | .number n => (Number.ofNumeral? n).map Number.toFloat
  | _ => none

/-- A number without point and power that is not negative. -/
def nat? : Json → Option Nat
  | .number n =>
      match Number.ofNumeral? n with
      | some (.natural n) => some n
      | _ => none
  | _ => none

/-- A number without point and power that fits sixty-four bits with a sign. -/
def int? : Json → Option Int
  | .number n =>
      match Number.ofNumeral? n with
      | some (.natural n) => if fitsWord n then some n else none
      | some (.negative i) => some i
      | _ => none
  | _ => none

def bool? : Json → Option Bool
  | .bool b => some b
  | _ => none

def string? : Json → Option String
  | .text q => Quoted.string? q
  | _ => none

def list? {α : Type} (decode : Json → Option α) : Json → Option (List α)
  | .list items => items.mapM decode
  | _ => none

/-- A value, or null for none. -/
def optional? {α : Type} (decode : Json → Option α) : Json → Option (Option α)
  | .null => some none
  | v => (decode v).map some

/-- One of some names, alone or as the only key of an object over null. -/
def choice? {α : Type} (names : List (String × α)) : Json → Option α
  | .text q | .object [(q, .null)] => (Quoted.string? q).bind fun name => names.lookup name
  | _ => none

/-- How a kind of record may be written. -/
structure RecordForm where
  /-- The fields in order. -/
  fields : List String
  /-- Whether other keys are passed over. -/
  allowsOthers : Bool
  /-- Whether fields may be missing at the end of a list. -/
  allowsShort : Bool

/-- The values given for the fields of a record, each at most once. -/
def members? (form : RecordForm) : Json → Option (List (String × Json))
  | .object ms => do
      let keyed ← ms.mapM fun (q, v) => (Quoted.string? q).map (·, v)
      let known := keyed.filter fun m => form.fields.contains m.1
      if (known.map (·.1)).Nodup && (form.allowsOthers || known.length = keyed.length) then
        some known
      else
        none
  | .list items =>
      if items.length = form.fields.length
          || form.allowsShort && items.length ≤ form.fields.length then
        some (form.fields.zip items)
      else
        none
  | _ => none

/-- The value of a field that must be given. -/
def required? {α : Type} (members : List (String × Json)) (field : String)
    (decode : Json → Option α) : Option α :=
  (members.lookup field).bind decode

/-- The value of a field, or the default if it is not given. -/
def defaulted? {α : Type} (members : List (String × Json)) (field : String) (default : α)
    (decode : Json → Option α) : Option α :=
  match members.lookup field with
  | none => some default
  | some v => decode v

end Trendline.Json
