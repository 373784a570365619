import Trendline.Json.Lexer

/-!
Documents from tokens. The reader keeps the open lists and objects on a stack of its own, so that
nesting may be as deep as the text makes it.
-/
namespace Trendline.Json

open Text

/-- A list or an object that waits for one of its values; what came before stands last first. -/
inductive Frame where
  | list (before : List Json)
  | object (before : List (Quoted × Json)) (key : Quoted)

/-- What a reader has read and what may come next. -/
inductive Reader where
  /-- A value must come. -/
  | value (stack : List Frame)
  /-- A list has opened: a value or its end. -/
  | listOpened (stack : List Frame)
  /-- An object has opened: a key or its end. -/
  | objectOpened (stack : List Frame)
  /-- A further key must come. -/
  | key (before : List (Quoted × Json)) (stack : List Frame)
  /-- The colon after a key must come. -/
  | colon (before : List (Quoted × Json)) (key : Quoted) (stack : List Frame)
  /-- A value has ended. -/
  | ended (value : Json) (stack : List Frame)

namespace Reader

/-- The first token of a value. -/
def start (stack : List Frame) : Token → Option Reader
  | .null => some (.ended .null stack)
  | .bool b => some (.ended (.bool b) stack)
  | .number n => some (.ended (.number n) stack)
  | .text q => some (.ended (.text q) stack)
  | .openList => some (.listOpened stack)
  | .openObject => some (.objectOpened stack)
  | _ => none

def step : Reader → Token → Option Reader
  | .value stack, t => start stack t
  | .listOpened stack, .closeList => some (.ended (.list []) stack)
  | .listOpened stack, t => start (.list [] :: stack) t
  | .objectOpened stack, .closeObject => some (.ended (.object []) stack)
  | .objectOpened stack, .text q => some (.colon [] q stack)
  | .key before stack, .text q => some (.colon before q stack)
  | .colon before q stack, .colon => some (.value (.object before q :: stack))
  | .ended v (.list before :: stack), .comma => some (.value (.list (v :: before) :: stack))
  | .ended v (.list before :: stack), .closeList =>
      some (.ended (.list (v :: before).reverse) stack)
  | .ended v (.object before q :: stack), .comma => some (.key ((q, v) :: before) stack)
  | .ended v (.object before q :: stack), .closeObject =>
      some (.ended (.object ((q, v) :: before).reverse) stack)
  | _, _ => none

/-- The document, if it is complete. -/
def result? : Reader → Option Json
  | .ended v [] => some v
  | _ => none

/-- Reads to the end of the text. -/
def run (r : Reader) : Source → Option Json
  | [] => r.result?
  | c :: rest =>
      if c.any Token.isBlank then
        r.run rest
      else
        match _taken : Token.take (c :: rest) with
        | none => none
        | some (t, after) =>
            match r.step t with
            | none => none
            | some r => r.run after
termination_by s => s.length
decreasing_by
  · simp
  · exact Token.take_length _taken

end Reader

/-- Reads a whole text as one document. -/
def parse? (s : Source) : Option Json :=
  (Reader.value []).run s

end Trendline.Json
