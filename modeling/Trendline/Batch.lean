import Trendline.Engine

/-!
The analyses of a whole collection, or of one symbol of it, by way of an engine.
-/
namespace Trendline

/-- Why a batch gives no result. -/
inductive BatchError (α : Type) where
  | unknownSymbol (symbol : String) (available : List String)
  /-- The analysis of a symbol failed, or was never finished. -/
  | failed (symbol : String) (e : Option (Error α))
  deriving Repr, DecidableEq

variable {α : Type}

namespace Engine

/-- The analysis of a symbol, or why there is none. -/
def result (e : Engine α) (symbol : String) : Except (BatchError α) (String × Analysis α) :=
  match e.analysis? symbol with
  | some a => .ok (symbol, a)
  | none => .error (.failed symbol (e.status symbol).2)

variable [Scalar α]

/-- Works on the given symbol, or on all, and gives their analyses in the order of the symbols. One
failure fails the batch. -/
def batch (e : Engine α) (only : Option String) :
    Engine α × Except (BatchError α) (List (String × Analysis α)) :=
  match only with
  | none =>
      let e := (e.recalculate none).waitAll
      (e, e.symbols.mapM e.result)
  | some symbol =>
      match e.submit symbol with
      | (e, false) => (e, .error (.unknownSymbol symbol e.symbols))
      | (e, true) =>
          let e := e.waitAll
          (e, [symbol].mapM e.result)

end Engine

/-- The analyses of a collection by symbol. -/
def Collection.analyze [Scalar α] (c : Collection α) (p : Params α) (only : Option String) :
    Except (BatchError α) (List (String × Analysis α)) :=
  ((Engine.ofCollection c p).batch only).2

end Trendline
