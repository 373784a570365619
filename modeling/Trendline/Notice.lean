import Trendline.Engine
import Trendline.Text.Literal
import Trendline.Text.Plain

/-!
What programs tell while they run, apart from their results.
-/
namespace Trendline

inductive Level where
  | info
  | warn
  | error
  deriving Repr, DecidableEq

def Level.name : Level → String
  | .info => "INFO"
  | .warn => "WARN"
  | .error => "ERROR"

structure Notice where
  level : Level
  message : String
  deriving Repr, DecidableEq

/-- The notice as it is told. Line breaks in its message are followed by an indent. -/
def Notice.text (n : Notice) : String :=
  n.level.name ++ " " ++ Text.plain ("\n    ".intercalate (n.message.splitOn "\n"))

/-- The first symbol of a queue, or that there is none. -/
def headText : Option String → String
  | none => "None"
  | some symbol => "Some(" ++ Text.literal symbol ++ ")"

def Event.notice : Event Float → Notice
  | .duplicate symbol => ⟨.warn, "Duplicate series for " ++ symbol ++ " ignored"⟩
  | .unknownPriority symbol => ⟨.warn, "Priority symbol " ++ symbol ++ " is not loaded"⟩
  | .recalculation count head =>
      ⟨.info, "Global recalc: queue rebuilt (" ++ natText count ++ " symbols). Head: "
        ++ headText head⟩
  | .unknownSymbol symbol => ⟨.warn, "Cannot submit " ++ symbol ++ ": no series loaded"⟩
  | .failed symbol e => ⟨.error, "Worker failed for " ++ symbol ++ ": " ++ e.message⟩

end Trendline
