import Trendline.Analysis
import Trendline.Json.Printer

/-!
Overlays in documents.
-/
namespace Trendline

open Json

def Side.name : Side → String
  | .high => "high"
  | .low => "low"

def Point.toJson (p : Point Float) : Json :=
  .ofMembers [("timestamp_ms", .ofInt p.time), ("price", .ofFloat p.price)]

def Overlay.toJson (o : Overlay Float) : Json :=
  .ofMembers [
    ("start", o.left.toJson),
    ("end", o.right.toJson),
    ("score", .ofFloat o.score),
    ("touches", .ofList .ofInt o.touches.toList),
    ("role_hint", .ofString o.role.name),
    ("kind", .ofString o.side.name),
    ("slope", .ofFloat o.slope),
    ("intercept", .ofFloat o.intercept),
    ("lookback", .ofNat o.lookback),
    ("violation_count", .ofNat o.violations),
    ("color", .ofString o.role.color.text),
    ("score_color", .ofString o.scoreColor.text)]

/-- The overlays of some analyses, under the symbol of each. -/
def overlaysToJson (results : List (String × Analysis Float)) : Json :=
  .ofMembers (results.map fun (symbol, a) => (symbol, .ofList Overlay.toJson a.overlays))

end Trendline
