import Trendline.Json.Decode
import Trendline.Json.Reader
import Trendline.Params

/-!
Parameters in documents: what a document gives stands, the rest is as by default, and a document
with a key that is no parameter is refused.
-/
namespace Trendline

open Json

def PivotSource.names : List (String × PivotSource) :=
  [("high_low", .highLow), ("close", .close)]

def Reference.names : List (String × Reference) :=
  [("close", .close), ("wick", .wick), ("range", .range)]

def BreakRule.names : List (String × BreakRule) :=
  [("off", .off), ("close", .close), ("wick", .wick)]

def RightEdge.names : List (String × RightEdge) :=
  [("last_touch", .lastTouch), ("chart_edge", .chartEdge)]

def RolePolicy.names : List (String × RolePolicy) :=
  [("pivot_kind", .pivotKind), ("price_position", .pricePosition)]

def ScoreMode.names : List (String × ScoreMode) :=
  [("r_squared", .rSquared), ("weighted", .weighted)]

namespace Scoring

def form : RecordForm where
  fields := ["mode", "r_squared_weight", "touches_weight", "recency_weight", "violation_weight",
    "proximity_weight", "touch_norm", "min_score"]
  allowsOthers := false
  allowsShort := true

def decode? (v : Json) : Option (Scoring Float) := do
  let ms ← v.members? form
  let d := Scoring.default
  return {
    mode := ← defaulted? ms "mode" d.mode (choice? ScoreMode.names)
    rSquaredWeight := ← defaulted? ms "r_squared_weight" d.rSquaredWeight float?
    touchesWeight := ← defaulted? ms "touches_weight" d.touchesWeight float?
    recencyWeight := ← defaulted? ms "recency_weight" d.recencyWeight float?
    violationWeight := ← defaulted? ms "violation_weight" d.violationWeight float?
    proximityWeight := ← defaulted? ms "proximity_weight" d.proximityWeight float?
    touchNorm := ← defaulted? ms "touch_norm" d.touchNorm float?
    minScore := ← defaulted? ms "min_score" d.minScore (optional? float?) }

end Scoring

namespace Params

def form : RecordForm where
  fields := ["lookbacks", "tolerance_pct", "min_touches", "slope_tolerance",
    "intercept_tolerance", "top_n", "pivot_source", "pivot_dedupe_pct", "reference_price",
    "violation_rule", "break_tolerance_pct", "min_pair_span_bars", "max_pair_span_bars",
    "touch_regression", "scoring", "right_edge", "role_policy", "parallel"]
  allowsOthers := false
  allowsShort := true

def decode? (v : Json) : Option (Params Float) := do
  let ms ← v.members? form
  let d := Params.default
  return {
    lookbacks := ← defaulted? ms "lookbacks" d.lookbacks (list? nat?)
    pivots := {
      source := ← defaulted? ms "pivot_source" d.pivots.source (choice? PivotSource.names)
      dedupe := ← defaulted? ms "pivot_dedupe_pct" d.pivots.dedupe float? }
    pairs := {
      minSpan := ← defaulted? ms "min_pair_span_bars" d.pairs.minSpan nat?
      maxSpan := ← defaulted? ms "max_pair_span_bars" d.pairs.maxSpan (optional? nat?) }
    touches := {
      tolerance := ← defaulted? ms "tolerance_pct" d.touches.tolerance float?
      reference := ← defaulted? ms "reference_price" d.touches.reference (choice? Reference.names)
      breakRule := ← defaulted? ms "violation_rule" d.touches.breakRule (choice? BreakRule.names)
      breakTolerance := ← defaulted? ms "break_tolerance_pct" d.touches.breakTolerance float?
      regression := ← defaulted? ms "touch_regression" d.touches.regression bool? }
    minTouches := ← defaulted? ms "min_touches" d.minTouches nat?
    merging := {
      slope := ← defaulted? ms "slope_tolerance" d.merging.slope float?
      intercept := ← defaulted? ms "intercept_tolerance" d.merging.intercept float? }
    scoring := ← defaulted? ms "scoring" d.scoring Scoring.decode?
    topN := ← defaulted? ms "top_n" d.topN (optional? nat?)
    drawing := {
      rightEdge := ← defaulted? ms "right_edge" d.drawing.rightEdge (choice? RightEdge.names)
      rolePolicy := ← defaulted? ms "role_policy" d.drawing.rolePolicy (choice? RolePolicy.names) }
    parallel := ← defaulted? ms "parallel" d.parallel bool? }

/-- The parameters that a text gives. -/
def ofText? (text : Text.Source) : Option (Params Float) :=
  (parse? text).bind decode?

end Params

end Trendline
