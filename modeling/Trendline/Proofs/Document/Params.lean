import Trendline.Document.Params
import Trendline.Proofs.Json.Defaults
import Trendline.Proofs.Json.Values

/-!
What a document of parameters gives. It is accepted just when each of its keys is a parameter, none
occurs twice and every value is one of its parameter; then the parameters are the values given and
the defaults elsewhere. The scoring is read by the same rules.
-/

namespace Trendline

open Json

namespace Scoring

def fields : List (RecordField (Scoring Float)) := [
  ⟨"mode", ScoreMode, choice? ScoreMode.names, (·.mode)⟩,
  ⟨"r_squared_weight", Float, float?, (·.rSquaredWeight)⟩,
  ⟨"touches_weight", Float, float?, (·.touchesWeight)⟩,
  ⟨"recency_weight", Float, float?, (·.recencyWeight)⟩,
  ⟨"violation_weight", Float, float?, (·.violationWeight)⟩,
  ⟨"proximity_weight", Float, float?, (·.proximityWeight)⟩,
  ⟨"touch_norm", Float, float?, (·.touchNorm)⟩,
  ⟨"min_score", Option Float, optional? float?, (·.minScore)⟩]

theorem decode?_eq_some {v : Json} {s : Scoring Float} (read : decode? v = some s) :
    ∃ known, v.members? form = some known ∧
      ∀ f ∈ fields, defaulted? known f.name (f.get .default) f.decode? = some (f.get s) := by
  obtain ⟨known, members, read⟩ := Option.bind_eq_some_iff.mp read
  obtain ⟨_, mode, read⟩ := Option.bind_eq_some_iff.mp read
  obtain ⟨_, rSquared, read⟩ := Option.bind_eq_some_iff.mp read
  obtain ⟨_, touches, read⟩ := Option.bind_eq_some_iff.mp read
  obtain ⟨_, recency, read⟩ := Option.bind_eq_some_iff.mp read
  obtain ⟨_, violation, read⟩ := Option.bind_eq_some_iff.mp read
  obtain ⟨_, proximity, read⟩ := Option.bind_eq_some_iff.mp read
  obtain ⟨_, touchNorm, read⟩ := Option.bind_eq_some_iff.mp read
  obtain ⟨_, minScore, read⟩ := Option.bind_eq_some_iff.mp read
  cases read
  simp only [fields, List.forall_mem_cons]
  exact ⟨known, members, mode, rSquared, touches, recency, violation, proximity, touchNorm,
    minScore, List.forall_mem_nil _⟩

theorem decode?_of_fields {v : Json} {s : Scoring Float} {known : List (String × Json)}
    (members : v.members? form = some known)
    (each : ∀ f ∈ fields, defaulted? known f.name (f.get .default) f.decode? = some (f.get s)) :
    decode? v = some s := by
  simp only [fields, List.forall_mem_cons] at each
  obtain ⟨mode, rSquared, touches, recency, violation, proximity, touchNorm, minScore, -⟩ := each
  refine Option.bind_eq_some_iff.mpr ⟨_, members, ?_⟩
  refine Option.bind_eq_some_iff.mpr ⟨_, mode, ?_⟩
  refine Option.bind_eq_some_iff.mpr ⟨_, rSquared, ?_⟩
  refine Option.bind_eq_some_iff.mpr ⟨_, touches, ?_⟩
  refine Option.bind_eq_some_iff.mpr ⟨_, recency, ?_⟩
  refine Option.bind_eq_some_iff.mpr ⟨_, violation, ?_⟩
  refine Option.bind_eq_some_iff.mpr ⟨_, proximity, ?_⟩
  refine Option.bind_eq_some_iff.mpr ⟨_, touchNorm, ?_⟩
  refine Option.bind_eq_some_iff.mpr ⟨_, minScore, ?_⟩
  rfl

def reader : DefaultedReader (Scoring Float) where
  form := form
  fields := fields
  default := .default
  decode? := decode?
  names := rfl
  closed := rfl
  reads _ _ := ⟨decode?_eq_some, fun ⟨_, members, each⟩ => decode?_of_fields members each⟩
  readable v known members each := by
    simp only [fields, List.forall_mem_cons, Option.isSome_iff_exists] at each
    obtain ⟨⟨mode, h₁⟩, ⟨rSquared, h₂⟩, ⟨touches, h₃⟩, ⟨recency, h₄⟩, ⟨violation, h₅⟩,
      ⟨proximity, h₆⟩, ⟨touchNorm, h₇⟩, ⟨minScore, h₈⟩, -⟩ := each
    have read : decode? v = some
        ⟨mode, rSquared, touches, recency, violation, proximity, touchNorm, minScore⟩ := by
      refine decode?_of_fields members ?_
      simp only [fields, List.forall_mem_cons]
      exact ⟨h₁, h₂, h₃, h₄, h₅, h₆, h₇, h₈, List.forall_mem_nil _⟩
    exact Option.isSome_of_mem read

end Scoring

namespace Params

def fields : List (RecordField (Params Float)) := [
  ⟨"lookbacks", List Nat, list? nat?, (·.lookbacks)⟩,
  ⟨"tolerance_pct", Float, float?, (·.touches.tolerance)⟩,
  ⟨"min_touches", Nat, nat?, (·.minTouches)⟩,
  ⟨"slope_tolerance", Float, float?, (·.merging.slope)⟩,
  ⟨"intercept_tolerance", Float, float?, (·.merging.intercept)⟩,
  ⟨"top_n", Option Nat, optional? nat?, (·.topN)⟩,
  ⟨"pivot_source", PivotSource, choice? PivotSource.names, (·.pivots.source)⟩,
  ⟨"pivot_dedupe_pct", Float, float?, (·.pivots.dedupe)⟩,
  ⟨"reference_price", Reference, choice? Reference.names, (·.touches.reference)⟩,
  ⟨"violation_rule", BreakRule, choice? BreakRule.names, (·.touches.breakRule)⟩,
  ⟨"break_tolerance_pct", Float, float?, (·.touches.breakTolerance)⟩,
  ⟨"min_pair_span_bars", Nat, nat?, (·.pairs.minSpan)⟩,
  ⟨"max_pair_span_bars", Option Nat, optional? nat?, (·.pairs.maxSpan)⟩,
  ⟨"touch_regression", Bool, bool?, (·.touches.regression)⟩,
  ⟨"scoring", Scoring Float, Scoring.decode?, (·.scoring)⟩,
  ⟨"right_edge", RightEdge, choice? RightEdge.names, (·.drawing.rightEdge)⟩,
  ⟨"role_policy", RolePolicy, choice? RolePolicy.names, (·.drawing.rolePolicy)⟩,
  ⟨"parallel", Bool, bool?, (·.parallel)⟩]

-- The fields are listed as the document has them; the reader takes them in the order of the stages.
theorem decode?_eq_some {v : Json} {p : Params Float} (read : decode? v = some p) :
    ∃ known, v.members? form = some known ∧
      ∀ f ∈ fields, defaulted? known f.name (f.get .default) f.decode? = some (f.get p) := by
  obtain ⟨known, members, read⟩ := Option.bind_eq_some_iff.mp read
  obtain ⟨_, lookbacks, read⟩ := Option.bind_eq_some_iff.mp read
  obtain ⟨_, source, read⟩ := Option.bind_eq_some_iff.mp read
  obtain ⟨_, dedupe, read⟩ := Option.bind_eq_some_iff.mp read
  obtain ⟨_, minSpan, read⟩ := Option.bind_eq_some_iff.mp read
  obtain ⟨_, maxSpan, read⟩ := Option.bind_eq_some_iff.mp read
  obtain ⟨_, tolerance, read⟩ := Option.bind_eq_some_iff.mp read
  obtain ⟨_, reference, read⟩ := Option.bind_eq_some_iff.mp read
  obtain ⟨_, breakRule, read⟩ := Option.bind_eq_some_iff.mp read
  obtain ⟨_, breakTolerance, read⟩ := Option.bind_eq_some_iff.mp read
  obtain ⟨_, regression, read⟩ := Option.bind_eq_some_iff.mp read
  obtain ⟨_, minTouches, read⟩ := Option.bind_eq_some_iff.mp read
  obtain ⟨_, slope, read⟩ := Option.bind_eq_some_iff.mp read
  obtain ⟨_, intercept, read⟩ := Option.bind_eq_some_iff.mp read
  obtain ⟨_, scoring, read⟩ := Option.bind_eq_some_iff.mp read
  obtain ⟨_, topN, read⟩ := Option.bind_eq_some_iff.mp read
  obtain ⟨_, rightEdge, read⟩ := Option.bind_eq_some_iff.mp read
  obtain ⟨_, rolePolicy, read⟩ := Option.bind_eq_some_iff.mp read
  obtain ⟨_, parallel, read⟩ := Option.bind_eq_some_iff.mp read
  cases read
  simp only [fields, List.forall_mem_cons]
  exact ⟨known, members, lookbacks, tolerance, minTouches, slope, intercept, topN, source, dedupe,
    reference, breakRule, breakTolerance, minSpan, maxSpan, regression, scoring, rightEdge,
    rolePolicy, parallel, List.forall_mem_nil _⟩

theorem decode?_of_fields {v : Json} {p : Params Float} {known : List (String × Json)}
    (members : v.members? form = some known)
    (each : ∀ f ∈ fields, defaulted? known f.name (f.get .default) f.decode? = some (f.get p)) :
    decode? v = some p := by
  simp only [fields, List.forall_mem_cons] at each
  obtain ⟨lookbacks, tolerance, minTouches, slope, intercept, topN, source, dedupe, reference,
    breakRule, breakTolerance, minSpan, maxSpan, regression, scoring, rightEdge, rolePolicy,
    parallel, -⟩ := each
  refine Option.bind_eq_some_iff.mpr ⟨_, members, ?_⟩
  refine Option.bind_eq_some_iff.mpr ⟨_, lookbacks, ?_⟩
  refine Option.bind_eq_some_iff.mpr ⟨_, source, ?_⟩
  refine Option.bind_eq_some_iff.mpr ⟨_, dedupe, ?_⟩
  refine Option.bind_eq_some_iff.mpr ⟨_, minSpan, ?_⟩
  refine Option.bind_eq_some_iff.mpr ⟨_, maxSpan, ?_⟩
  refine Option.bind_eq_some_iff.mpr ⟨_, tolerance, ?_⟩
  refine Option.bind_eq_some_iff.mpr ⟨_, reference, ?_⟩
  refine Option.bind_eq_some_iff.mpr ⟨_, breakRule, ?_⟩
  refine Option.bind_eq_some_iff.mpr ⟨_, breakTolerance, ?_⟩
  refine Option.bind_eq_some_iff.mpr ⟨_, regression, ?_⟩
  refine Option.bind_eq_some_iff.mpr ⟨_, minTouches, ?_⟩
  refine Option.bind_eq_some_iff.mpr ⟨_, slope, ?_⟩
  refine Option.bind_eq_some_iff.mpr ⟨_, intercept, ?_⟩
  refine Option.bind_eq_some_iff.mpr ⟨_, scoring, ?_⟩
  refine Option.bind_eq_some_iff.mpr ⟨_, topN, ?_⟩
  refine Option.bind_eq_some_iff.mpr ⟨_, rightEdge, ?_⟩
  refine Option.bind_eq_some_iff.mpr ⟨_, rolePolicy, ?_⟩
  refine Option.bind_eq_some_iff.mpr ⟨_, parallel, ?_⟩
  rfl

def reader : DefaultedReader (Params Float) where
  form := form
  fields := fields
  default := .default
  decode? := decode?
  names := rfl
  closed := rfl
  reads _ _ := ⟨decode?_eq_some, fun ⟨_, members, each⟩ => decode?_of_fields members each⟩
  readable v known members each := by
    simp only [fields, List.forall_mem_cons, Option.isSome_iff_exists] at each
    obtain ⟨⟨lookbacks, h₁⟩, ⟨tolerance, h₂⟩, ⟨minTouches, h₃⟩, ⟨slope, h₄⟩, ⟨intercept, h₅⟩,
      ⟨topN, h₆⟩, ⟨source, h₇⟩, ⟨dedupe, h₈⟩, ⟨reference, h₉⟩, ⟨breakRule, h₁₀⟩,
      ⟨breakTolerance, h₁₁⟩, ⟨minSpan, h₁₂⟩, ⟨maxSpan, h₁₃⟩, ⟨regression, h₁₄⟩, ⟨scoring, h₁₅⟩,
      ⟨rightEdge, h₁₆⟩, ⟨rolePolicy, h₁₇⟩, ⟨parallel, h₁₈⟩, -⟩ := each
    let p : Params Float :=
      { lookbacks, pivots := { source, dedupe }, pairs := { minSpan, maxSpan }
        touches := { tolerance, reference, breakRule, breakTolerance, regression }
        minTouches, merging := { slope, intercept }, scoring, topN
        drawing := { rightEdge, rolePolicy }, parallel }
    have read : decode? v = some p := by
      refine decode?_of_fields members ?_
      simp only [fields, List.forall_mem_cons]
      exact ⟨h₁, h₂, h₃, h₄, h₅, h₆, h₇, h₈, h₉, h₁₀, h₁₁, h₁₂, h₁₃, h₁₄, h₁₅, h₁₆, h₁₇, h₁₈,
        List.forall_mem_nil _⟩
    exact Option.isSome_of_mem read

/-- The members of an object in another order, those of the scoring included. -/
inductive Reordered (ms : List (Quoted × Json)) : List (Quoted × Json) → Prop
  | keys {ms' : List (Quoted × Json)} (perm : ms.Perm ms') : Reordered ms ms'
  | scoring {before after ss ss' ms' : List (Quoted × Json)} {q : Quoted}
      (text : Quoted.string? q = some "scoring") (split : ms = before ++ (q, .object ss) :: after)
      (inner : ss.Perm ss') (perm : (before ++ (q, .object ss') :: after).Perm ms') :
      Reordered ms ms'

/-- Only the scoring is read from a scoring. -/
theorem decode?_scoring {v v' : Json} (same : Scoring.decode? v = Scoring.decode? v') :
    ∀ f ∈ fields, f.name = "scoring" → f.decode? v = f.decode? v' := by
  simp [fields, same]

theorem Reordered.decode?_eq {ms ms' : List (Quoted × Json)} (h : Reordered ms ms') :
    decode? (.object ms) = decode? (.object ms') := by
  cases h with
  | keys perm => exact reader.decode?_object_perm perm
  | @scoring before after ss ss' _ q text split inner perm =>
      have same : Scoring.decode? (.object ss) = Scoring.decode? (.object ss') :=
        Scoring.reader.decode?_object_perm inner
      subst split
      refine Eq.trans (reader.decode?_object_replace fun f field name => ?_)
        (reader.decode?_object_perm perm)
      have scoring : f.name = "scoring" := Option.some.inj (name.symm.trans text)
      exact decode?_scoring same f field scoring

/-- A text that holds an object gives parameters just when its keys are parameters, each given once
and with a value of its own kind; a scoring obeys the same rules. What is given then stands, the
rest is as by default, and the order of the keys does not matter. One stray key is enough for the
whole text to be refused. -/
theorem document_sets_its_keys {text : Text.Source} {ms : List (Quoted × Json)}
    (object : parse? text = some (.object ms)) :
    ((ofText? text).isSome ↔ reader.Admits ms) ∧
    (∀ p, ofText? text = some p ↔ reader.Admits ms ∧ reader.Sets ms p) ∧
    (∀ ss, (Scoring.decode? (.object ss)).isSome ↔ Scoring.reader.Admits ss) ∧
    (∀ ss s, Scoring.decode? (.object ss) = some s ↔
      Scoring.reader.Admits ss ∧ Scoring.reader.Sets ss s) ∧
    (∀ text' ms', parse? text' = some (.object ms') → Reordered ms ms' →
      ofText? text' = ofText? text) ∧
    (reader.Strays ms → ofText? text = none) ∧
    (∀ m ∈ ms, ∀ ss, Quoted.string? m.1 = some "scoring" → m.2 = .object ss →
      Scoring.reader.Strays ss → ofText? text = none) := by
  have read : ofText? text = reader.decode? (.object ms) := by
    rw [ofText?, object, Option.bind_some]
    rfl
  rw [read]
  refine ⟨reader.isSome_decode?_object_iff, fun p => reader.decode?_object_eq_some_iff,
    fun ss => Scoring.reader.isSome_decode?_object_iff,
    fun ss s => Scoring.reader.decode?_object_eq_some_iff, ?_, reader.decode?_object_of_strays, ?_⟩
  · intro text' ms' object' reordered
    rw [ofText?, object', Option.bind_some]
    exact reordered.decode?_eq.symm
  · intro m mem ss name value strays
    rw [← Option.not_isSome_iff_eq_none, reader.isSome_decode?_object_iff]
    intro admits
    have field : ⟨"scoring", Scoring Float, Scoring.decode?, (·.scoring)⟩ ∈ fields := by
      simp [fields]
    have refused : Scoring.decode? (.object ss) = none :=
      Scoring.reader.decode?_object_of_strays strays
    have accepted : (Scoring.decode? m.2).isSome := admits.decodes m mem _ field name
    rw [value, refused] at accepted
    cases accepted

/-- Two parameters and one of the scoring, in an order of their own. -/
def fewMembers : List (String × Json) :=
  [("top_n", .ofNat 3), ("scoring", .ofMembers [("min_score", .ofFloat 0.25)]),
    ("lookbacks", .ofList .ofNat [10, 5, 10])]

def fewParams : Params Float :=
  { default with
    topN := some 3, lookbacks := [10, 5, 10]
    scoring := { Scoring.default with minScore := some 0.25 } }

theorem document_sets_its_keys_few :
    let text := Text.Source.ofString ((ofMembers fewMembers).render .indented)
    parse? text = some (ofMembers fewMembers) ∧ ofText? text = some fewParams ∧
      reader.Sets (fewMembers.map fun (key, v) => (.ofString key, v)) fewParams := by
  intro text
  have natural (n : Nat) : (ofNat n).WellWritten := ofInt_natCast n ▸ wellWritten_ofInt n
  have scoring : (ofMembers [("min_score", ofFloat 0.25)]).WellWritten :=
    wellWritten_ofMembers (by simp [wellWritten_ofFloat])
  have lookbacks : (ofList ofNat [10, 5, 10]).WellWritten := wellWritten_ofList fun n _ => natural n
  have object : parse? text = some (ofMembers fewMembers) := by
    refine parse?_render .indented (wellWritten_ofMembers ?_)
    simp [fewMembers, natural, scoring, lookbacks]
  have read : ofText? text = some fewParams := by
    rw [ofText?, object]
    decide +kernel
  exact ⟨object, read, (((document_sets_its_keys object).2.1 fewParams).mp read).2⟩

end Params

end Trendline
