import Trendline.Proofs.Checked.Lines
import Trendline.Proofs.Double.Order

/-!
The checked analysis. Lines are put into groups by their positions in one list of lines, so that a
group is read through two lists; overlays read the series at the touches of their clusters. Whatever
the series and the parameters hold, no trap is reached: an analysis gives a result or refuses its
input.
-/

namespace Trendline

namespace Checked

variable {α : Type} [Scalar α]

section Clusters

variable {lines : Array (Line α)}

def admits (tolerance : Tolerance α) (lines : Array (Line α)) (members : Array Nat)
    (line : Line α) : Except (Halt α) Bool := do
  let founder ← entry lines (← entry members 0)
  return tolerance.admits founder line

def place (tolerance : Tolerance α) (lines : Array (Line α)) (line : Line α) (i : Nat) :
    List (Array Nat) → Except (Halt α) (List (Array Nat))
  | [] => return [#[i]]
  | members :: rest => do
      if ← admits tolerance lines members line then
        return members.push i :: rest
      else
        return members :: (← place tolerance lines line i rest)

def groups (tolerance : Tolerance α) (lines : Array (Line α)) :
    Except (Halt α) (List (Array Nat)) :=
  lines.toList.zipIdx.foldlM (fun groups (line, i) => place tolerance lines line i groups) []

def cluster (lines : Array (Line α)) (members : Array Nat) : Except (Halt α) (Cluster α) := do
  let founder ← entry lines (← entry members 0)
  let listed ← members.toList.mapM (entry lines)
  return Group.cluster ⟨founder, listed.tail.reverse⟩

/-- The positions are those of the lines of a group, in their order. -/
def Spells (lines : Array (Line α)) (members : Array Nat) (g : Group α) : Prop :=
  List.Forall₂ (fun i line => lines[i]? = some line) members.toList g.lines

omit [Scalar α] in
theorem Spells.push {members : Array Nat} {g : Group α} {line : Line α} {i : Nat}
    (h : Spells lines members g) (entry : lines[i]? = some line) :
    Spells lines (members.push i) { g with joined := line :: g.joined } := by
  unfold Spells
  rw [Array.toList_push, Group.lines_push]
  exact List.rel_append h (.cons entry .nil)

omit [Scalar α] in
theorem Spells.founder {members : Array Nat} {g : Group α} (h : Spells lines members g) :
    ∃ i, (entry members 0 : Except (Halt α) Nat) = .ok i ∧
      (entry lines i : Except (Halt α) (Line α)) = .ok g.founder := by
  obtain ⟨i, rest, first, -, listed⟩ := List.forall₂_cons_right_iff.mp h
  refine ⟨i, entry_of_getElem? ?_, entry_of_getElem? first⟩
  rw [← Array.getElem?_toList, listed]
  rfl

theorem exists_place (tolerance : Tolerance α) {ids : List (Array Nat)} {groups : List (Group α)}
    {line : Line α} {i : Nat} (h : List.Forall₂ (Spells lines) ids groups)
    (entry : lines[i]? = some line) :
    ∃ ids', place tolerance lines line i ids = .ok ids' ∧
      List.Forall₂ (Spells lines) ids' (Group.place tolerance line groups) := by
  -- Both lists of groups are walked at once: the positions name the founder that is compared with.
  induction h with
  | nil => exact ⟨[#[i]], rfl, .cons (.cons entry .nil) .nil⟩
  | @cons members g ids groups first later ih =>
      obtain ⟨j, atZero, founder⟩ := first.founder
      have judged : admits tolerance lines members line
          = .ok (tolerance.admits g.founder line) := by
        rw [admits, atZero, ok_bind, founder]
        rfl
      unfold place Group.place
      rw [judged, ok_bind]
      split
      · exact ⟨_, rfl, .cons (first.push entry) later⟩
      · obtain ⟨ids', eq, spelled⟩ := ih
        rw [eq]
        exact ⟨_, rfl, .cons first spelled⟩

theorem exists_foldlM_place (tolerance : Tolerance α) {todo : List (Line α × Nat)}
    (listed : ∀ x ∈ todo, lines[x.2]? = some x.1) {ids : List (Array Nat)} {groups : List (Group α)}
    (h : List.Forall₂ (Spells lines) ids groups) :
    ∃ ids',
      todo.foldlM (fun groups (line, i) => place tolerance lines line i groups) ids = .ok ids' ∧
      List.Forall₂ (Spells lines) ids'
        ((todo.map (·.1)).foldl (fun groups line => Group.place tolerance line groups) groups) := by
  induction todo generalizing ids groups with
  | nil => exact ⟨ids, rfl, h⟩
  | cons x todo ih =>
      obtain ⟨line, i⟩ := x
      rw [List.forall_mem_cons] at listed
      have entry : lines[i]? = some line := listed.1
      obtain ⟨ids', eq, spelled⟩ := exists_place tolerance h entry
      simp only [List.foldlM_cons, eq, ok_bind]
      exact ih listed.2 spelled

theorem Spells.cluster_eq_ok {members : Array Nat} {g : Group α} (h : Spells lines members g) :
    cluster lines members = .ok g.cluster := by
  obtain ⟨i, atZero, founder⟩ := h.founder
  have listed : members.toList.mapM (entry lines) = (.ok g.lines : Except (Halt α) _) :=
    mapM_ok_iff.mpr (h.imp fun _ _ => entry_of_getElem?)
  unfold cluster
  rw [atZero, ok_bind, founder, ok_bind, listed, ok_bind, Group.lines, List.tail_cons,
    List.reverse_reverse]
  rfl

def clusters (tolerance : Tolerance α) (lines : Array (Line α)) :
    Except (Halt α) (List (Cluster α)) := do
  (← groups tolerance lines).mapM (cluster lines)

theorem clusters_eq_ok (tolerance : Tolerance α) (lines : List (Line α)) :
    clusters tolerance lines.toArray = .ok (Cluster.ofLines tolerance lines) := by
  have listed : ∀ x ∈ lines.zipIdx, lines.toArray[x.2]? = some x.1 := fun x mem =>
    (List.getElem?_toArray ..).trans (List.mem_zipIdx_iff_getElem?.mp mem)
  obtain ⟨ids, eq, spelled⟩ := exists_foldlM_place tolerance listed .nil
  rw [List.zipIdx_map_fst] at spelled
  unfold clusters groups
  rw [eq, ok_bind, mapM_ok_iff, Cluster.ofLines, List.forall₂_map_right_iff]
  exact spelled.imp fun _ _ h => h.cluster_eq_ok

end Clusters

section Overlays

variable {s : Series α}

def rescale (xs : List α) : Except (Halt α) (List α) := do
  if xs.isEmpty then
    return []
  let low ← least xs
  let high ← greatest xs
  let span := high - low
  return if span ≤ Scalar.epsilon then xs.map fun _ => 1 else xs.map fun x => (x - low) / span

theorem rescale_eq_ok (xs : List α) : rescale xs = .ok (Trendline.rescale xs) := by
  cases xs with
  | nil => rfl
  | cons x xs =>
      obtain ⟨low, foundLow, lowest⟩ := least_of_ne_nil (List.cons_ne_nil x xs)
      obtain ⟨high, foundHigh, highest⟩ := greatest_of_ne_nil (List.cons_ne_nil x xs)
      unfold rescale Trendline.rescale
      rw [lowest, highest, foundLow, foundHigh]
      rfl

def point (s : Series α) (c : Cluster α) (i : Nat) : Except (Halt α) (Point α) := do
  return ⟨← entry s.times i, c.atBar i⟩

theorem exists_point {i : Nat} (inside : i < s.size) (c : Cluster α) :
    ∃ left, s.point? c i = some left ∧ point s c i = .ok left := by
  have time := Array.getElem?_eq_getElem inside
  refine ⟨⟨s.times[i], c.atBar i⟩, ?_, ?_⟩
  · rw [Series.point?, time]
    rfl
  · rw [point, entry_of_getElem? time]
    rfl

def overlay? (drawing : DrawOptions) (s : Series α) (c : Cluster α) (relative : α) :
    Except (Halt α) (Option (Overlay α)) := do
  match c.firstTouch?.bind s.indexOf?, drawing.rightEdge.index? s c with
  | some start, some stop =>
      let left ← point s c start
      let right ← point s c stop
      return some { c with left, right, relative, role := drawing.rolePolicy.role s c }
  | _, _ => return none

theorem index_lt (wf : s.WellFormed) {time? : Option Int} {i : Nat}
    (found : time?.bind s.indexOf? = some i) : i < s.size := by
  obtain ⟨time, -, index⟩ := Option.bind_eq_some_iff.mp found
  exact (Array.getElem?_eq_some_iff.mp ((Series.indexOf?_eq_some_iff wf.ascending).mp index)).1

theorem rightEdge_lt (wf : s.WellFormed) {edge : RightEdge} {c : Cluster α} {i : Nat}
    (found : edge.index? s c = some i) : i < s.size := by
  have positive := wf.size_pos
  cases edge with
  | lastTouch => exact index_lt wf found
  | chartEdge =>
      rw [RightEdge.index?, if_neg (by omega), Option.some.injEq, Series.lastIndex] at found
      omega

theorem overlay?_eq_ok (wf : s.WellFormed) (drawing : DrawOptions) (c : Cluster α) (relative : α) :
    overlay? drawing s c relative = .ok (Overlay.ofCluster? drawing s c relative) := by
  unfold overlay? Overlay.ofCluster?
  cases start : c.firstTouch?.bind s.indexOf? with
  | none => rfl
  | some i =>
      cases stop : drawing.rightEdge.index? s c with
      | none => rfl
      | some j =>
          obtain ⟨left, leftPoint, leftEq⟩ := exists_point (index_lt wf start) c
          obtain ⟨right, rightPoint, rightEq⟩ := exists_point (rightEdge_lt wf stop) c
          simp only [leftPoint, leftEq, rightPoint, rightEq, ok_bind, Option.bind_eq_bind,
            Option.bind_some]
          rfl

def overlays (drawing : DrawOptions) (s : Series α) (ranked : List (Cluster α)) :
    Except (Halt α) (List (Overlay α)) := do
  let relative ← rescale (ranked.map (·.score))
  (ranked.zip relative).filterMapM fun (c, relative) => overlay? drawing s c relative

theorem overlays_eq_ok (wf : s.WellFormed) (drawing : DrawOptions) (ranked : List (Cluster α)) :
    overlays drawing s ranked = .ok (Overlay.ofClusters drawing s ranked) := by
  unfold overlays
  rw [rescale_eq_ok, ok_bind]
  exact filterMapM_eq_ok fun x _ => overlay?_eq_ok wf drawing x.1 x.2

end Overlays

def linesFor (s : Series α) (p : Params α) (lookback : Nat) :
    Except (Halt α) (List (Line α) × LookbackStats) := do
  let swings ← swings s lookback p.pivots
  let highs ← lines p.pairs lookback swings.highs
  let lows ← lines p.pairs lookback swings.lows
  let candidates := highs ++ lows
  let measured ← candidates.mapM (measure p.touches s)
  let kept := measured.filter (Line.isKept p.minTouches)
  return (kept,
    { lookback
      highPivots := swings.highs.length
      lowPivots := swings.lows.length
      candidates := candidates.length
      kept := kept.length })

def analyze (s : Series α) (p : Params α) : Except (Halt α) (Analysis α) := do
  p.validate.mapError .refused
  validate s
  let found ← p.sortedLookbacks.toList.mapM (linesFor s p)
  let clusters ← clusters p.merging (found.flatMap (·.1)).toArray
  let scored := clusters.map (Cluster.assignScore p.scoring s)
  let ranked := Cluster.select p.scoring.minScore p.topN scored
  let overlays ← overlays p.drawing s ranked
  return {
    symbol := s.symbol
    clusters := ranked
    overlays
    stats := ⟨s.size, found.map (·.2), scored.length⟩ }

variable [LawfulScalar α] {s : Series α} {p : Params α}

theorem linesFor_eq_ok (wf : s.WellFormed) (short : s.size < wordCount) {lookback : Nat}
    (positive : 0 < lookback) (narrow : lookback < wordCount) :
    linesFor s p lookback = .ok (s.keptLines p lookback, s.lookbackStats p lookback) := by
  have swings : swings s lookback p.pivots
      = .ok ⟨s.swingsOn lookback p.pivots .high, s.swingsOn lookback p.pivots .low⟩ := by
    rw [swings_eq wf short narrow, Series.swings_eq_ok positive]
    rfl
  unfold linesFor
  rw [swings, ok_bind, lines_eq_ok, ok_bind, lines_eq_ok, ok_bind]
  dsimp only
  rw [mapM_eq_ok fun line _ => measure_eq_ok wf p.touches line]
  rfl

/-- No trap is reached, and the outcome is that of the plain analysis. -/
theorem analyze_eq (short : s.size < wordCount) (narrow : ∀ l ∈ p.lookbacks, l < wordCount) :
    analyze s p = (s.analyze p).mapError .refused := by
  unfold analyze
  rw [validate_eq short]
  cases params : p.validate with
  | error e =>
      rw [Series.analyze_of_params_error params]
      rfl
  | ok =>
      cases series : s.validate with
      | error e =>
          rw [Series.analyze_of_series_error params series]
          rfl
      | ok =>
          have hs := Series.validate_eq_ok_iff.mp series
          have hp := Params.validate_eq_ok_iff.mp params
          have found : p.sortedLookbacks.toList.mapM (linesFor s p)
              = .ok (p.sortedLookbacks.toList.map fun l =>
                (s.keptLines p l, s.lookbackStats p l)) := by
            apply mapM_eq_ok
            intro l mem
            have asked : l ∈ p.lookbacks := Ascending.mem_ofList.mp mem
            exact linesFor_eq_ok hs short (hp.lookback_pos l asked) (narrow l asked)
          rw [Series.analyze_eq_ok hs hp, found]
          simp only [Except.mapError, ok_bind, pure_eq_ok, clusters_eq_ok, overlays_eq_ok hs,
            List.flatMap_map, List.map_map]
          rfl

end Checked

/-- Whatever an analysis is given, as long as words can count its bars, it reaches no trap. It fails
only where a check refuses the parameters or, after that, the series; a window without neighbours is
never what it fails on. -/
theorem analyze_fails_only_by_validation {s : Series Float} {p : Params Float}
    (short : s.size < wordCount) (narrow : ∀ l ∈ p.lookbacks, l < wordCount) :
    Checked.analyze s p = (s.analyze p).mapError .refused ∧
      (∀ trap, Checked.analyze s p ≠ .error (.trapped trap)) ∧
      (∀ e, p.validate = .error e → s.analyze p = .error e) ∧
      (∀ e, p.validate = .ok () → s.validate = .error e → s.analyze p = .error e) ∧
      (p.validate = .ok () → s.validate = .ok () → ∃ a, s.analyze p = .ok a) ∧
      s.analyze p ≠ .error (.param .emptyWindow) := by
  have same := Checked.analyze_eq short narrow
  have byParams (e) (refused : p.validate = .error e) : s.analyze p = .error e := by
    rw [Series.analyze, refused]
    rfl
  have bySeries (e) (inRange : p.validate = .ok ()) (refused : s.validate = .error e) :
      s.analyze p = .error e := by
    rw [Series.analyze, inRange, refused]
    rfl
  have otherwise (inRange : p.validate = .ok ()) (valid : s.validate = .ok ()) :
      ∃ a, s.analyze p = .ok a :=
    ⟨_, Series.analyze_eq_ok (Series.validate_eq_ok_iff.mp valid)
      (Params.validate_eq_ok_iff.mp inRange)⟩
  refine ⟨same, ?_, byParams, bySeries, otherwise, ?_⟩
  · intro trap trapped
    rw [same] at trapped
    obtain ⟨e, -, wrong⟩ := mapError_eq_error_iff.mp trapped
    cases wrong
  · intro failed
    cases params : p.validate with
    | error e =>
        rw [byParams e params] at failed
        cases failed
        obtain ⟨fault, found, eq⟩ := Params.validate_eq_error_iff.mp params
        cases eq
        exact Params.fault?_ne_emptyWindow p found
    | ok =>
        cases series : s.validate with
        | error e =>
            rw [bySeries e params series] at failed
            cases failed
            obtain ⟨fault, -, wrong⟩ := Series.validate_eq_error_iff.mp series
            cases wrong
        | ok =>
            obtain ⟨a, ok⟩ := otherwise params series
            cases ok.symm.trans failed

/-- Windows as wide as a word asks for find nothing and reach no trap either. -/
theorem analyze_fails_only_by_validation_wide :
    (zigzag.size < wordCount ∧ ∀ l ∈ [wordCount - 1, 1], l < wordCount) ∧
    let p := { zigzagParams with lookbacks := [wordCount - 1, 1] }
    Checked.analyze zigzag p = (zigzag.analyze p).mapError .refused ∧
      (∀ trap, Checked.analyze zigzag p ≠ .error (.trapped trap)) ∧
      (∀ e, p.validate = .error e → zigzag.analyze p = .error e) ∧
      (∀ e, p.validate = .ok () → zigzag.validate = .error e → zigzag.analyze p = .error e) ∧
      (p.validate = .ok () → zigzag.validate = .ok () → ∃ a, zigzag.analyze p = .ok a) ∧
      zigzag.analyze p ≠ .error (.param .emptyWindow) :=
  ⟨by decide, analyze_fails_only_by_validation (by decide) (by decide)⟩

end Trendline
