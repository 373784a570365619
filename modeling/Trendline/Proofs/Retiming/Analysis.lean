import Trendline.Proofs.Analysis.Scores
import Trendline.Proofs.Retiming.Lines

/-!
What an analysis may depend on: the closes, the extremes unless nothing reads them, and the order of
the times. Other times for the bars are found again in what is returned, and change nothing else.
-/

namespace Trendline

variable {α : Type}

def Group.retime (f : Int → Int) (g : Group α) : Group α where
  founder := g.founder.retime f
  joined := g.joined.map (Line.retime f)

def Cluster.retime (f : Int → Int) (c : Cluster α) : Cluster α :=
  { c with touches := c.touches.image f }

def Point.retime (f : Int → Int) (point : Point α) : Point α :=
  { point with time := f point.time }

def Overlay.retime (f : Int → Int) (o : Overlay α) : Overlay α :=
  { o with left := o.left.retime f, right := o.right.retime f, touches := o.touches.image f }

/-- The analysis with other times for the bars, and another symbol. -/
def Analysis.retime (f : Int → Int) (symbol : String) (a : Analysis α) : Analysis α :=
  { a with
    symbol
    clusters := a.clusters.map (Cluster.retime f)
    overlays := a.overlays.map (Overlay.retime f) }

variable [Scalar α]

namespace Group

variable (f : Int → Int) {tolerance : Tolerance α}

omit [Scalar α] in
theorem lines_retime (g : Group α) : (g.retime f).lines = g.lines.map (Line.retime f) := by
  simp only [lines, retime, List.map_cons, List.map_reverse]

theorem place_retime (line : Line α) (groups : List (Group α)) :
    place tolerance (line.retime f) (groups.map (retime f))
      = (place tolerance line groups).map (retime f) := by
  induction groups with
  | nil => rfl
  | cons g rest ih =>
      have judged : tolerance.admits (g.retime f).founder (line.retime f)
          = tolerance.admits g.founder line := rfl
      simp only [List.map_cons, place, judged]
      by_cases admitted : tolerance.admits g.founder line = true
      · rw [if_pos admitted, if_pos admitted]
        rfl
      · rw [if_neg admitted, if_neg admitted, List.map_cons, ih]

theorem ofLines_retime (lines : List (Line α)) :
    ofLines tolerance (lines.map (Line.retime f)) = (ofLines tolerance lines).map (retime f) := by
  induction lines using List.reverseRecOn with
  | nil => rfl
  | append_singleton lines line ih =>
      rw [List.map_append, List.map_singleton, ofLines_concat, ih, ofLines_concat, place_retime]

theorem cluster_retime (g : Group α) : (g.retime f).cluster = g.cluster.retime f := by
  have mean (quantity : Line α → α) (same : ∀ line, quantity (line.retime f) = quantity line) :
      (g.retime f).meanOf quantity = g.meanOf quantity := by
    simp only [meanOf, lines_retime, List.map_map, List.length_map, Function.comp_def, same]
  have touches : (g.retime f).cluster.touches = g.cluster.touches.image f := by
    apply Ascending.ext_mem
    intro t
    simp only [mem_cluster_touches, Ascending.mem_image, lines_retime, List.mem_map]
    constructor
    · rintro ⟨_, ⟨line, listed, rfl⟩, touched⟩
      obtain ⟨u, mem, eq⟩ := Ascending.mem_image.mp touched
      exact ⟨u, ⟨line, listed, mem⟩, eq⟩
    · rintro ⟨u, ⟨line, listed, mem⟩, eq⟩
      exact ⟨_, ⟨line, listed, rfl⟩, Ascending.mem_image.mpr ⟨u, mem, eq⟩⟩
  have start : (g.retime f).cluster.start = g.cluster.start := by
    simp only [cluster, lines_retime, List.foldl_map]
    rfl
  have violations : (g.retime f).cluster.violations = g.cluster.violations := by
    simp only [cluster, lines_retime, List.map_map]
    rfl
  have lookbacks : (g.retime f).cluster.lookbacks = g.cluster.lookbacks := by
    simp only [cluster, lines_retime, List.map_map]
    rfl
  have members : (g.retime f).cluster.members = g.cluster.members := by
    simp only [cluster, lines_retime, List.length_map]
  have rSquared := mean (·.rSquared) fun _ => rfl
  have invalid : (g.retime f).cluster.invalid = g.cluster.invalid := by
    simp only [cluster, rSquared]
  have fit : (g.retime f).cluster.toFit = g.cluster.toFit := by
    simp only [cluster, rSquared, mean (·.slope) fun _ => rfl, mean (·.intercept) fun _ => rfl]
  rw [Cluster.retime, ← touches, ← fit, ← violations, ← lookbacks, ← members, ← start, ← invalid]
  rfl

end Group

namespace Series.Retimed

variable {f : Int → Int} {p : Params α} {s s' : Series α} {c : Cluster α}

section Order

variable (hs : s.WellFormed) (hs' : s'.WellFormed)
include hs hs'

theorem allLines_eq (h : Retimed f p s s') :
    s'.allLines p = (s.allLines p).map (Line.retime f) := by
  unfold allLines
  rw [List.map_flatMap]
  congr 1
  funext lookback
  exact h.keptLines_eq hs hs' lookback

section Touches

variable (mem : ∀ t ∈ c.touches, t ∈ s.times)
include mem

theorem touches_mono (h : Retimed f p s s') : ∀ t ∈ c.touches, ∀ u ∈ c.touches, t < u → f t < f u :=
  fun t ht u hu => h.mono hs hs' t (mem t ht) u (mem u hu)

theorem touchCount_eq (h : Retimed f p s s') : (c.retime f).touchCount = c.touchCount :=
  Ascending.size_image (h.touches_mono hs hs' mem)

theorem firstTouch_eq (h : Retimed f p s s') :
    (c.retime f).firstTouch?.bind s'.indexOf? = c.firstTouch?.bind s.indexOf? := by
  have first : (c.retime f).firstTouch? = c.firstTouch?.map f :=
    Ascending.least?_image (h.touches_mono hs hs' mem)
  rw [first, Option.bind_map]
  apply Option.bind_congr
  intro t found
  exact h.indexOf?_eq hs hs' (mem t (Ascending.least?_eq_some_iff.mp found).1)

theorem lastTouch_eq (h : Retimed f p s s') :
    (c.retime f).lastTouch?.bind s'.indexOf? = c.lastTouch?.bind s.indexOf? := by
  have last : (c.retime f).lastTouch? = c.lastTouch?.map f :=
    Ascending.greatest?_image (h.touches_mono hs hs' mem)
  rw [last, Option.bind_map]
  apply Option.bind_congr
  intro t found
  exact h.indexOf?_eq hs hs' (mem t (Ascending.greatest?_eq_some_iff.mp found).1)

end Touches

omit [Scalar α] hs hs' in
theorem lastIndex_eq (h : Retimed f p s s') : s'.lastIndex = s.lastIndex := by
  rw [lastIndex, h.size_eq, lastIndex]

omit [Scalar α] hs hs' in
theorem lastClose?_eq (h : Retimed f p s s') : s'.lastClose? = s.lastClose? := by
  rw [lastClose?, h.closings, lastClose?]

/-! Scores -/

theorem assignScore_eq (h : Retimed f p s s') (mem : ∀ t ∈ c.touches, t ∈ s.times) :
    (c.retime f).assignScore p.scoring s' = (c.assignScore p.scoring s).retime f := by
  have evidence : Cluster.SameEvidence s s' c (c.retime f) :=
    { rSquared := rfl
      invalid := rfl
      touchCount := h.touchCount_eq hs hs' mem
      recency := by
        rw [Scoring.recency, h.lastTouch_eq hs hs' mem, h.lastIndex_eq, Scoring.recency]
      violationRatio := by
        rw [Scoring.violationRatio, h.size_eq]
        rfl
      distance := by
        rw [Scoring.distance, h.lastClose?_eq, h.lastIndex_eq]
        rfl }
  unfold Cluster.assignScore
  rw [evidence.score_eq, evidence.isInvalid_eq]
  rfl

theorem foundClusters_eq (h : Retimed f p s s') :
    s'.foundClusters p = (s.foundClusters p).map (Cluster.retime f) := by
  unfold foundClusters Cluster.ofLines
  rw [h.allLines_eq hs hs', Group.ofLines_retime]
  simp only [List.map_map]
  apply List.map_congr_left
  intro g listed
  have found : g.cluster.assignScore p.scoring s ∈ s.foundClusters p :=
    List.mem_map_of_mem (List.mem_map_of_mem listed)
  have mem : ∀ t ∈ g.cluster.touches, t ∈ s.times :=
    (wellFormed_of_mem_foundClusters found).touches_mem
  simp only [Function.comp_apply, Group.cluster_retime, h.assignScore_eq hs hs' mem]

theorem select_eq (h : Retimed f p s s') {clusters : List (Cluster α)}
    (mem : ∀ c ∈ clusters, ∀ t ∈ c.touches, t ∈ s.times) (minScore : Option α)
    (topN : Option Nat) :
    Cluster.select minScore topN (clusters.map (Cluster.retime f))
      = (Cluster.select minScore topN clusters).map (Cluster.retime f) := by
  have admitted : (clusters.map (Cluster.retime f)).filter (fun c => minScore.all (· ≤ c.score))
      = (clusters.filter fun c => minScore.all (· ≤ c.score)).map (Cluster.retime f) := by
    rw [List.filter_map]
    rfl
  have ranked := List.map_mergeSort (f := Cluster.retime f)
    (l := clusters.filter fun c => minScore.all (· ≤ c.score))
    (r := fun a b => a.rankOrder b ≠ .gt) (s := fun a b => a.rankOrder b ≠ .gt) (by
      intro a ha b hb
      have left := h.touchCount_eq hs hs' (mem a (List.mem_of_mem_filter ha))
      have right := h.touchCount_eq hs hs' (mem b (List.mem_of_mem_filter hb))
      simp only [Cluster.rankOrder, left, right]
      rfl)
  unfold Cluster.select
  dsimp only
  rw [admitted, ← ranked]
  cases topN with
  | none => rfl
  | some n => exact List.map_take.symm

/-! Overlays -/

omit hs hs' in
theorem point?_eq (h : Retimed f p s s') (c : Cluster α) (i : Nat) :
    s'.point? (c.retime f) i = (s.point? c i).map (Point.retime f) := by
  unfold point?
  rw [h.time?_eq, Option.map_map, Option.map_map]
  rfl

theorem ofCluster?_eq (h : Retimed f p s s') (mem : ∀ t ∈ c.touches, t ∈ s.times) (relative : α) :
    Overlay.ofCluster? p.drawing s' (c.retime f) relative
      = (Overlay.ofCluster? p.drawing s c relative).map (Overlay.retime f) := by
  have stop : p.drawing.rightEdge.index? s' (c.retime f) = p.drawing.rightEdge.index? s c := by
    unfold RightEdge.index?
    rw [h.lastTouch_eq hs hs' mem, h.size_eq, h.lastIndex_eq]
  have role : p.drawing.rolePolicy.role s' (c.retime f) = p.drawing.rolePolicy.role s c := by
    unfold RolePolicy.role
    rw [h.lastClose?_eq, h.lastIndex_eq]
    rfl
  unfold Overlay.ofCluster?
  rw [h.firstTouch_eq hs hs' mem, stop, role]
  simp only [h.point?_eq, Option.bind_eq_bind, Option.bind_map, Option.map_bind, Option.pure_def,
    Function.comp_def, Option.map_some]
  rfl

theorem ofClusters_eq (h : Retimed f p s s') {ranked : List (Cluster α)}
    (mem : ∀ c ∈ ranked, ∀ t ∈ c.touches, t ∈ s.times) :
    Overlay.ofClusters p.drawing s' (ranked.map (Cluster.retime f))
      = (Overlay.ofClusters p.drawing s ranked).map (Overlay.retime f) := by
  have scores : (ranked.map (Cluster.retime f)).map (·.score) = ranked.map (·.score) := by
    rw [List.map_map]
    rfl
  unfold Overlay.ofClusters
  rw [scores, List.zip_map_left, List.filterMap_map, List.map_filterMap]
  apply List.filterMap_congr
  intro ⟨c, relative⟩ listed
  exact h.ofCluster?_eq hs hs' (mem c (List.of_mem_zip listed).1) relative

end Order

end Series.Retimed

/-- Two series with the same closes and extremes, or with the same closes if nothing else is read,
have the same analysis but for the symbol and the times of touches and ends, which go from the bars
of one to those of the other. As the times of both ascend, `f` does so on the bars. -/
theorem analyze_retimed {s s' : Series α} {p : Params α} {f : Int → Int}
    (valid : s.validate = .ok ()) (valid' : s'.validate = .ok ()) (inRange : p.validate = .ok ())
    (times : s'.times = s.times.map f) (closings : s'.closings = s.closings)
    (extremes : s'.highs = s.highs ∧ s'.lows = s.lows ∨ p.ReadsCloses) :
    ∃ a, s.analyze p = .ok a ∧ s'.analyze p = .ok (a.retime f s'.symbol) := by
  have hs := Series.validate_eq_ok_iff.mp valid
  have hs' := Series.validate_eq_ok_iff.mp valid'
  have hp := Params.validate_eq_ok_iff.mp inRange
  have h : Series.Retimed f p s s' := ⟨times, closings, extremes⟩
  have found : ∀ c ∈ s.foundClusters p, ∀ t ∈ c.touches, t ∈ s.times :=
    fun c listed => (Series.wellFormed_of_mem_foundClusters listed).touches_mem
  have clusters := h.select_eq hs hs' found p.scoring.minScore p.topN
  have overlays := h.ofClusters_eq hs hs'
    fun c (listed : c ∈ Cluster.select p.scoring.minScore p.topN (s.foundClusters p)) =>
      found c (Cluster.mem_of_mem_select listed)
  have stats : s'.lookbackStats p = s.lookbackStats p := by
    funext lookback
    unfold Series.lookbackStats
    simp only [h.swingsOn_eq, h.drawnLines_eq hs hs', h.keptLines_eq hs hs', List.length_map]
  refine ⟨_, Series.analyze_eq_ok hs hp, ?_⟩
  rw [Series.analyze_eq_ok hs' hp, h.foundClusters_eq hs hs', clusters, overlays, stats, h.size_eq,
    List.length_map]
  rfl

/-- A rising zigzag at times that drift apart, with other openings and volumes. -/
def risingSlower : Series Float :=
  { rising with
    symbol := "slower"
    interval := 0
    times := rising.times.map fun t => t * t + 7
    openings := zigzagPrices
    volumes := zigzagPrices }

/-- The lines along the extremes of a rising zigzag do not depend on when its bars are, and those
along its closes do not depend on its extremes either. -/
theorem analyze_retimed_rising :
    (∃ a, rising.analyze risingParams = .ok a ∧
      risingSlower.analyze risingParams = .ok (a.retime (fun t => t * t + 7) "slower")) ∧
    ∃ a, rising.analyze { zigzagParams with pivots := ⟨.close, 0⟩ } = .ok a ∧
      { risingSlower with highs := zigzagPrices, lows := zigzagPrices }.analyze
          { zigzagParams with pivots := ⟨.close, 0⟩ }
        = .ok (a.retime (fun t => t * t + 7) "slower") :=
  ⟨analyze_retimed (by decide +kernel) (by decide +kernel) (by decide +kernel) rfl rfl
      (.inl ⟨rfl, rfl⟩),
    analyze_retimed (by decide +kernel) (by decide +kernel) (by decide +kernel) rfl rfl
      (.inr ⟨rfl, rfl, by decide⟩)⟩

end Trendline
