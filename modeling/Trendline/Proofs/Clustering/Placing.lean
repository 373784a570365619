import Trendline.Proofs.Clustering.FirstFit

/-!
The loop over the lines does first fit. Its invariant says for every group where its founder stood,
and for every line so far which group it went to; every cluster then stands for the lines that were
sent to its group, and nothing of a line is lost on the way but counts that no word holds.
-/

namespace Trendline

variable {α : Type} [Scalar α]

namespace Group

theorem represents_cluster (g : Group α) : g.cluster.Represents g.founder g.lines where
  side_eq := rfl
  lookback_eq := rfl
  members_eq := rfl
  mem_touches _ := mem_cluster_touches
  mem_lookbacks _ := mem_cluster_lookbacks
  violations_eq := by
    rw [List.sum_eq_foldl_nat]
    rfl
  start_le _ := cluster_start_le
  exists_start := g.exists_cluster_start
  slope_eq := rfl
  intercept_eq := rfl
  rSquared_eq := rfl

variable {tolerance : Tolerance α} {line : Line α} {lines : List (Line α)}
  {groups : List (Group α)} {founder home : Nat → Nat}

/-- A line joins the first group whose founder it is near to, or founds one. -/
theorem place_cases (tolerance : Tolerance α) (line : Line α) (groups : List (Group α)) :
    (∃ k g, groups[k]? = some g ∧ tolerance.Near g.founder line ∧
      (∀ j h, j < k → groups[j]? = some h → ¬ tolerance.Near h.founder line) ∧
      place tolerance line groups = groups.set k { g with joined := line :: g.joined }) ∨
    (∀ g ∈ groups, ¬ tolerance.Near g.founder line) ∧
      place tolerance line groups = groups ++ [⟨line, []⟩] := by
  induction groups with
  | nil => exact .inr ⟨by simp, rfl⟩
  | cons g rest ih =>
      unfold place
      by_cases near : tolerance.Near g.founder line
      · refine .inl ⟨0, g, rfl, near, fun j _ less => (Nat.not_lt_zero j less).elim, ?_⟩
        rw [if_pos (Tolerance.admits_iff.mpr near), List.set_cons_zero]
      · rw [if_neg (mt Tolerance.admits_iff.mp near)]
        rcases ih with ⟨k, h, entry, joins, before, eq⟩ | ⟨none, eq⟩
        · refine .inl ⟨k + 1, h, entry, joins, ?_, by rw [eq, List.set_cons_succ]⟩
          intro j h' less found
          cases j with
          | zero => exact Option.some.inj found ▸ near
          | succ j => exact before j h' (Nat.lt_of_succ_lt_succ less) found
        · exact .inr ⟨List.forall_mem_cons.mpr ⟨near, none⟩, by rw [eq, List.cons_append]⟩

/-- The lines in the positions that are sent to group `k`. -/
def sentTo (lines : List (Line α)) (home : Nat → Nat) (k : Nat) : List (Line α) :=
  ((List.range lines.length).filter (home · = k)).filterMap (lines[·]?)

omit [Scalar α] in
theorem sentTo_concat (lines : List (Line α)) (line : Line α) (home : Nat → Nat) (last k : Nat) :
    sentTo (lines ++ [line]) (Function.update home lines.length last) k
      = sentTo lines home k ++ if last = k then [line] else [] := by
  have old : ∀ i ∈ List.range lines.length,
      decide (Function.update home lines.length last i = k) = decide (home i = k) := by
    intro i mem
    rw [Function.update_of_ne (Nat.ne_of_lt (List.mem_range.mp mem))]
  have entries : ∀ i ∈ (List.range lines.length).filter (home · = k),
      (lines ++ [line])[i]? = lines[i]? := fun i mem =>
    List.getElem?_append_left (List.mem_range.mp (List.mem_of_mem_filter mem))
  rw [sentTo, List.length_append, List.length_singleton, List.range_succ, List.filter_append,
    List.filterMap_append, List.filter_congr old, List.filterMap_congr entries, sentTo]
  congr 1
  by_cases eq : last = k <;> simp [eq]

end Group

section Invariant

variable {tolerance : Tolerance α} {line : Line α} {lines founders : List (Line α)}
  {founder home : Nat → Nat}

theorem getElem?_concat_iff {β : Type} {xs : List β} {x y : β} {i : Nat} :
    (xs ++ [x])[i]? = some y ↔ xs[i]? = some y ∨ i = xs.length ∧ x = y := by
  rw [List.getElem?_append]
  split
  case isTrue inside => simp [Nat.ne_of_lt inside]
  case isFalse outside =>
    rw [List.getElem?_eq_none (Nat.not_lt.mp outside), List.getElem?_singleton]
    simp [show i - xs.length = 0 ↔ i = xs.length by omega]

theorem lt_length_concat_iff {β : Type} {xs : List β} {x : β} {i : Nat} :
    i < (xs ++ [x]).length ↔ i < xs.length ∨ i = xs.length := by
  rw [List.length_append, List.length_singleton]
  exact Nat.lt_succ_iff_lt_or_eq

/-- The invariant of the loop over the lines, of which some have founded a group so far. -/
structure Placed (tolerance : Tolerance α) (lines founders : List (Line α))
    (founder home : Nat → Nat) : Prop where
  home_lt : ∀ i < lines.length, home i < founders.length
  founder_eq : ∀ k f, founders[k]? = some f → lines[founder k]? = some f
  founder_lt : ∀ j k, j < k → k < founders.length → founder j < founder k
  home_founder : ∀ k < founders.length, home (founder k) = k
  joined : ∀ i line, lines[i]? = some line → founder (home i) ≠ i →
    founder (home i) < i ∧ ∃ f, founders[home i]? = some f ∧ tolerance.Near f line
  first : ∀ i line, lines[i]? = some line → ∀ k f, k < home i → founders[k]? = some f →
    ¬ tolerance.Near f line

namespace Placed

theorem founder_lt_length (h : Placed tolerance lines founders founder home) {k : Nat}
    (inside : k < founders.length) : founder k < lines.length :=
  (List.getElem?_eq_some_iff.mp (h.founder_eq k _ (List.getElem?_eq_getElem inside))).1

theorem join (h : Placed tolerance lines founders founder home) {k : Nat} {f : Line α}
    (entry : founders[k]? = some f) (near : tolerance.Near f line)
    (before : ∀ j f, j < k → founders[j]? = some f → ¬ tolerance.Near f line) :
    Placed tolerance (lines ++ [line]) founders founder (Function.update home lines.length k) := by
  obtain ⟨inside, -⟩ := List.getElem?_eq_some_iff.mp entry
  have old {i : Nat} (less : i < lines.length) :
      Function.update home lines.length k i = home i := Function.update_of_ne (Nat.ne_of_lt less) ..
  have last : Function.update home lines.length k lines.length = k := Function.update_self ..
  constructor
  case home_lt =>
    intro i less
    rcases lt_length_concat_iff.mp less with less | rfl
    · rw [old less]
      exact h.home_lt i less
    · rwa [last]
  case founder_eq =>
    intro j f found
    exact getElem?_concat_iff.mpr (.inl (h.founder_eq j f found))
  case founder_lt => exact h.founder_lt
  case home_founder =>
    intro j less
    rw [old (h.founder_lt_length less)]
    exact h.home_founder j less
  case joined =>
    intro i other found
    rcases getElem?_concat_iff.mp found with found | ⟨rfl, rfl⟩
    · rw [old (List.getElem?_eq_some_iff.mp found).1]
      exact h.joined i other found
    · rw [last]
      exact fun _ => ⟨h.founder_lt_length inside, f, entry, near⟩
  case first =>
    intro i other found
    rcases getElem?_concat_iff.mp found with found | ⟨rfl, rfl⟩
    · rw [old (List.getElem?_eq_some_iff.mp found).1]
      exact h.first i other found
    · rw [last]
      exact before

theorem found (h : Placed tolerance lines founders founder home)
    (none : ∀ f ∈ founders, ¬ tolerance.Near f line) :
    Placed tolerance (lines ++ [line]) (founders ++ [line])
      (Function.update founder founders.length lines.length)
      (Function.update home lines.length founders.length) := by
  have oldHome {i : Nat} (less : i < lines.length) :
      Function.update home lines.length founders.length i = home i :=
    Function.update_of_ne (Nat.ne_of_lt less) ..
  have oldFounder {k : Nat} (less : k < founders.length) :
      Function.update founder founders.length lines.length k = founder k :=
    Function.update_of_ne (Nat.ne_of_lt less) ..
  have lastHome : Function.update home lines.length founders.length lines.length
      = founders.length := Function.update_self ..
  have lastFounder : Function.update founder founders.length lines.length founders.length
      = lines.length := Function.update_self ..
  constructor
  case home_lt =>
    intro i less
    rw [lt_length_concat_iff]
    rcases lt_length_concat_iff.mp less with less | rfl
    · rw [oldHome less]
      exact .inl (h.home_lt i less)
    · exact .inr lastHome
  case founder_eq =>
    intro k f entry
    rw [getElem?_concat_iff]
    rcases getElem?_concat_iff.mp entry with entry | ⟨rfl, rfl⟩
    · rw [oldFounder (List.getElem?_eq_some_iff.mp entry).1]
      exact .inl (h.founder_eq k f entry)
    · exact .inr ⟨lastFounder, rfl⟩
  case founder_lt =>
    intro j k less inside
    rcases lt_length_concat_iff.mp inside with inside | rfl
    · rw [oldFounder inside, oldFounder (less.trans inside)]
      exact h.founder_lt j k less inside
    · rw [lastFounder, oldFounder less]
      exact h.founder_lt_length less
  case home_founder =>
    intro k inside
    rcases lt_length_concat_iff.mp inside with inside | rfl
    · rw [oldFounder inside, oldHome (h.founder_lt_length inside)]
      exact h.home_founder k inside
    · rw [lastFounder, lastHome]
  case joined =>
    intro i other entry
    rcases getElem?_concat_iff.mp entry with entry | ⟨rfl, rfl⟩
    · have inside := (List.getElem?_eq_some_iff.mp entry).1
      rw [oldHome inside, oldFounder (h.home_lt i inside)]
      intro joined
      obtain ⟨before, f, founded, near⟩ := h.joined i other entry joined
      exact ⟨before, f, getElem?_concat_iff.mpr (.inl founded), near⟩
    · rw [lastHome, lastFounder]
      exact fun joined => (joined rfl).elim
  case first =>
    intro i other entry k f less founded
    rcases getElem?_concat_iff.mp entry with entry | ⟨rfl, rfl⟩
    · have inside := (List.getElem?_eq_some_iff.mp entry).1
      rw [oldHome inside] at less
      rw [List.getElem?_append_left (less.trans (h.home_lt i inside))] at founded
      exact h.first i other entry k f less founded
    · rw [lastHome] at less
      rw [List.getElem?_append_left less] at founded
      exact none f (List.mem_of_getElem? founded)

theorem get_founder (h : Placed tolerance lines founders founder home) {k : Nat} {f : Line α}
    (entry : founders[k]? = some f) (inside : founder k < lines.length) :
    lines.get ⟨founder k, inside⟩ = f :=
  (List.getElem?_eq_some_iff.mp (h.founder_eq k f entry)).2

/-- The same in positions that are within their lists. -/
theorem firstFit {m : Nat} (h : Placed tolerance lines founders founder home)
    (count : founders.length = m) :
    FirstFit tolerance lines
      (fun k : Fin m => ⟨founder k, h.founder_lt_length (count ▸ k.isLt)⟩)
      (fun i => ⟨home i, count ▸ h.home_lt i i.isLt⟩) := by
  subst count
  constructor
  case founder_lt => exact fun j k less => h.founder_lt j k less k.isLt
  case home_founder => exact fun k => Fin.ext (h.home_founder k k.isLt)
  case joined =>
    intro i other
    obtain ⟨before, f, entry, near⟩ := h.joined i lines[i] (List.getElem?_eq_getElem i.isLt)
      fun eq => other (Fin.ext eq)
    rw [← h.get_founder entry (before.trans i.isLt)] at near
    exact ⟨before, near⟩
  case first =>
    intro i k less
    have entry : founders[(k : Nat)]? = some founders[k] := List.getElem?_eq_getElem k.isLt
    have apart := h.first i lines[i] (List.getElem?_eq_getElem i.isLt) k _ less entry
    rwa [← h.get_founder entry (h.founder_lt_length k.isLt)] at apart

end Placed

namespace Group

omit [Scalar α] in
theorem lines_set {groups : List (Group α)} {k : Nat} {g : Group α} (entry : groups[k]? = some g)
    (line : Line α) {j : Nat} {h : Group α}
    (found : (groups.set k { g with joined := line :: g.joined })[j]? = some h) :
    ∃ old, groups[j]? = some old ∧ h.lines = old.lines ++ if k = j then [line] else [] := by
  rw [List.getElem?_set] at found
  by_cases eq : k = j
  · subst eq
    rw [if_pos rfl, if_pos (List.getElem?_eq_some_iff.mp entry).1, Option.some.injEq] at found
    subst found
    exact ⟨g, entry, by rw [lines_push, if_pos rfl]⟩
  · rw [if_neg eq] at found
    exact ⟨h, found, by rw [if_neg eq, List.append_nil]⟩

omit [Scalar α] in
theorem founders_set {groups : List (Group α)} {k : Nat} {g : Group α}
    (entry : groups[k]? = some g) (joined : List (Line α)) :
    (groups.set k { g with joined }).map Group.founder = groups.map Group.founder := by
  apply List.ext_getElem?
  intro j
  rw [List.getElem?_map, List.getElem?_map, List.getElem?_set]
  by_cases eq : k = j
  · subst eq
    rw [if_pos rfl, if_pos (List.getElem?_eq_some_iff.mp entry).1, entry]
    rfl
  · rw [if_neg eq]

omit [Scalar α] in
theorem sentTo_eq_nil {k : Nat} (nowhere : ∀ i < lines.length, home i < k) :
    sentTo lines home k = [] := by
  rw [sentTo, List.filter_eq_nil_iff.mpr, List.filterMap_nil]
  intro i mem
  simp [Nat.ne_of_lt (nowhere i (List.mem_range.mp mem))]

/-- The loop keeps the invariant, and every group has the lines that were sent to it. -/
theorem exists_placed (tolerance : Tolerance α) (lines : List (Line α)) :
    ∃ founder home,
      Placed tolerance lines ((ofLines tolerance lines).map Group.founder) founder home ∧
      ∀ k g, (ofLines tolerance lines)[k]? = some g → g.lines = sentTo lines home k := by
  induction lines using List.reverseRecOn with
  | nil =>
      refine ⟨id, id, ⟨?_, ?_, ?_, ?_, ?_, ?_⟩, ?_⟩
      all_goals simp [ofLines]
  | append_singleton lines line ih =>
      obtain ⟨founder, home, placed, sent⟩ := ih
      rw [ofLines_concat]
      generalize ofLines tolerance lines = groups at placed sent ⊢
      rcases place_cases tolerance line groups with ⟨k, g, entry, near, before, eq⟩ | ⟨none, eq⟩
      · rw [eq, founders_set entry]
        have founded : (groups.map Group.founder)[k]? = some g.founder := by
          rw [List.getElem?_map, entry]
          rfl
        refine ⟨founder, _, placed.join founded near ?_, ?_⟩
        · intro j f less found
          rw [List.getElem?_map, Option.map_eq_some_iff] at found
          obtain ⟨h, found, rfl⟩ := found
          exact before j h less found
        · intro j h found
          obtain ⟨old, found, listed⟩ := lines_set entry line found
          rw [listed, sent j old found, sentTo_concat]
      · rw [eq, List.map_append]
        refine ⟨_, _, placed.found (List.forall_mem_map.mpr none), ?_⟩
        intro k g found
        rw [sentTo_concat, List.length_map]
        rcases getElem?_concat_iff.mp found with found | ⟨rfl, rfl⟩
        · have inside := (List.getElem?_eq_some_iff.mp found).1
          rw [if_neg (Nat.ne_of_gt inside), List.append_nil, sent k g found]
        · have nowhere : sentTo lines home groups.length = [] :=
            sentTo_eq_nil fun i less => List.length_map Group.founder ▸ placed.home_lt i less
          rw [if_pos rfl, nowhere]
          rfl

end Group

omit [Scalar α] in
theorem membersOf_eq {m : Nat} {home : Nat → Nat} (lt : ∀ i : Fin lines.length, home i < m)
    (k : Fin m) : membersOf lines (fun i => ⟨home i, lt i⟩) k = Group.sentTo lines home k := by
  have test (i : Fin lines.length) :
      decide ((⟨home i, lt i⟩ : Fin m) = k) = decide (home i = k) :=
    decide_eq_decide.mpr Fin.ext_iff
  have entry (i : Fin lines.length) : lines[(i : Nat)]? = some (lines.get i) :=
    List.getElem?_eq_getElem i.isLt
  rw [Group.sentTo, ← List.map_coe_finRange_eq_range, List.filter_map, List.filterMap_map,
    membersOf]
  simp only [Function.comp_def, test, entry, List.filterMap_eq_map']

theorem Cluster.partitions_ofLines (tolerance : Tolerance α) (lines : List (Line α)) :
    Partitions tolerance lines (ofLines tolerance lines) := by
  obtain ⟨founder, home, placed, sent⟩ := Group.exists_placed tolerance lines
  have groups : (ofLines tolerance lines).length = (Group.ofLines tolerance lines).length :=
    List.length_map _
  have count : ((Group.ofLines tolerance lines).map Group.founder).length
      = (ofLines tolerance lines).length := by
    rw [List.length_map, groups]
  refine ⟨_, _, placed.firstFit count, fun k => ?_⟩
  let group : Group α := (Group.ofLines tolerance lines).get (k.cast groups)
  have entry : (Group.ofLines tolerance lines)[(k : Nat)]? = some group :=
    List.getElem?_eq_getElem (k.cast groups).isLt
  have founded : ((Group.ofLines tolerance lines).map Group.founder)[(k : Nat)]?
      = some group.founder := by
    rw [List.getElem?_map, entry]
    rfl
  have cluster : (ofLines tolerance lines)[k] = group.cluster := List.getElem_map Group.cluster
  change Represents _ (lines.get ⟨founder k, _⟩) _
  rw [membersOf_eq, ← sent k _ entry, placed.get_founder founded, cluster]
  exact group.represents_cluster

end Invariant

namespace Cluster

variable (tolerance : Tolerance α) (lines : List (Line α))

theorem sum_members_ofLines : ((ofLines tolerance lines).map (·.members)).sum = lines.length := by
  have members : (fun c : Cluster α => c.members) ∘ Group.cluster = fun g => g.lines.length := rfl
  rw [ofLines, List.map_map, members, ← List.length_flatMap,
    (Group.lines_ofLines_perm tolerance lines).length_eq]

theorem touched_ofLines {t : Int} :
    (∃ c ∈ ofLines tolerance lines, t ∈ c.touches) ↔ ∃ line ∈ lines, t ∈ line.touches := by
  have listed (line : Line α) :
      (∃ g ∈ Group.ofLines tolerance lines, line ∈ g.lines) ↔ line ∈ lines := by
    rw [← List.mem_flatMap, (Group.lines_ofLines_perm tolerance lines).mem_iff]
  simp only [ofLines, List.mem_map, exists_exists_and_eq_and, Group.mem_cluster_touches, ← listed]
  tauto

/-- No violation is lost in counts that are not kept in words. -/
theorem sum_violations_groups :
    ((Group.ofLines tolerance lines).map fun g => (g.lines.map (·.violations)).sum).sum
      = (lines.map (·.violations)).sum := by
  rw [← ((Group.lines_ofLines_perm tolerance lines).map _).sum_eq, List.map_flatMap,
    List.flatMap_def, List.sum_flatten, List.map_map]
  rfl

theorem violations_ofLines :
    (ofLines tolerance lines).map (·.violations)
      = ((Group.ofLines tolerance lines).map fun g => (g.lines.map (·.violations)).sum).map
        (· % wordCount) := by
  rw [ofLines, List.map_map, List.map_map]
  exact List.map_congr_left fun g _ => g.represents_cluster.violations_eq

theorem sum_violations_ofLines_mod :
    ((ofLines tolerance lines).map (·.violations)).sum % wordCount
      = (lines.map (·.violations)).sum % wordCount := by
  rw [violations_ofLines, ← sum_violations_groups tolerance lines]
  exact (List.sum_nat_mod _ _).symm

theorem sum_violations_ofLines (fits : (lines.map (·.violations)).sum < wordCount) :
    ((ofLines tolerance lines).map (·.violations)).sum = (lines.map (·.violations)).sum := by
  rw [← sum_violations_groups tolerance lines] at fits
  have each : ∀ n ∈ (Group.ofLines tolerance lines).map fun g => (g.lines.map (·.violations)).sum,
      n % wordCount = n := fun n mem => Nat.mod_eq_of_lt ((List.le_sum_of_mem mem).trans_lt fits)
  rw [violations_ofLines, List.map_congr_left each, List.map_id', sum_violations_groups]

end Cluster

/-- Clusters are what first fit against founders gives, and nothing but counts that no word holds is
lost on the way. -/
theorem clusters_are_firstFit (tolerance : Tolerance Float) (lines : List (Line Float)) :
    ∃ (founder : Fin (Cluster.ofLines tolerance lines).length → Fin lines.length)
      (home : Fin lines.length → Fin (Cluster.ofLines tolerance lines).length),
      FirstFit tolerance lines founder home ∧
      (∀ (m : Nat) (founder' : Fin m → Fin lines.length) (home' : Fin lines.length → Fin m),
        FirstFit tolerance lines founder' home' →
          m = (Cluster.ofLines tolerance lines).length ∧ ∀ i, (home' i : Nat) = home i) ∧
      (∀ k : Fin (Cluster.ofLines tolerance lines).length,
        (Cluster.ofLines tolerance lines)[k].Represents lines[founder k]
          (membersOf lines home k)) ∧
      (∀ j k, j ≠ k → ¬ tolerance.Near lines[founder j] lines[founder k]) ∧
      ((Cluster.ofLines tolerance lines).map (·.members)).sum = lines.length ∧
      (∀ t, (∃ c ∈ Cluster.ofLines tolerance lines, t ∈ c.touches) ↔
        ∃ line ∈ lines, t ∈ line.touches) ∧
      ((Cluster.ofLines tolerance lines).map (·.violations)).sum % wordCount
        = (lines.map (·.violations)).sum % wordCount ∧
      ((lines.map (·.violations)).sum < wordCount →
        ((Cluster.ofLines tolerance lines).map (·.violations)).sum
          = (lines.map (·.violations)).sum) := by
  obtain ⟨founder, home, fit, represents⟩ := Cluster.partitions_ofLines tolerance lines
  refine ⟨founder, home, fit, fun m founder' home' fit' => fit.unique fit', represents, ?_,
    Cluster.sum_members_ofLines tolerance lines, fun t => Cluster.touched_ofLines tolerance lines,
    Cluster.sum_violations_ofLines_mod tolerance lines,
    Cluster.sum_violations_ofLines tolerance lines⟩
  intro j k other
  rcases lt_or_gt_of_ne other with less | greater
  · exact fit.not_near less
  · rw [Tolerance.near_comm]
    exact fit.not_near greater

/-- A level line that as many bars break as half a word has values. -/
def brokenLine : Line Float where
  slope := 0
  intercept := 100
  rSquared := 1
  touches := .empty
  violations := halfWordCount
  lookback := 5
  side := .high
  first := ⟨0, 0, 100, .high⟩
  second := ⟨0, 0, 100, .high⟩

/-- Two such lines make one cluster, and none of their violations is left. -/
theorem violations_of_cluster_wrap :
    ([brokenLine, brokenLine].map (·.violations)).sum = wordCount ∧
      (Cluster.ofLines ⟨0.05, 1⟩ [brokenLine, brokenLine]).map (fun c => (c.members, c.violations))
        = [(2, 0)] :=
  ⟨by decide, by decide +kernel⟩

end Trendline
