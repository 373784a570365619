import Trendline.Failure
import Trendline.Proofs.Engine.Waiting
import Trendline.Proofs.Traversal

/-!
A batch is a plain map: to each symbol of a collection belongs the analysis of its first series, and
the first symbol whose analysis fails fails the batch. Neither the queue nor the worker shows in it.
-/

namespace Trendline

variable {α : Type} [Scalar α] {c : Collection α} {p : Params α} {s : String}

namespace Collection

/-- The outcome of the first series of a symbol. -/
def Gives (c : Collection α) (p : Params α) (s : String) (o : Except (Error α) (Analysis α)) :
    Prop :=
  ∃ series, c.find? s = some series ∧ series.analyze p = o

/-- The analysis of one symbol, without an engine. -/
def analyzeSymbol (c : Collection α) (p : Params α) (s : String) :
    Except (BatchError α) (String × Analysis α) :=
  match c.find? s with
  | none => .error (.unknownSymbol s c.symbols.toList)
  | some series =>
      match series.analyze p with
      | .ok a => .ok (s, a)
      | .error err => .error (.failed s (some err))

theorem analyzeSymbol_eq_ok_iff {r : String × Analysis α} :
    c.analyzeSymbol p s = .ok r ↔ s = r.1 ∧ c.Gives p s (.ok r.2) := by
  obtain ⟨t, a⟩ := r
  simp only [analyzeSymbol, Gives]
  cases known : c.find? s with
  | none => simp
  | some series =>
      cases analysis : series.analyze p with
      | ok b => simp [analysis]
      | error err => simp [analysis]

theorem exists_analyzeSymbol_eq_ok_iff :
    (∃ r, c.analyzeSymbol p s = .ok r) ↔ ∃ a, c.Gives p s (.ok a) := by
  simp only [analyzeSymbol_eq_ok_iff]
  constructor
  · intro ⟨r, _, success⟩
    exact ⟨r.2, success⟩
  · intro ⟨a, success⟩
    exact ⟨(s, a), rfl, success⟩

theorem analyzeSymbol_eq_error_iff (mem : s ∈ c.symbols) {b : BatchError α} :
    c.analyzeSymbol p s = .error b ↔
      ∃ err, c.Gives p s (.error err) ∧ b = .failed s (some err) := by
  obtain ⟨series, known⟩ := mem_symbols_iff.mp mem
  simp only [analyzeSymbol, Gives, known]
  cases analysis : series.analyze p with
  | ok a => simp [analysis]
  | error err => simp [analysis, eq_comm]

end Collection

namespace Engine

variable {e : Engine α}

omit [Scalar α] in
theorem result_eq (e : Engine α) (s : String) :
    e.result s = match (e.findings s).analysis with
      | some a => .ok (s, a)
      | none => .error (.failed s (e.findings s).lastError) :=
  rfl

omit [Scalar α] in
theorem result_congr {e' : Engine α} (same : e'.findings = e.findings) : e'.result = e.result := by
  funext s
  rw [result_eq, result_eq, same]

theorem result_waitAll (inv : Consistent c e ⟨[], [], []⟩) (known : s ∈ c.symbols)
    (mem : s ∈ e.queue) : e.waitAll.result s = c.analyzeSymbol e.params s := by
  obtain ⟨series, hs⟩ := Collection.mem_symbols_iff.mp known
  have tried : e.waitAll.findings s = Finding.unknown.after (series.analyze e.params) := by
    rw [inv.settled_waitAll.findings, inv.outlook_of_mem hs mem]
    simp [History.unanswered, inv.findings]
  rw [result_eq, tried]
  simp only [Collection.analyzeSymbol, hs]
  cases series.analyze e.params with
  | ok a | error err => rfl

theorem symbols_waitAll {h : History α} (inv : Consistent c e h) :
    e.waitAll.symbols = c.symbols.toList := by
  obtain ⟨h', run, -⟩ := waitAll_advances e h inv
  have after : Consistent c e.waitAll h' := inv.advances run
  exact after.serves.symbols_eq

theorem batch_all (inv : Consistent c e ⟨[], [], []⟩) :
    (e.batch none).2 = c.symbols.toList.mapM (c.analyzeSymbol e.params) := by
  have later : Consistent c (e.recalculate none) ⟨[], [], []⟩ := inv.recalculate none
  have queue : (e.recalculate none).queue = c.symbols.toList := by
    rw [recalculate_eq, ← inv.serves.symbols_eq]
    rfl
  have params : (e.recalculate none).params = e.params := by rw [recalculate_eq]
  simp only [batch]
  rw [symbols_waitAll later]
  apply mapM_congr
  intro s mem
  rw [result_waitAll later mem (queue ▸ mem), params]

theorem batch_some_of_submit {e' : Engine α} (submitted : e.submit s = (e', true)) :
    (e.batch (some s)).2 = [s].mapM e'.waitAll.result := by
  simp only [batch, submitted]

/-- An engine with nothing to do takes every symbol that it knows. -/
theorem submit_start (inv : Consistent c e ⟨[], [], []⟩) (empty : e.queue = [])
    (known : s ∈ c.symbols) : e.submit s = ({ e with queue := [s] }, true) := by
  obtain ⟨series, hs⟩ := Collection.mem_symbols_iff.mp known
  obtain ⟨slot, found, -⟩ := inv.serves.exists_slot hs
  have idle : slot.running = false := by
    rw [← running_of_slot? found, Bool.eq_false_iff]
    intro busy
    obtain ⟨q, one⟩ := inv.unanswered_of_running busy
    cases one
  rw [submit_of_slot? found, idle, empty]
  rfl

theorem batch_one (inv : Consistent c e ⟨[], [], []⟩) (empty : e.queue = []) (s : String) :
    (e.batch (some s)).2 = (c.analyzeSymbol e.params s).map fun r => [r] := by
  by_cases known : s ∈ c.symbols
  · have later : Consistent c { e with queue := [s] } ⟨[], [], []⟩ := inv.call (.setQueue [s])
    have result := result_waitAll later known List.mem_cons_self
    rw [batch_some_of_submit (submit_start inv empty known), List.mapM_cons, result]
    cases c.analyzeSymbol e.params s with
    | ok r | error b => rfl
  · have absent : c.find? s = none := Collection.find?_eq_none known
    have unknown : e.slot? s = none := (inv.serves.slot?_eq_none_iff s).mpr absent
    simp only [batch, submit, unknown, Collection.analyzeSymbol, absent, Except.map,
      ← inv.serves.symbols_eq]
    rfl

/-- The results do not depend on the order of the steps. -/
theorem returns_result {h : History α} (inv : Consistent c e h) :
    Returns (fun e' => e'.symbols = e.waitAll.symbols ∧ e'.result = e.waitAll.result)
      ⟨e, .collecting true, h⟩ := by
  apply inv.returns.imp inv
  intro e' serves settled
  constructor
  · rw [serves.symbols_eq, symbols_waitAll inv]
  · exact result_congr (settled.findings.trans inv.settled_waitAll.findings.symm)

end Engine

namespace Collection

theorem analyze_none (c : Collection α) (p : Params α) :
    c.analyze p none = c.symbols.toList.mapM (c.analyzeSymbol p) := by
  have params : (Engine.ofCollection c p).params = p := by rw [Engine.ofCollection_eq]
  rw [analyze, Engine.batch_all (consistent_ofCollection c p), params]

theorem analyze_some (c : Collection α) (p : Params α) (s : String) :
    c.analyze p (some s) = (c.analyzeSymbol p s).map fun r => [r] := by
  have params : (Engine.ofCollection c p).params = p := by rw [Engine.ofCollection_eq]
  have queue : (Engine.ofCollection c p).queue = [] := by rw [Engine.ofCollection_eq]
  rw [analyze, Engine.batch_one (consistent_ofCollection c p) queue, params]

theorem analyze_eq_ok_iff {results : List (String × Analysis α)} :
    c.analyze p none = .ok results ↔
      results.map Prod.fst = c.symbols.toList ∧
        ∀ s a, (s, a) ∈ results → c.Gives p s (.ok a) := by
  rw [analyze_none, mapM_ok_iff]
  simp only [analyzeSymbol_eq_ok_iff]
  generalize c.symbols.toList = names
  constructor
  · intro all
    have same : List.Forall₂ (fun s r => s = Prod.fst r) names results := all.imp fun _ _ h => h.1
    rw [← List.forall₂_map_right_iff, List.forall₂_eq_eq_eq] at same
    rw [same, List.forall₂_map_left_iff, List.forall₂_same] at all
    exact ⟨same.symm, fun s a mem => (all (s, a) mem).2⟩
  · intro h
    obtain ⟨rfl, all⟩ := h
    rw [List.forall₂_map_left_iff, List.forall₂_same]
    intro r mem
    exact ⟨rfl, all r.1 r.2 mem⟩

theorem exists_analyze_eq_ok_iff :
    (∃ results, c.analyze p none = .ok results) ↔
      ∀ s ∈ c.symbols, ∃ a, c.Gives p s (.ok a) := by
  rw [analyze_none, exists_mapM_ok_iff]
  simp only [exists_analyzeSymbol_eq_ok_iff]
  rfl

theorem analyze_eq_error_iff {b : BatchError α} :
    c.analyze p none = .error b ↔
      ∃ s err, s ∈ c.symbols ∧ c.Gives p s (.error err) ∧
        (∀ t ∈ c.symbols, t < s → ∃ a, c.Gives p t (.ok a)) ∧ b = .failed s (some err) := by
  rw [analyze_none, mapM_error_iff]
  simp only [exists_analyzeSymbol_eq_ok_iff]
  constructor
  · intro ⟨before, s, later, split, failure, fine⟩
    have mem : s ∈ c.symbols := by
      change s ∈ c.symbols.toList
      simp [split]
    obtain ⟨err, gives, rfl⟩ := (analyzeSymbol_eq_error_iff mem).mp failure
    refine ⟨s, err, mem, gives, fun t ht less => fine t ?_, rfl⟩
    exact (Ascending.mem_before_iff (split ▸ c.symbols.ascending) (split ▸ ht)).mpr less
  · intro h
    obtain ⟨s, err, mem, gives, fine, rfl⟩ := h
    obtain ⟨before, later, split⟩ := List.append_of_mem (show s ∈ c.symbols.toList from mem)
    have failure := (analyzeSymbol_eq_error_iff mem).mpr ⟨err, gives, rfl⟩
    refine ⟨before, s, later, split, failure, fun t ht => fine t ?_ ?_⟩
    · change t ∈ c.symbols.toList
      simp [split, ht]
    · have ascending := split ▸ c.symbols.ascending
      exact (Ascending.mem_before_iff ascending (List.mem_append_left _ ht)).mp ht

theorem analyze_some_of_unknown (unknown : s ∉ c.symbols) :
    c.analyze p (some s) = .error (.unknownSymbol s c.symbols.toList) := by
  rw [analyze_some, analyzeSymbol, find?_eq_none unknown]
  rfl

theorem returns_analyze_none (c : Collection α) (p : Params α) :
    Returns (fun e => e.symbols.mapM e.result = c.analyze p none)
      ⟨(Engine.ofCollection c p).recalculate none, .collecting true, ⟨[], [], []⟩⟩ := by
  have inv := (consistent_ofCollection c p).recalculate none
  apply (Engine.returns_result inv).imp inv
  intro e _ ⟨symbols, result⟩
  rw [symbols, result]
  rfl

theorem returns_analyze_some (c : Collection α) (p : Params α) (known : s ∈ c.symbols) :
    Returns (fun e => [s].mapM e.result = c.analyze p (some s))
      ⟨((Engine.ofCollection c p).submit s).1, .collecting true, ⟨[], [], []⟩⟩ := by
  have start := consistent_ofCollection c p
  have inv := start.submit s
  have empty : (Engine.ofCollection c p).queue = [] := by rw [Engine.ofCollection_eq]
  have submitted := Engine.submit_start start empty known
  apply (Engine.returns_result inv).imp inv
  intro e _ ⟨_, result⟩
  rw [analyze, Engine.batch_some_of_submit submitted, result, submitted]

theorem mapError_analyze_none {c : Collection Float} {p : Params Float} {text : String} :
    (c.analyze p none).mapError BatchError.message = .error text ↔
      ∃ s err, s ∈ c.symbols ∧ c.Gives p s (.error err) ∧
        (∀ t ∈ c.symbols, t < s → ∃ a, c.Gives p t (.ok a)) ∧
        text = "Analysis failed for " ++ s ++ ": " ++ err.message := by
  rw [mapError_eq_error_iff]
  constructor
  · intro h
    obtain ⟨b, failed, rfl⟩ := h
    obtain ⟨s, err, mem, gives, fine, rfl⟩ := analyze_eq_error_iff.mp failed
    exact ⟨s, err, mem, gives, fine, rfl⟩
  · intro h
    obtain ⟨s, err, mem, gives, fine, rfl⟩ := h
    exact ⟨_, analyze_eq_error_iff.mpr ⟨s, err, mem, gives, fine, rfl⟩, rfl⟩

end Collection

/-- A batch of all symbols gives them their analyses, in order, if none fails; otherwise it tells why
the least of those that fail does. A batch of one symbol does the same for this one. No order in
which the worker steps gives anything else. -/
theorem analyze_refines_map (c : Collection Float) (p : Params Float) :
    ((∃ results, c.analyze p none = .ok results) ↔
      ∀ s ∈ c.symbols, ∃ a, c.Gives p s (.ok a)) ∧
    (∀ results, c.analyze p none = .ok results ↔
      results.map Prod.fst = c.symbols.toList ∧
        ∀ s a, (s, a) ∈ results → c.Gives p s (.ok a)) ∧
    (∀ text, (c.analyze p none).mapError BatchError.message = .error text ↔
      ∃ s err, s ∈ c.symbols ∧ c.Gives p s (.error err) ∧
        (∀ t ∈ c.symbols, t < s → ∃ a, c.Gives p t (.ok a)) ∧
        text = "Analysis failed for " ++ s ++ ": " ++ err.message) ∧
    Returns (fun e => e.symbols.mapM e.result = c.analyze p none)
      ⟨(Engine.ofCollection c p).recalculate none, .collecting true, ⟨[], [], []⟩⟩ ∧
    (∀ s ∈ c.symbols,
      (∃ o, c.Gives p s o ∧ (c.analyze p (some s)).mapError BatchError.message = match o with
        | .ok a => .ok [(s, a)]
        | .error err => .error ("Analysis failed for " ++ s ++ ": " ++ err.message)) ∧
      Returns (fun e => [s].mapM e.result = c.analyze p (some s))
        ⟨((Engine.ofCollection c p).submit s).1, .collecting true, ⟨[], [], []⟩⟩) ∧
    ∀ s ∉ c.symbols, (c.analyze p (some s)).mapError BatchError.message =
      .error ("Symbol " ++ s ++ " not found (available: "
        ++ ", ".intercalate c.symbols.toList ++ ")") := by
  refine ⟨c.exists_analyze_eq_ok_iff, fun _ => c.analyze_eq_ok_iff,
    fun _ => c.mapError_analyze_none, c.returns_analyze_none p, ?_, ?_⟩
  · intro s mem
    refine ⟨?_, c.returns_analyze_some p mem⟩
    obtain ⟨series, known⟩ := Collection.mem_symbols_iff.mp mem
    refine ⟨series.analyze p, ⟨series, known, rfl⟩, ?_⟩
    simp only [Collection.analyze_some, Collection.analyzeSymbol, known]
    cases series.analyze p with
    | ok a | error err => rfl
  · intro s unknown
    rw [Collection.analyze_some_of_unknown unknown]
    rfl

theorem analyze_refines_map_refused :
    (oneSymbol.analyze withoutLookbacks none).mapError BatchError.message
        = .error ("Analysis failed for A: " ++ (Error.param .noLookback : Error Float).message) ∧
      (oneSymbol.analyze withoutLookbacks (some "A")).mapError BatchError.message
        = .error ("Analysis failed for A: " ++ (Error.param .noLookback : Error Float).message) ∧
      (oneSymbol.analyze withoutLookbacks (some "B")).mapError BatchError.message
        = .error "Symbol B not found (available: A)" := by
  obtain ⟨-, -, failed, -, known, unknown⟩ := analyze_refines_map oneSymbol withoutLookbacks
  have symbols : oneSymbol.symbols.toList = ["A"] := by decide +kernel
  have only (s : String) : s ∈ oneSymbol.symbols ↔ s = "A" := by
    change s ∈ oneSymbol.symbols.toList ↔ s = "A"
    rw [symbols, List.mem_singleton]
  refine ⟨?_, ?_, ?_⟩
  · refine (failed _).mpr ⟨"A", .param .noLookback, (only "A").mpr rfl, ⟨emptySeries, rfl, rfl⟩, ?_,
      rfl⟩
    intro t mem less
    rw [(only t).mp mem] at less
    exact (Std.lt_irrefl less).elim
  · obtain ⟨⟨o, ⟨series, first, rfl⟩, result⟩, -⟩ := known "A" ((only "A").mpr rfl)
    cases first
    exact result
  · rw [unknown "B" ((only "B").not.mpr (by decide)), symbols]
    rfl

end Trendline
