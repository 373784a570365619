import Trendline.Proofs.Engine.Outlook

/-!
Waiting with a worker that steps whenever it likes. No order of steps lets the owner wait for ever,
and every order ends with what was pending: the job under way, and then the queue with the
parameters of the moment.
-/

namespace Trendline

variable {α : Type} [Scalar α]

/-- However the steps follow one another, the call of the owner comes to its end, and then `Q`. -/
inductive Returns (Q : Engine α → Prop) : System α → Prop where
  | done (e : Engine α) (h : History α) (result : Q e) : Returns Q ⟨e, .idle, h⟩
  | step (σ : System α) (inside : σ.phase ≠ .idle) (next : ∃ τ, Advance σ τ)
      (all : ∀ τ, Advance σ τ → Returns Q τ) : Returns Q σ

namespace Phase

def weight : Phase → Nat
  | .idle => 0
  | .awaiting => 1
  | .dispatching _ => 2
  | .collecting _ => 3

def Waiting : Phase → Prop
  | .idle => False
  | .collecting waiting | .dispatching waiting => waiting = true
  | .awaiting => True

end Phase

/-- Every step inside a call and of the worker makes this smaller. -/
def System.weight (σ : System α) : Nat :=
  7 * σ.engine.queue.length + 5 * σ.engine.requests.length + 4 * σ.engine.current.toList.length
    + 3 * σ.engine.replies.length + σ.phase.weight

omit [Scalar α] in
theorem Engine.weight_phaseAfter_le (e : Engine α) (waiting : Bool) :
    (e.phaseAfter waiting).weight ≤ 3 := by
  simp only [phaseAfter]
  split
  · split <;> simp [Phase.weight]
  · simp [Phase.weight]

omit [Scalar α] in
theorem Engine.weight_phaseAfter_le_one {e : Engine α} (h : e.hasRunning = true ∨ e.queue = [])
    (waiting : Bool) : (e.phaseAfter waiting).weight ≤ 1 := by
  simp only [phaseAfter]
  split
  · next busy =>
      have running : e.hasRunning = true := by
        rcases h with running | empty
        · exact running
        · simpa [isBusy, empty] using (Bool.and_eq_true_iff.mp busy).2
      simp [running, Phase.weight]
  · simp [Phase.weight]

theorem weight_lt_of_advance {σ τ : System α} (next : Advance σ τ) : τ.weight < σ.weight := by
  cases next with
  | record e h waiting r rest arrived =>
      simp only [System.weight, arrived, Engine.record_queue, Engine.record_requests,
        Engine.record_current, Engine.record_replies, List.length_cons]
      omega
  | answer e h r rest arrived =>
      simp only [System.weight, arrived, Engine.record_queue, Engine.record_requests,
        Engine.record_current, Engine.record_replies, List.length_cons, Phase.weight]
      omega
  | drained => simp [System.weight, Phase.weight]
  | dispatch e h waiting =>
      have here : (Phase.dispatching waiting).weight = 2 := rfl
      obtain ⟨nothing, same, -⟩ | ⟨s, rest, -, hq, -, dropped, -⟩ |
        ⟨s, rest, slot, -, hq, found, sent, -⟩ := e.dispatch_cases
      · -- The engine stays as it is, so the phase alone has to come down.
        have phase := Engine.weight_phaseAfter_le_one nothing waiting
        rw [same]
        simp only [System.weight, here]
        omega
      · have phase := e.dispatch.weight_phaseAfter_le waiting
        generalize e.dispatch.phaseAfter waiting = after at phase
        rw [dropped]
        simp only [System.weight, hq, List.length_cons, here]
        omega
      · have phase := e.dispatch.weight_phaseAfter_le waiting
        generalize e.dispatch.phaseAfter waiting = after at phase
        rw [sent, Engine.send_of_slot? (e := { e with queue := rest }) found]
        simp only [System.weight, hq, List.length_cons, List.length_append, List.length_nil, here]
        omega
  | take e φ h job rest free next =>
      simp [System.weight, Engine.take, free, next]
      omega
  | post e φ h job busy =>
      simp [System.weight, Engine.post_of_current busy, busy]
      omega

/-- The owner is in `waitAll`, and what it will know is `F`. -/
structure Waits (c : Collection α) (F : Findings α) (σ : System α) : Prop where
  consistent : Consistent c σ.engine σ.history
  waiting : σ.phase.Waiting
  running : σ.phase = .awaiting → σ.engine.hasRunning = true
  outlook : σ.engine.outlook c = F

namespace Waits

variable {c : Collection α} {F : Findings α} {σ τ : System α}

/-- The owner is never stuck: where it needs an answer, the worker can step. -/
theorem progress (w : Waits c F σ) : ∃ τ, Advance σ τ := by
  obtain ⟨e, φ, h⟩ := σ
  cases φ with
  | idle => exact w.waiting.elim
  | collecting waiting =>
      cases arrived : e.replies with
      | nil => exact ⟨_, .drained e h waiting arrived⟩
      | cons r rest => exact ⟨_, .record e h waiting r rest arrived⟩
  | dispatching waiting => exact ⟨_, .dispatch e h waiting⟩
  | awaiting =>
      have some : e.traffic ≠ [] := w.consistent.hasRunning_iff.mp (w.running rfl)
      cases busy : e.current with
      | some job => exact ⟨_, .post e .awaiting h job busy⟩
      | none =>
          cases next : e.requests with
          | cons job rest => exact ⟨_, .take e .awaiting h job rest busy next⟩
          | nil =>
              cases arrived : e.replies with
              | cons r rest => exact ⟨_, .answer e h r rest arrived⟩
              | nil => simp [Engine.traffic, busy, next, arrived] at some

theorem advance (w : Waits c F σ) (next : Advance σ τ) :
    Waits c F τ ∨ τ.phase = .idle ∧ τ.engine.Settled F := by
  have consistent : Consistent c τ.engine τ.history := w.consistent.advance next
  have outlook : τ.engine.outlook c = F := (w.consistent.outlook_advance next).trans w.outlook
  cases next with
  | record e h waiting r rest arrived =>
      exact .inl ⟨consistent, w.waiting, nofun, outlook⟩
  | drained e h waiting none =>
      exact .inl ⟨consistent, w.waiting, nofun, outlook⟩
  | answer e h r rest arrived =>
      exact .inl ⟨consistent, rfl, nofun, outlook⟩
  | take e φ h job rest free next =>
      refine .inl ⟨consistent, w.waiting, ?_, outlook⟩
      intro here
      have running := w.running here
      rwa [Engine.hasRunning, Engine.take_eq]
  | post e φ h job busy =>
      refine .inl ⟨consistent, w.waiting, ?_, outlook⟩
      intro here
      have running := w.running here
      rwa [Engine.hasRunning, Engine.post_of_current busy]
  | dispatch e h waiting =>
      have inside : waiting = true := w.waiting
      subst inside
      cases busy : e.dispatch.isBusy with
      | false =>
          refine .inr ⟨by simp [Engine.phaseAfter, busy], ?_⟩
          exact outlook ▸ consistent.settled busy
      | true =>
          cases running : e.dispatch.hasRunning with
          | true =>
              refine .inl ⟨consistent, ?_, fun _ => running, outlook⟩
              simp [Engine.phaseAfter, busy, running, Phase.Waiting]
          | false =>
              refine .inl ⟨consistent, ?_, ?_, outlook⟩
              · simp [Engine.phaseAfter, busy, running, Phase.Waiting]
              · intro here
                simp [Engine.phaseAfter, busy, running] at here

theorem returns (w : Waits c F σ) : Returns (Engine.Settled F) σ := by
  generalize bound : σ.weight = n
  induction n using Nat.strongRecOn generalizing σ with
  | ind n ih =>
      refine .step σ ?_ w.progress ?_
      · intro here
        have waiting := w.waiting
        rw [here] at waiting
        exact waiting
      · intro τ next
        have less : τ.weight < n := bound ▸ weight_lt_of_advance next
        rcases w.advance next with more | ⟨idle, settled⟩
        · exact ih τ.weight less more rfl
        · obtain ⟨e, φ, h⟩ := τ
          cases idle
          exact .done e h settled

end Waits

theorem Consistent.returns {c : Collection α} {e : Engine α} {h : History α}
    (inv : Consistent c e h) :
    Returns (Engine.Settled (e.outlook c)) ⟨e, .collecting true, h⟩ :=
  Waits.returns (c := c) ⟨inv, rfl, nofun, rfl⟩

theorem Returns.imp {c : Collection α} {Q R : Engine α → Prop} {σ : System α}
    (inv : Consistent c σ.engine σ.history) (h : ∀ e, e.Serves c → Q e → R e)
    (returns : Returns Q σ) : Returns R σ := by
  induction returns with
  | done e history result => exact .done e history (h e inv.serves result)
  | step σ inside next all ih => exact .step σ inside next fun τ step => ih τ step (inv.advance step)

namespace Engine

variable {e : Engine α} {s : String} {slot : Slot α}

omit [Scalar α] in
theorem submit_of_slot? (found : e.slot? s = some slot) :
    e.submit s = if slot.running || e.queue.contains s then (e, true)
      else ({ e with queue := s :: e.queue }, true) := by
  simp only [submit, found]

omit [Scalar α] in
theorem submit_eq (found : e.slot? s = some slot) :
    e.submit s = ({ e with queue := (e.submit s).1.queue }, true) := by
  rw [submit_of_slot? found]
  split <;> rfl

omit [Scalar α] in
theorem mem_queue_submit (found : e.slot? s = some slot)
    (free : slot.running = false ∨ s ∈ e.queue) : s ∈ (e.submit s).1.queue := by
  rw [submit_of_slot? found]
  split
  · next left =>
      rcases free with idle | mem
      · rw [idle, Bool.false_or] at left
        exact List.contains_iff_mem.mp left
      · exact mem
  · exact List.mem_cons_self

omit [Scalar α] in
theorem submit_of_running (found : e.slot? s = some slot) (busy : slot.running = true) :
    e.submit s = (e, true) := by
  rw [submit_of_slot? found, busy, Bool.true_or, if_pos rfl]

end Engine

namespace Consistent

variable {c : Collection α} {e : Engine α} {h : History α}

theorem outlook_of_mem (inv : Consistent c e h) {s : String} {series : Series α}
    (hs : c.find? s = some series) (mem : s ∈ e.queue) :
    e.outlook c s
      = (h.unanswered.foldl (Findings.attempt c) e.findings s).after
          (series.analyze e.params) := by
  rw [inv.outlook_eq, List.foldl_append, Findings.foldl_attempt_of_mem _ _ _ hs mem]

theorem outlook_of_notMem (inv : Consistent c e h) {s : String} (absent : s ∉ e.queue) :
    e.outlook c s = h.unanswered.foldl (Findings.attempt c) e.findings s := by
  rw [inv.outlook_eq, List.foldl_append]
  exact Findings.foldl_attempt_of_notMem _ _ (by simpa [Function.comp_def] using absent)

theorem length_unanswered_le (inv : Consistent c e h) : h.unanswered.length ≤ 1 := by
  rw [inv.unanswered.length_eq]
  exact inv.single

theorem unanswered_of_running (inv : Consistent c e h) {s : String} (busy : e.running s = true) :
    ∃ q, h.unanswered = [(s, q)] := by
  have mem := (inv.running s).mp busy
  have single := inv.length_unanswered_le
  have answers := inv.unanswered
  cases hu : h.unanswered with
  | nil =>
      rw [hu, List.forall₂_nil_left_iff] at answers
      rw [answers] at mem
      cases mem
  | cons job rest =>
      rw [hu, List.length_cons] at single
      have alone : rest = [] := List.eq_nil_of_length_eq_zero (by omega)
      rw [hu, alone] at answers
      obtain ⟨r, none, answer, hnone, traffic⟩ := List.forall₂_cons_left_iff.mp answers
      rw [List.forall₂_nil_left_iff.mp hnone] at traffic
      rw [traffic, List.map_cons, List.map_nil, List.mem_singleton, answer.1] at mem
      exact ⟨job.2, by rw [alone, mem]⟩

theorem setParams (inv : Consistent c e h) (q : Params α) : Consistent c (e.setParams q) h :=
  inv.call (.setParams q)

theorem submit (inv : Consistent c e h) (s : String) : Consistent c (e.submit s).1 h :=
  inv.call (.submit s)

theorem recalculate (inv : Consistent c e h) (priority : Option String) :
    Consistent c (e.recalculate priority) h :=
  inv.call (.recalculate priority)

theorem outlook_recalculate (inv : Consistent c e h) (priority : Option String) {s : String}
    {series : Series α} (hs : c.find? s = some series) :
    (e.recalculate priority).outlook c s
      = (h.unanswered.foldl (Findings.attempt c) e.findings s).after
          (series.analyze e.params) := by
  have mem : s ∈ e.symbols := (inv.serves.mem_symbols_iff s).mpr ⟨series, hs⟩
  have queued : s ∈ (e.recalculate priority).queue := by
    rw [Engine.recalculate_eq]
    exact (Engine.withPriority_perm _ _).mem_iff.mpr mem
  rw [(inv.recalculate priority).outlook_of_mem hs queued, Engine.recalculate_eq]
  rfl

theorem outlook_submit (inv : Consistent c e h) {s : String} {series : Series α}
    (hs : c.find? s = some series) (free : e.running s = false ∨ s ∈ e.queue) :
    (e.submit s).1.outlook c s
      = (h.unanswered.foldl (Findings.attempt c) e.findings s).after
          (series.analyze e.params) := by
  obtain ⟨slot, found, -⟩ := inv.serves.exists_slot hs
  rw [Engine.running_of_slot? found] at free
  rw [(inv.submit s).outlook_of_mem hs (Engine.mem_queue_submit found free),
    Engine.submit_eq found]
  rfl

theorem outlook_submit_of_running (inv : Consistent c e h) {s : String} {series : Series α}
    (hs : c.find? s = some series) (busy : e.running s = true) (absent : s ∉ e.queue) :
    ∃ q, h.unanswered = [(s, q)] ∧
      (e.submit s).1.outlook c s = (e.findings s).after (series.analyze q) := by
  obtain ⟨slot, found, -⟩ := inv.serves.exists_slot hs
  obtain ⟨q, alone⟩ := inv.unanswered_of_running busy
  rw [Engine.running_of_slot? found] at busy
  refine ⟨q, alone, ?_⟩
  rw [Engine.submit_of_running found busy, inv.outlook_of_notMem absent, alone, List.foldl_cons,
    List.foldl_nil, Findings.attempt_of_find? hs, Findings.record, if_pos rfl]

end Consistent

/-- Waiting ends, in any order of steps, with an empty queue, no mark, and what was pending: the
unanswered job, of which there is one at most, and then the queue, with the parameters of the
moment. After a recalculation that is an attempt on every symbol. -/
theorem waitAll_settles {c : Collection α} {p : Params α} {e : Engine α} {h : History α}
    (reachable : Reachable c p ⟨e, .idle, h⟩) :
    let pending := h.unanswered ++ e.queue.map (·, e.params)
    let F := pending.foldl (Findings.attempt c) e.findings
    h.unanswered.length ≤ 1 ∧ e.waitAll.Settled F ∧
      Returns (Engine.Settled F) ⟨e, .collecting true, h⟩ ∧
      (∀ s, s ∉ pending.map Prod.fst → F s = e.findings s) ∧
      ∀ priority, ∃ G, (e.recalculate priority).waitAll.Settled G ∧
        Returns (Engine.Settled G) ⟨e.recalculate priority, .collecting true, h⟩ ∧
        ∀ s series, c.find? s = some series →
          G s = (h.unanswered.foldl (Findings.attempt c) e.findings s).after
            (series.analyze e.params) := by
  intro pending F
  have inv : Consistent c e h := .of_reachable reachable
  have same : e.outlook c = F := inv.outlook_eq
  refine ⟨inv.length_unanswered_le, same ▸ inv.settled_waitAll, same ▸ inv.returns, ?_, ?_⟩
  · intro s absent
    exact Findings.foldl_attempt_of_notMem _ _ absent
  intro priority
  have later := inv.recalculate priority
  refine ⟨_, later.settled_waitAll, later.returns, ?_⟩
  intro s series hs
  exact inv.outlook_recalculate priority hs

/-- A job is under way, and the queue holds its symbol again, after one that is not known. -/
def mixedEngine : Engine Float :=
  [Action.call (.submit "A"), .update, .call (.enqueue "B"), .call (.enqueue "A"),
    .call (.setParams withZeroLookback)].foldl Engine.act
      (.ofCollection oneSymbol withoutLookbacks)

theorem waitAll_settles_mixed :
    ∃ h, Reachable oneSymbol withoutLookbacks ⟨mixedEngine, .idle, h⟩ ∧
      mixedEngine.running "A" = true ∧ mixedEngine.queue = ["B", "A"] ∧
      mixedEngine.waitAll.queue = [] ∧
      (mixedEngine.waitAll.findings "A").lastError = some (.param .zeroLookback) := by
  obtain ⟨h, reachable⟩ := acts_reachable (c := oneSymbol) (p := withoutLookbacks) .refl
    [.call (.submit "A"), .update, .call (.enqueue "B"), .call (.enqueue "A"),
      .call (.setParams withZeroLookback)]
  obtain ⟨-, settled, -⟩ := waitAll_settles (e := mixedEngine) reachable
  refine ⟨h, reachable, rfl, rfl, settled.queue, ?_⟩
  rw [settled.findings, List.foldl_append]
  rfl

/-- A symbol that is submitted with new parameters ends with an attempt with these, unless a job of
it is under way and it is not queued: then that job is all that happens to it. -/
theorem submit_settles {c : Collection α} {p : Params α} {e : Engine α} {h : History α}
    (reachable : Reachable c p ⟨e, .idle, h⟩) {s : String} {series : Series α}
    (hs : c.find? s = some series) (q : Params α) :
    let e' := ((e.setParams q).submit s).1
    ((e.setParams q).submit s).2 = true ∧
      ∃ G, e'.waitAll.Settled G ∧ Returns (Engine.Settled G) ⟨e', .collecting true, h⟩ ∧
        (e.running s = false ∨ s ∈ e.queue →
          G s = (h.unanswered.foldl (Findings.attempt c) e.findings s).after (series.analyze q)) ∧
        (e.running s = true → s ∉ e.queue →
          ∃ q', h.unanswered = [(s, q')] ∧ G s = (e.findings s).after (series.analyze q')) := by
  intro e'
  have inv : Consistent c (e.setParams q) h := (Consistent.of_reachable reachable).setParams q
  have later : Consistent c e' h := inv.submit s
  obtain ⟨slot, found, -⟩ := inv.serves.exists_slot hs
  refine ⟨?_, _, later.settled_waitAll, later.returns, ?_, ?_⟩
  · rw [Engine.submit_eq found]
  · intro free
    exact inv.outlook_submit hs free
  · intro busy absent
    exact inv.outlook_submit_of_running hs busy absent

/-- The job of a symbol is under way, with parameters that are refused. -/
def sentEngine : Engine Float :=
  [Action.call (.submit "A"), .update].foldl Engine.act (.ofCollection oneSymbol withoutLookbacks)

theorem sentEngine_reachable :
    Reachable oneSymbol withoutLookbacks
      ⟨sentEngine, .idle, ⟨[("A", withoutLookbacks)], [], []⟩⟩ := by
  have submitted := Relation.ReflTransGen.single
    (Step.call (.ofCollection oneSymbol withoutLookbacks) ⟨[], [], []⟩ (.submit "A"))
  have called := submitted.tail (.update _ _)
  have drained := called.tail (.advance (.drained _ _ false rfl))
  exact drained.tail (.advance (.dispatch _ _ false))

theorem submit_settles_running :
    sentEngine.running "A" = true ∧
      (((sentEngine.setParams withZeroLookback).submit "A").1.waitAll.findings "A").lastError
        = some (.param .noLookback) := by
  have known : oneSymbol.find? "A" = some emptySeries := rfl
  obtain ⟨-, G, settled, -, -, running⟩ :=
    submit_settles sentEngine_reachable known withZeroLookback
  obtain ⟨q', alone, result⟩ := running rfl (by decide)
  cases alone
  rw [settled.findings, result]
  exact ⟨rfl, rfl⟩

/-- While a job of the symbol is under way, the new parameters are not tried. -/
theorem submit_while_running_is_not_tried :
    ¬ ∀ (c : Collection Float) (p : Params Float) (e : Engine Float) (h : History Float),
      Reachable c p ⟨e, .idle, h⟩ → ∀ s series q, c.find? s = some series →
        ∃ f : Finding Float,
          ((e.setParams q).submit s).1.waitAll.findings s = f.after (series.analyze q) := by
  intro claim
  obtain ⟨f, result⟩ :=
    claim _ _ _ _ sentEngine_reachable "A" emptySeries withZeroLookback rfl
  have inv : Consistent oneSymbol ((sentEngine.setParams withZeroLookback).submit "A").1 _ :=
    ((Consistent.of_reachable sentEngine_reachable).setParams withZeroLookback).submit "A"
  have old : ((sentEngine.setParams withZeroLookback).submit "A").1.outlook oneSymbol "A"
      = ⟨none, some (.param .noLookback)⟩ := rfl
  have refused : emptySeries.analyze withZeroLookback = .error (.param .zeroLookback) := rfl
  rw [inv.settled_waitAll.findings, old, refused] at result
  have errors := congrArg Finding.lastError result
  cases errors

end Trendline
