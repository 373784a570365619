import Trendline.Proofs.Ascending
import Trendline.Proofs.Engine.Waiting

/-!
The queue of an engine whose owner leaves it to the engine. Submissions, recalculations and the
dispatch of jobs change the queue by rules of their own, and a symbol that is being worked on may be
queued again; still no symbol is ever queued twice, none that is not known, and none that was
submitted is forgotten before an answer for it has been recorded.
-/

namespace Trendline

variable {α : Type}

/-- A call that leaves the queue to the engine. -/
def Call.IsRequest : Call α → Prop
  | .submit _ | .recalculate _ | .setParams _ => True
  | .enqueue _ | .setQueue _ => False

/-- All symbols of a collection, each once: the given one first, if it is one of them, and the others
in their order. -/
structure Collection.LinesUp (c : Collection α) (first : Option String) (queue : List String) :
    Prop where
  perm : queue.Perm c.symbols.toList
  ahead : ∀ s, first = some s → s ∈ c.symbols →
    ∃ others, queue = s :: others ∧ others.Pairwise (· < ·)
  ascending : (∀ s, first = some s → s ∉ c.symbols) → queue.Pairwise (· < ·)

namespace Engine

/-- The queue holds symbols of the collection, and none of them twice. -/
structure Orderly (c : Collection α) (e : Engine α) : Prop where
  nodup : e.queue.Nodup
  known : ∀ s ∈ e.queue, s ∈ c.symbols

/-- The symbol is queued or being worked on. -/
def Attends (e : Engine α) (s : String) : Prop :=
  s ∈ e.queue ∨ e.running s = true

/-- Nothing is queued, and no job is under way in either direction or with the worker. -/
structure AtRest (e : Engine α) : Prop where
  queue : e.queue = []
  requests : e.requests = []
  current : e.current = none
  replies : e.replies = []
  running : ∀ s, e.running s = false

variable {c : Collection α} {e : Engine α} {s : String}

theorem Orderly.congr (orderly : e.Orderly c) {e' : Engine α} (queue : e'.queue = e.queue) :
    e'.Orderly c := by
  constructor
  · rw [queue]
    exact orderly.nodup
  · rw [queue]
    exact orderly.known

theorem Attends.congr (here : e.Attends s) {e' : Engine α} (queue : e'.queue = e.queue)
    (slots : e'.slots = e.slots) : e'.Attends s := by
  rw [Attends, queue, running_congr slots]
  exact here

namespace Serves

theorem slot?_isSome_iff (serves : e.Serves c) (s : String) :
    (e.slot? s).isSome ↔ s ∈ c.symbols := by
  rw [Collection.mem_symbols_iff, ← serves.series s, Option.isSome_iff_exists]
  simp

theorem linesUp_recalculate (serves : e.Serves c) (first : Option String) :
    c.LinesUp first (e.recalculate first).queue := by
  have queue : (e.recalculate first).queue = withPriority c.symbols.toList first := by
    rw [recalculate_eq, ← serves.symbols_eq]
  rw [queue]
  refine ⟨withPriority_perm _ _, ?_, ?_⟩
  · rintro s rfl known
    have listed : c.symbols.toList.contains s = true := List.contains_iff_mem.mpr known
    refine ⟨c.symbols.toList.erase s, ?_, c.symbols.ascending.sublist List.erase_sublist⟩
    simp only [withPriority, listed, if_true]
  · intro unknown
    have same : withPriority c.symbols.toList first = c.symbols.toList := by
      cases first with
      | none => rfl
      | some s =>
          have absent : ¬ c.symbols.toList.contains s = true :=
            List.contains_iff_mem.not.mpr (unknown s rfl)
          simp only [withPriority, if_neg absent]
    rw [same]
    exact c.symbols.ascending

theorem submit_eq_true_iff (serves : e.Serves c) (s : String) :
    (e.submit s).2 = true ↔ s ∈ c.symbols := by
  rw [← serves.slot?_isSome_iff]
  cases found : e.slot? s with
  | none => simp [submit, found]
  | some slot =>
      rw [submit_eq found]
      exact iff_of_true rfl rfl

theorem attends_submit (serves : e.Serves c) (known : s ∈ c.symbols) :
    (e.submit s).1.Attends s := by
  obtain ⟨slot, found⟩ := Option.isSome_iff_exists.mp ((serves.slot?_isSome_iff s).mpr known)
  cases busy : slot.running with
  | true =>
      rw [submit_of_running found busy]
      exact .inr ((running_of_slot? found).trans busy)
  | false => exact .inl (mem_queue_submit found (.inl busy))

end Serves

/-- All that a submission does to the queue. -/
theorem queue_submit_cases (e : Engine α) (s : String) :
    (e.submit s).1.queue = e.queue ∨
      ((e.slot? s).isSome ∧ s ∉ e.queue ∧ (e.submit s).1.queue = s :: e.queue) := by
  cases found : e.slot? s with
  | none => exact .inl (by simp [submit, found, report])
  | some slot =>
      rw [submit_of_slot? found]
      split
      · exact .inl rfl
      · next left =>
          refine .inr ⟨rfl, ?_, rfl⟩
          intro queued
          simp [queued] at left

namespace Orderly

theorem submit (orderly : e.Orderly c) (serves : e.Serves c) (s : String) :
    (e.submit s).1.Orderly c := by
  rcases e.queue_submit_cases s with same | ⟨known, absent, pushed⟩
  · exact orderly.congr same
  · constructor
    · rw [pushed]
      exact List.nodup_cons.mpr ⟨absent, orderly.nodup⟩
    · rw [pushed]
      exact List.forall_mem_cons.mpr ⟨(serves.slot?_isSome_iff s).mp known, orderly.known⟩

theorem recalculate (serves : e.Serves c) (first : Option String) :
    (e.recalculate first).Orderly c := by
  have perm := (serves.linesUp_recalculate first).perm
  exact ⟨perm.nodup_iff.mpr c.symbols.nodup, fun s mem => perm.mem_iff.mp mem⟩

theorem call (orderly : e.Orderly c) (serves : e.Serves c) {k : Call α} (request : k.IsRequest) :
    (e.call k).Orderly c := by
  cases k with
  | submit s => exact orderly.submit serves s
  | recalculate first => exact .recalculate serves first
  | setParams p => exact orderly.congr rfl
  | enqueue s | setQueue queue => exact request.elim

theorem dispatch (orderly : e.Orderly c) : e.dispatch.Orderly c := by
  have rest {s : String} {rest : List String} (queue : e.queue = s :: rest) {e' : Engine α}
      (popped : e'.queue = rest) : e'.Orderly c := by
    have nodup := orderly.nodup
    have known := orderly.known
    rw [queue] at nodup known
    rw [← popped] at nodup known
    exact ⟨nodup.of_cons, (List.forall_mem_cons.mp known).2⟩
  obtain ⟨-, same, -⟩ | ⟨s, others, -, queue, -, dropped, -⟩ |
    ⟨s, others, slot, -, queue, -, sent, -⟩ := e.dispatch_cases
  · rwa [same]
  · exact rest queue (by rw [dropped])
  · exact rest queue (by rw [sent, send_queue])

end Orderly

theorem orderly_ofCollection (c : Collection α) (p : Params α) :
    (ofCollection c p).Orderly c := by
  have empty : (ofCollection c p).queue = [] := by rw [ofCollection_eq]
  constructor
  · rw [empty]
    exact List.nodup_nil
  · simp [empty]

namespace Attends

theorem call (here : e.Attends s) (serves : e.Serves c)
    (known : s ∈ c.symbols) {k : Call α} (request : k.IsRequest) : (e.call k).Attends s := by
  have running : (e.call k).running s = e.running s := by
    rw [call_eq]
    rfl
  rw [Attends, running]
  refine here.imp_left ?_
  intro queued
  cases k with
  | submit t =>
      rcases e.queue_submit_cases t with same | ⟨-, -, pushed⟩
      · exact same ▸ queued
      · exact pushed ▸ List.mem_cons_of_mem t queued
  | recalculate first => exact (serves.linesUp_recalculate first).perm.mem_iff.mpr known
  | setParams p => exact queued
  | enqueue t | setQueue queue => exact request.elim

theorem dispatch (here : e.Attends s) (serves : e.Serves c)
    (known : s ∈ c.symbols) : e.dispatch.Attends s := by
  have registered := (serves.slot?_isSome_iff s).mpr known
  obtain ⟨-, same, -⟩ | ⟨t, rest, -, queue, unknown, dropped, -⟩ |
    ⟨t, rest, slot, -, queue, found, sent, -⟩ := e.dispatch_cases
  · rwa [same]
  · rw [dropped]
    refine here.imp_left ?_
    intro queued
    rw [queue, List.mem_cons] at queued
    refine queued.resolve_left ?_
    rintro rfl
    simp [unknown] at registered
  · rw [Attends, sent, send_queue, running_send]
    by_cases own : s = t
    · exact .inr (by rwa [if_pos own])
    · rw [if_neg own]
      refine here.imp_left ?_
      intro queued
      rw [queue, List.mem_cons] at queued
      exact queued.resolve_left own

end Attends

end Engine

variable [Scalar α]

/-- What may happen next as long as the owner leaves the queue to the engine. -/
inductive RequestStep : System α → System α → Prop where
  | call (e : Engine α) (h : History α) (k : Call α) (request : k.IsRequest) :
      RequestStep ⟨e, .idle, h⟩ ⟨e.call k, .idle, h⟩
  | update (e : Engine α) (h : History α) : RequestStep ⟨e, .idle, h⟩ ⟨e, .collecting false, h⟩
  | waitAll (e : Engine α) (h : History α) : RequestStep ⟨e, .idle, h⟩ ⟨e, .collecting true, h⟩
  | advance {σ τ : System α} (next : Advance σ τ) : RequestStep σ τ

abbrev RequestSteps : System α → System α → Prop :=
  Relation.ReflTransGen RequestStep

theorem RequestStep.step {σ τ : System α} (next : RequestStep σ τ) : Step σ τ := by
  cases next with
  | call e h k _ => exact .call e h k
  | update e h => exact .update e h
  | waitAll e h => exact .waitAll e h
  | advance next => exact .advance next

theorem requestSteps_of_advances {σ τ : System α} (run : Advances σ τ) : RequestSteps σ τ := by
  induction run with
  | refl => exact .refl
  | tail _ next ih => exact ih.tail (.advance next)

theorem Consistent.requestSteps {c : Collection α} {σ τ : System α}
    (inv : Consistent c σ.engine σ.history) (run : RequestSteps σ τ) :
    Consistent c τ.engine τ.history := by
  induction run with
  | refl => exact inv
  | tail _ next ih => exact ih.step next.step

namespace Engine

variable {c : Collection α} {σ τ : System α} {s : String}

theorem Orderly.requestStep (orderly : σ.engine.Orderly c)
    (inv : Consistent c σ.engine σ.history) (next : RequestStep σ τ) : τ.engine.Orderly c := by
  cases next with
  | call e h k request => exact orderly.call inv.serves request
  | update | waitAll => exact orderly
  | advance next =>
      cases next with
      | record | answer => exact orderly.congr (record_queue _ _)
      | drained => exact orderly
      | dispatch => exact orderly.dispatch
      | take => exact orderly.congr (by rw [take_eq])
      | post e φ h job busy => exact orderly.congr (by rw [post_of_current busy])

/-- A symbol that is attended to stays so until an answer for it is recorded. -/
theorem Attends.requestStep (inv : Consistent c σ.engine σ.history) (known : s ∈ c.symbols)
    (next : RequestStep σ τ) :
    ∃ more, τ.history.recorded = σ.history.recorded ++ more ∧
      (σ.engine.Attends s → τ.engine.Attends s ∨ ∃ r ∈ more, r.symbol = s) := by
  cases next with
  | call e h k request =>
      exact ⟨[], by simp, fun here => .inl (here.call inv.serves known request)⟩
  | update | waitAll => exact ⟨[], by simp, .inl⟩
  | advance next =>
      cases next with
      | record e h waiting r rest arrived | answer e h r rest arrived =>
          refine ⟨[r], rfl, fun here => ?_⟩
          rw [Attends, record_queue, running_record]
          by_cases own : s = r.symbol
          · exact .inr ⟨r, List.mem_singleton_self r, own.symm⟩
          · rw [if_neg own]
            exact .inl here
      | drained => exact ⟨[], by simp, .inl⟩
      | dispatch => exact ⟨[], by simp, fun here => .inl (here.dispatch inv.serves known)⟩
      | take =>
          exact ⟨[], by simp, fun here => .inl (here.congr (by rw [take_eq]) (by rw [take_eq]))⟩
      | post e φ h job busy =>
          have posted := post_of_current busy
          exact ⟨[], by simp,
            fun here => .inl (here.congr (by rw [posted]) (by rw [posted]))⟩

theorem Attends.requestSteps (here : σ.engine.Attends s)
    (inv : Consistent c σ.engine σ.history) (known : s ∈ c.symbols) (run : RequestSteps σ τ) :
    ∃ more, τ.history.recorded = σ.history.recorded ++ more ∧
      (τ.engine.Attends s ∨ ∃ r ∈ more, r.symbol = s) := by
  induction run with
  | refl => exact ⟨[], by simp, .inl here⟩
  | tail before next ih =>
      obtain ⟨earlier, recorded, so⟩ := ih
      obtain ⟨later, added, step⟩ := Attends.requestStep (inv.requestSteps before) known next
      refine ⟨earlier ++ later, by rw [added, recorded, List.append_assoc], ?_⟩
      rcases so with attended | ⟨r, mem, own⟩
      · refine (step attended).imp_right ?_
        rintro ⟨r, mem, own⟩
        exact ⟨r, List.mem_append_right _ mem, own⟩
      · exact .inr ⟨r, List.mem_append_left _ mem, own⟩

end Engine

theorem Consistent.isBusy_eq_false_iff {c : Collection α} {e : Engine α} {h : History α}
    (inv : Consistent c e h) : e.isBusy = false ↔ e.AtRest := by
  constructor
  · intro done
    have settled := inv.settled done
    simp only [Engine.isBusy, Bool.or_eq_false_iff] at done
    have nothing : e.replies ++ (e.current.toList ++ e.requests).map Job.reply = [] :=
      inv.traffic_eq_nil done.2
    simp only [List.append_eq_nil_iff, List.map_eq_nil_iff, Option.toList_eq_nil_iff] at nothing
    exact ⟨settled.queue, nothing.2.2, nothing.2.1, nothing.1, settled.running⟩
  · intro rest
    have nothing : e.traffic = [] := by
      simp [Engine.traffic, rest.replies, rest.current, rest.requests]
    have idle : e.hasRunning = false := by
      rw [Bool.eq_false_iff]
      intro running
      exact inv.hasRunning_iff.mp running nothing
    simp [Engine.isBusy, rest.queue, idle]

/-- What holds of the queue after what has been done, and what the calls make of it. -/
structure SoundQueue (c : Collection α) (e : Engine α) (h : History α) : Prop where
  nodup : e.queue.Nodup
  known : ∀ s ∈ e.queue, s ∈ c.symbols
  recalculated : ∀ queue first,
    c.LinesUp first (({ e with queue } : Engine α).recalculate first).queue
  submitted_iff : ∀ s, (e.submit s).2 = true ↔ s ∈ c.symbols
  attended : ∀ s ∈ c.symbols, (e.submit s).1.Attends s
  answered : ∀ s ∈ c.symbols, ∀ τ, RequestSteps ⟨(e.submit s).1, .idle, h⟩ τ →
    ∃ more, τ.history.recorded = h.recorded ++ more ∧
      (τ.engine.Attends s ∨ ∃ r ∈ more, r.symbol = s)
  isBusy_iff : e.isBusy = false ↔ e.AtRest
  update_isBusy_iff : e.update.isBusy = false ↔ e.update.AtRest

theorem Consistent.soundQueue {c : Collection α} {e : Engine α} {h : History α}
    (inv : Consistent c e h) (orderly : e.Orderly c) : SoundQueue c e h where
  nodup := orderly.nodup
  known := orderly.known
  recalculated queue first := (inv.call (.setQueue queue)).serves.linesUp_recalculate first
  submitted_iff := inv.serves.submit_eq_true_iff
  attended s known := inv.serves.attends_submit known
  answered s known τ run := (inv.serves.attends_submit known).requestSteps (inv.submit s) known run
  isBusy_iff := inv.isBusy_eq_false_iff
  update_isBusy_iff := by
    obtain ⟨h', run⟩ := update_advances e h false
    have updated : Consistent c e.update h' := inv.advances run
    exact updated.isBusy_eq_false_iff

theorem act_requestSteps {c : Collection α} {e : Engine α} {h : History α}
    (inv : Consistent c e h) (a : Action α) (request : ∀ k, a = .call k → k.IsRequest) :
    ∃ h', RequestSteps ⟨e, .idle, h⟩ ⟨e.act a, .idle, h'⟩ := by
  cases a with
  | call k => exact ⟨h, .single (.call e h k (request k rfl))⟩
  | update =>
      obtain ⟨h', run⟩ := update_advances e h false
      exact ⟨h', .head (.update e h) (requestSteps_of_advances run)⟩
  | waitAll =>
      obtain ⟨h', run, -⟩ := waitAll_advances e h inv
      exact ⟨h', .head (.waitAll e h) (requestSteps_of_advances run)⟩
  | take => exact ⟨h, requestSteps_of_advances (take_advances e .idle h)⟩
  | post =>
      obtain ⟨h', run⟩ := post_advances e .idle h
      exact ⟨h', requestSteps_of_advances run⟩

theorem acts_requestSteps {c : Collection α} {e : Engine α} {h : History α}
    (inv : Consistent c e h) (actions : List (Action α))
    (requests : ∀ k, .call k ∈ actions → k.IsRequest) :
    ∃ h', RequestSteps ⟨e, .idle, h⟩ ⟨actions.foldl Engine.act e, .idle, h'⟩ := by
  induction actions generalizing e h with
  | nil => exact ⟨h, .refl⟩
  | cons a rest ih =>
      obtain ⟨h₁, run⟩ := act_requestSteps inv a fun k eq => requests k (eq ▸ List.mem_cons_self)
      obtain ⟨h₂, later⟩ := ih (inv.requestSteps run)
        fun k mem => requests k (List.mem_cons_of_mem _ mem)
      exact ⟨h₂, run.trans later⟩

/-- The queue is sound wherever requests and steps of the worker lead, a call of `update` or
`waitAll` being cut into parts between which the worker may step; and whole calls lead to no other
states. -/
theorem requests_keep_queue_sound (c : Collection α) (p : Params α) :
    (∀ σ, RequestSteps (.start c p) σ → SoundQueue c σ.engine σ.history) ∧
      ∀ actions : List (Action α), (∀ k, .call k ∈ actions → k.IsRequest) →
        ∃ h, RequestSteps (.start c p)
          ⟨actions.foldl Engine.act (.ofCollection c p), .idle, h⟩ := by
  have start : Consistent c (.ofCollection c p) ⟨[], [], []⟩ := consistent_ofCollection c p
  constructor
  · intro σ run
    have orderly : σ.engine.Orderly c := by
      induction run with
      | refl => exact Engine.orderly_ofCollection c p
      | tail before next ih => exact ih.requestStep (start.requestSteps before) next
    exact (start.requestSteps run).soundQueue orderly
  · intro actions requests
    exact acts_requestSteps start actions requests

/-- Two symbols whose series have no bars. -/
def twoSymbols : Collection Float :=
  ⟨"two", 1, [emptySeries, { emptySeries with symbol := "B" }]⟩

/-- The job of a symbol is under way, and the symbol is queued again, before the other one. -/
def requeuedEngine : Engine Float :=
  [Action.call (.submit "B"), .update, .call (.recalculate (some "B"))].foldl Engine.act
    (.ofCollection twoSymbols .default)

theorem requests_keep_queue_sound_requeued :
    ∃ h, RequestSteps (.start twoSymbols .default) ⟨requeuedEngine, .idle, h⟩ ∧
      requeuedEngine.queue = ["B", "A"] ∧ requeuedEngine.running "B" = true ∧
      SoundQueue twoSymbols requeuedEngine h := by
  obtain ⟨sound, whole⟩ := requests_keep_queue_sound twoSymbols .default
  obtain ⟨h, run⟩ := whole
    [.call (.submit "B"), .update, .call (.recalculate (some "B"))] (by simp [Call.IsRequest])
  exact ⟨h, run, by decide +kernel, by decide +kernel, sound _ run⟩

end Trendline
