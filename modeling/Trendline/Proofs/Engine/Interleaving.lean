import Trendline.Proofs.Engine.Slots
import Mathlib.Logic.Relation

/-!
The owner of an engine and its worker as one system of steps. A call of `update` or `waitAll` is cut
into parts, so that the worker may step between any two of them. What a system has done is kept
beside it, and one invariant ties the marks of the symbols, what is under way and what is known to
it.
-/

namespace Trendline

variable {α : Type}

/-- A call that only changes what is to be done. The queue is open to its owner. -/
inductive Call (α : Type) where
  | submit (symbol : String)
  | recalculate (priority : Option String)
  | setParams (p : Params α)
  | enqueue (symbol : String)
  | setQueue (queue : List String)

/-- Where the owner of an engine stands. -/
inductive Phase where
  /-- Between two calls. -/
  | idle
  /-- In `update`, recording what has arrived; `waiting` if it is `waitAll` that called it. -/
  | collecting (waiting : Bool)
  /-- In `update`, past the recording. -/
  | dispatching (waiting : Bool)
  /-- In `waitAll`, until an answer arrives. -/
  | awaiting

/-- What has been done, in order. -/
structure History (α : Type) where
  /-- The symbols whose jobs were sent, with the parameters of that moment. -/
  sent : List (String × Params α)
  /-- The answers of the worker. -/
  posted : List (Reply α)
  /-- The answers that the owner has recorded. -/
  recorded : List (Reply α)

namespace History

/-- The jobs whose answers are recorded. -/
def done (h : History α) : List (String × Params α) :=
  h.sent.take h.recorded.length

/-- The jobs whose answers are still to be recorded. -/
def unanswered (h : History α) : List (String × Params α) :=
  h.sent.drop h.recorded.length

end History

structure System (α : Type) where
  engine : Engine α
  phase : Phase
  history : History α

namespace Engine

def call (e : Engine α) : Call α → Engine α
  | .submit s => (e.submit s).1
  | .recalculate priority => e.recalculate priority
  | .setParams p => e.setParams p
  | .enqueue s => e.enqueue s
  | .setQueue queue => { e with queue }

/-- The job that a dispatch sends, if it sends one. -/
def sending (e : Engine α) : List (String × Params α) :=
  match e.hasRunning, e.queue with
  | false, s :: _ => if (e.slot? s).isSome then [(s, e.params)] else []
  | _, _ => []

def phaseAfter (e : Engine α) (waiting : Bool) : Phase :=
  if waiting && e.isBusy then if e.hasRunning then .awaiting else .collecting true else .idle

/-- The answers that are still to be recorded, in the order in which they will arrive. -/
def traffic [Scalar α] (e : Engine α) : List (Reply α) :=
  e.replies ++ (e.current.toList ++ e.requests).map Job.reply

theorem withPriority_perm (symbols : List String) (priority : Option String) :
    (withPriority symbols priority).Perm symbols := by
  cases priority with
  | none => exact .refl symbols
  | some first =>
      simp only [withPriority]
      split
      · next known => exact (List.perm_cons_erase (List.contains_iff_mem.mp known)).symm
      · exact .refl symbols

theorem recalculate_eq (e : Engine α) (priority : Option String) :
    e.recalculate priority = { e with
      queue := withPriority e.symbols priority, log := (e.recalculate priority).log } := by
  cases priority with
  | none => rfl
  | some s =>
      simp only [recalculate]
      split <;> rfl

theorem call_eq (e : Engine α) (k : Call α) :
    e.call k = { e with
      queue := (e.call k).queue, params := (e.call k).params, log := (e.call k).log } := by
  cases k with
  | submit s =>
      simp only [call, submit]
      split
      · rfl
      · split <;> rfl
  | recalculate priority => rw [call, recalculate_eq]
  | setParams p | enqueue s | setQueue queue => rfl

/-- All that a dispatch can do: nothing, drop a symbol that is not known, or send a job. -/
theorem dispatch_cases (e : Engine α) :
    ((e.hasRunning = true ∨ e.queue = []) ∧ e.dispatch = e ∧ e.sending = []) ∨
    (∃ s rest, e.hasRunning = false ∧ e.queue = s :: rest ∧ e.slot? s = none ∧
      e.dispatch = { e with queue := rest } ∧ e.sending = []) ∨
    (∃ s rest slot, e.hasRunning = false ∧ e.queue = s :: rest ∧ e.slot? s = some slot ∧
      e.dispatch = { e with queue := rest }.send s ∧ e.sending = [(s, e.params)]) := by
  cases busy : e.hasRunning with
  | true => exact .inl ⟨.inl rfl, by simp [dispatch, busy], by simp [sending, busy]⟩
  | false =>
      cases hq : e.queue with
      | nil => exact .inl ⟨.inr rfl, by simp [dispatch, hq], by simp [sending, hq]⟩
      | cons s rest =>
          have sent : e.dispatch = { e with queue := rest }.send s := by simp [dispatch, busy, hq]
          cases found : e.slot? s with
          | none =>
              refine .inr (.inl ⟨s, rest, rfl, rfl, found, ?_, by simp [sending, busy, hq, found]⟩)
              rw [sent]
              exact send_of_unknown found
          | some slot =>
              exact .inr (.inr ⟨s, rest, slot, rfl, rfl, found, sent,
                by simp [sending, busy, hq, found]⟩)

theorem take_eq (e : Engine α) :
    e.take = { e with current := e.take.current, requests := e.take.requests } := by
  simp only [take]
  split <;> rfl

variable [Scalar α]

theorem traffic_take (e : Engine α) : e.take.traffic = e.traffic := by
  simp only [take]
  split
  · next free next => simp [traffic, free, next]
  · rfl

theorem post_of_current {e : Engine α} {job : Job α} (busy : e.current = some job) :
    e.post = { e with current := none, replies := e.replies ++ [job.reply] } := by
  simp only [post, busy]

theorem traffic_post (e : Engine α) : e.post.traffic = e.traffic := by
  cases busy : e.current with
  | none => simp only [post, busy]
  | some job => simp [post_of_current busy, traffic, busy]

end Engine

variable [Scalar α]

/-- A step inside a call, or of the worker. The worker may step wherever the owner stands. -/
inductive Advance : System α → System α → Prop where
  | record (e : Engine α) (h : History α) (waiting : Bool) (r : Reply α) (rest : List (Reply α))
      (arrived : e.replies = r :: rest) :
      Advance ⟨e, .collecting waiting, h⟩
        ⟨{ e with replies := rest }.record r, .collecting waiting,
          { h with recorded := h.recorded ++ [r] }⟩
  | drained (e : Engine α) (h : History α) (waiting : Bool) (none : e.replies = []) :
      Advance ⟨e, .collecting waiting, h⟩ ⟨e, .dispatching waiting, h⟩
  | dispatch (e : Engine α) (h : History α) (waiting : Bool) :
      Advance ⟨e, .dispatching waiting, h⟩
        ⟨e.dispatch, e.dispatch.phaseAfter waiting, { h with sent := h.sent ++ e.sending }⟩
  | answer (e : Engine α) (h : History α) (r : Reply α) (rest : List (Reply α))
      (arrived : e.replies = r :: rest) :
      Advance ⟨e, .awaiting, h⟩
        ⟨{ e with replies := rest }.record r, .collecting true,
          { h with recorded := h.recorded ++ [r] }⟩
  | take (e : Engine α) (φ : Phase) (h : History α) (job : Job α) (rest : List (Job α))
      (free : e.current = none) (next : e.requests = job :: rest) :
      Advance ⟨e, φ, h⟩ ⟨e.take, φ, h⟩
  | post (e : Engine α) (φ : Phase) (h : History α) (job : Job α) (busy : e.current = some job) :
      Advance ⟨e, φ, h⟩ ⟨e.post, φ, { h with posted := h.posted ++ [job.reply] }⟩

/-- What may happen next: between two calls the owner may also start another one. -/
inductive Step : System α → System α → Prop where
  | call (e : Engine α) (h : History α) (k : Call α) : Step ⟨e, .idle, h⟩ ⟨e.call k, .idle, h⟩
  | update (e : Engine α) (h : History α) : Step ⟨e, .idle, h⟩ ⟨e, .collecting false, h⟩
  | waitAll (e : Engine α) (h : History α) : Step ⟨e, .idle, h⟩ ⟨e, .collecting true, h⟩
  | advance {σ τ : System α} (next : Advance σ τ) : Step σ τ

abbrev Advances : System α → System α → Prop :=
  Relation.ReflTransGen Advance

abbrev Steps : System α → System α → Prop :=
  Relation.ReflTransGen Step

theorem steps_of_advances {σ τ : System α} (run : Advances σ τ) : Steps σ τ := by
  induction run with
  | refl => exact .refl
  | tail _ next ih => exact ih.tail (.advance next)

def System.start (c : Collection α) (p : Params α) : System α :=
  ⟨.ofCollection c p, .idle, ⟨[], [], []⟩⟩

/-- The system can come about from a new engine. -/
def Reachable (c : Collection α) (p : Params α) (σ : System α) : Prop :=
  Steps (.start c p) σ

/-- The marks, what is under way and what is known agree with what has been done. -/
structure Consistent (c : Collection α) (e : Engine α) (h : History α) : Prop where
  serves : e.Serves c
  single : e.traffic.length ≤ 1
  running : ∀ s, e.running s = true ↔ s ∈ e.traffic.map Reply.symbol
  answers : List.Forall₂ c.Answers h.sent (h.recorded ++ e.traffic)
  posted : h.posted = h.recorded ++ e.replies
  findings : e.findings = h.recorded.foldl Findings.record fun _ => .unknown

theorem consistent_ofCollection (c : Collection α) (p : Params α) :
    Consistent c (.ofCollection c p) ⟨[], [], []⟩ := by
  have empty : (Engine.ofCollection c p).traffic = [] := by
    rw [Engine.ofCollection_eq]
    rfl
  have replies : (Engine.ofCollection c p).replies = [] := by rw [Engine.ofCollection_eq]
  refine ⟨Engine.serves_ofCollection c p, ?_, ?_, ?_, ?_, Engine.findings_ofCollection c p⟩
  · simp [empty]
  · intro s
    simp [empty, Engine.running_ofCollection]
  · simp [empty]
  · simp [replies]

namespace Consistent

variable {c : Collection α} {e : Engine α} {h : History α}

theorem congr (inv : Consistent c e h) {e' : Engine α} (slots : e'.slots = e.slots)
    (traffic : e'.traffic = e.traffic) {posted : List (Reply α)}
    (hp : posted = h.recorded ++ e'.replies) : Consistent c e' { h with posted } := by
  refine ⟨inv.serves.congr slots, ?_, ?_, ?_, hp, ?_⟩
  · rw [traffic]
    exact inv.single
  · intro s
    rw [Engine.running_congr slots, traffic]
    exact inv.running s
  · rw [traffic]
    exact inv.answers
  · rw [Engine.findings_congr slots]
    exact inv.findings

theorem call (inv : Consistent c e h) (k : Call α) : Consistent c (e.call k) h := by
  rw [Engine.call_eq]
  exact inv.congr (by rfl) (by rfl) inv.posted

theorem hasRunning_iff (inv : Consistent c e h) : e.hasRunning = true ↔ e.traffic ≠ [] := by
  rw [inv.serves.hasRunning_iff]
  constructor
  · intro ⟨s, busy⟩ empty
    have mem := (inv.running s).mp busy
    simp [empty] at mem
  · intro some
    obtain ⟨r, rest, hr⟩ := List.exists_cons_of_ne_nil some
    exact ⟨r.symbol, (inv.running r.symbol).mpr (by simp [hr])⟩

theorem traffic_eq_nil (inv : Consistent c e h) (free : e.hasRunning = false) :
    e.traffic = [] := by
  have idle := inv.hasRunning_iff.not.mp (by simp [free])
  simpa using idle

/-- The first answer to arrive is the only one under way, and its symbol is known. -/
theorem arrived (inv : Consistent c e h) {r : Reply α} {rest : List (Reply α)}
    (hr : e.replies = r :: rest) :
    e.traffic = [r] ∧ rest = [] ∧ e.current = none ∧ e.requests = [] ∧
      (e.slot? r.symbol).isSome := by
  have single := inv.single
  have known := (inv.running r.symbol).mpr (by simp [Engine.traffic, hr])
  simp only [Engine.traffic, hr, List.cons_append, List.length_cons, List.length_append,
    List.length_map] at single
  have hrest : rest = [] := List.eq_nil_of_length_eq_zero (by omega)
  have hreq : e.requests = [] := List.eq_nil_of_length_eq_zero (by omega)
  have hcur : e.current = none := by
    cases hc : e.current with
    | none => rfl
    | some job => simp [hc] at single
  obtain ⟨slot, found, -⟩ := Engine.exists_slot_of_running known
  refine ⟨by simp [Engine.traffic, hr, hrest, hcur, hreq], hrest, hcur, hreq, ?_⟩
  rw [found, Option.isSome_some]

theorem traffic_record (inv : Consistent c e h) {r : Reply α} {rest : List (Reply α)}
    (hr : e.replies = r :: rest) : ({ e with replies := rest }.record r).traffic = [] := by
  obtain ⟨-, rfl, hcur, hreq, -⟩ := inv.arrived hr
  simp [Engine.traffic, hcur, hreq]

theorem findings_record (inv : Consistent c e h) {r : Reply α} {rest : List (Reply α)}
    (hr : e.replies = r :: rest) :
    ({ e with replies := rest }.record r).findings = e.findings.record r := by
  obtain ⟨-, -, -, -, known⟩ := inv.arrived hr
  rw [Engine.record_with_replies, ← Engine.findings_record known]
  rfl

theorem record (inv : Consistent c e h) {r : Reply α} {rest : List (Reply α)}
    (hr : e.replies = r :: rest) :
    Consistent c ({ e with replies := rest }.record r)
      { h with recorded := h.recorded ++ [r] } := by
  have before : e.traffic = [r] := (inv.arrived hr).1
  have after := inv.traffic_record hr
  have serves : ({ e with replies := rest } : Engine α).Serves c := inv.serves.congr rfl
  refine ⟨serves.record r, by simp [after], ?_, ?_, ?_, ?_⟩
  · intro s
    have marked : ({ e with replies := rest } : Engine α).running s = true ↔ _ := inv.running s
    rw [before] at marked
    rw [after, Engine.running_record]
    by_cases own : s = r.symbol
    · simp [own]
    · simpa [own] using marked
  · rw [after, List.append_nil, ← before]
    exact inv.answers
  · simp [inv.posted, hr]
  · rw [inv.findings_record hr, inv.findings, List.foldl_append]
    rfl

theorem traffic_send (inv : Consistent c e h) (free : e.hasRunning = false) {s : String}
    {slot : Slot α} (found : e.slot? s = some slot) :
    e.traffic = [] ∧ (e.send s).traffic = [⟨s, slot.series.analyze e.params⟩] := by
  have before : e.traffic = [] := inv.traffic_eq_nil free
  have none : e.replies ++ (e.current.toList ++ e.requests).map Job.reply = [] := before
  simp only [List.append_eq_nil_iff, List.map_eq_nil_iff] at none
  rw [Engine.send_of_slot? found]
  exact ⟨before, by simp [Engine.traffic, none, Job.reply]⟩

theorem send (inv : Consistent c e h) (free : e.hasRunning = false) {s : String} {slot : Slot α}
    (found : e.slot? s = some slot) :
    Consistent c (e.send s) { h with sent := h.sent ++ [(s, e.params)] } := by
  have series : c.find? s = some slot.series := inv.serves.find?_of_slot? found
  obtain ⟨before, after⟩ := inv.traffic_send free found
  refine ⟨inv.serves.send s, by simp [after], ?_, ?_, ?_, ?_⟩
  · intro t
    have marked := inv.running t
    rw [before] at marked
    rw [after, Engine.running_send]
    by_cases own : t = s
    · simp [own, found]
    · simpa [own] using marked
  · have answers := inv.answers
    rw [before, List.append_nil] at answers
    rw [after]
    exact List.rel_append answers (.cons ⟨rfl, slot.series, series, rfl⟩ .nil)
  · rw [Engine.send_of_slot? found]
    exact inv.posted
  · rw [Engine.findings_send]
    exact inv.findings

theorem dispatch (inv : Consistent c e h) :
    Consistent c e.dispatch { h with sent := h.sent ++ e.sending } := by
  obtain ⟨-, same, sending⟩ | ⟨s, rest, -, -, -, dropped, sending⟩ |
    ⟨s, rest, slot, free, -, found, sent, sending⟩ := e.dispatch_cases
  · rw [same, sending, List.append_nil]
    exact inv
  · rw [dropped, sending, List.append_nil]
    exact inv.call (.setQueue rest)
  · rw [sent, sending]
    have popped : Consistent c { e with queue := rest } h := inv.call (.setQueue rest)
    exact popped.send free found

theorem take (inv : Consistent c e h) : Consistent c e.take h := by
  refine inv.congr ?_ (Engine.traffic_take e) ?_
  · rw [Engine.take_eq]
  · rw [Engine.take_eq]
    exact inv.posted

theorem post (inv : Consistent c e h) {job : Job α} (busy : e.current = some job) :
    Consistent c e.post { h with posted := h.posted ++ [job.reply] } := by
  refine inv.congr ?_ (Engine.traffic_post e) ?_
  · rw [Engine.post_of_current busy]
  · simp [Engine.post_of_current busy, inv.posted]

theorem advance {σ τ : System α} (inv : Consistent c σ.engine σ.history) (next : Advance σ τ) :
    Consistent c τ.engine τ.history := by
  cases next with
  | record e h waiting r rest arrived | answer e h r rest arrived => exact inv.record arrived
  | drained => exact inv
  | dispatch => exact inv.dispatch
  | take => exact inv.take
  | post e φ h job busy => exact inv.post busy

theorem advances {σ τ : System α} (inv : Consistent c σ.engine σ.history)
    (run : Advances σ τ) : Consistent c τ.engine τ.history := by
  induction run with
  | refl => exact inv
  | tail _ next ih => exact ih.advance next

theorem step {σ τ : System α} (inv : Consistent c σ.engine σ.history) (next : Step σ τ) :
    Consistent c τ.engine τ.history := by
  cases next with
  | call e h k => exact inv.call k
  | update | waitAll => exact inv
  | advance next => exact inv.advance next

theorem unanswered (inv : Consistent c e h) : List.Forall₂ c.Answers h.unanswered e.traffic :=
  List.forall₂_drop_append _ _ _ inv.answers

theorem done (inv : Consistent c e h) : List.Forall₂ c.Answers h.done h.recorded :=
  List.forall₂_take_append _ _ _ inv.answers

theorem of_reachable {p : Params α} {σ : System α} (reachable : Reachable c p σ) :
    Consistent c σ.engine σ.history := by
  induction reachable with
  | refl => exact consistent_ofCollection c p
  | tail _ next ih => exact ih.step next

end Consistent

end Trendline
