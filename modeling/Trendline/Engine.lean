import Trendline.Analysis
import Trendline.Collection

/-!
An engine that keeps the latest analysis of each symbol. Symbols wait in a queue; one at a time is
sent to a worker, which answers each job once. Jobs and answers travel in order and are not lost, so
that the engine, the worker and what is under way between them make up one state, and a step of the
worker may come between any two calls.
-/
namespace Trendline

/-- What the engine reports while it works. -/
inductive Event (α : Type) where
  /-- A further series of a symbol was passed over. -/
  | duplicate (symbol : String)
  /-- The symbol that should have come first is not known. -/
  | unknownPriority (symbol : String)
  | recalculation (count : Nat) (head : Option String)
  /-- A symbol that is not known was submitted. -/
  | unknownSymbol (symbol : String)
  | failed (symbol : String) (e : Error α)
  deriving Repr, DecidableEq

/-- A symbol with its series and what is known of it. -/
structure Slot (α : Type) where
  series : Series α
  /-- Whether the symbol is being worked on. -/
  running : Bool
  /-- The latest analysis that succeeded. -/
  analysis : Option (Analysis α)
  /-- Why the latest attempt failed, if it did. -/
  lastError : Option (Error α)
  deriving Repr, DecidableEq

def Slot.symbol {α : Type} (slot : Slot α) : String :=
  slot.series.symbol

/-- A request to the worker, with the parameters at the time it was sent. -/
structure Job (α : Type) where
  symbol : String
  series : Series α
  params : Params α
  deriving Repr, DecidableEq

/-- The answer of the worker to a job. -/
structure Reply (α : Type) where
  symbol : String
  outcome : Except (Error α) (Analysis α)

/-- The answer to a job. -/
def Job.reply {α : Type} [Scalar α] (job : Job α) : Reply α :=
  ⟨job.symbol, job.series.analyze job.params⟩

structure Engine (α : Type) where
  /-- One slot for each symbol. -/
  slots : List (Slot α)
  queue : List String
  /-- The parameters of the next job that is sent. -/
  params : Params α
  /-- The jobs on their way to the worker. -/
  requests : List (Job α)
  /-- The job that the worker has taken. -/
  current : Option (Job α)
  /-- The answers on their way to the engine. -/
  replies : List (Reply α)
  /-- What was reported, last first. -/
  log : List (Event α)

namespace Engine

variable {α : Type}

def slot? (e : Engine α) (symbol : String) : Option (Slot α) :=
  e.slots.find? (·.symbol = symbol)

def updateSlot (e : Engine α) (symbol : String) (f : Slot α → Slot α) : Engine α :=
  { e with slots := e.slots.map fun slot => if slot.symbol = symbol then f slot else slot }

def report (e : Engine α) (event : Event α) : Engine α :=
  { e with log := event :: e.log }

/-- Adds a slot for a series, unless its symbol has one. -/
def addSeries (e : Engine α) (s : Series α) : Engine α :=
  if (e.slot? s.symbol).isSome then e.report (.duplicate s.symbol)
  else { e with slots := e.slots ++ [⟨s, false, none, none⟩] }

/-- An idle engine for the first series of each symbol. -/
def ofCollection (c : Collection α) (p : Params α) : Engine α :=
  c.series.foldl addSeries ⟨[], [], p, [], none, [], []⟩

/-- The symbols in order. -/
def symbols (e : Engine α) : List String :=
  (Ascending.ofList (e.slots.map Slot.symbol)).toList

def analysis? (e : Engine α) (symbol : String) : Option (Analysis α) :=
  (e.slot? symbol).bind (·.analysis)

/-- Whether a symbol is being worked on, and why its latest attempt failed. -/
def status (e : Engine α) (symbol : String) : Bool × Option (Error α) :=
  match e.slot? symbol with
  | some slot => (slot.running, slot.lastError)
  | none => (false, none)

def hasRunning (e : Engine α) : Bool :=
  e.slots.any (·.running)

/-- Whether anything is queued or running. -/
def isBusy (e : Engine α) : Bool :=
  !e.queue.isEmpty || e.hasRunning

/-- What the engine is doing, in words. -/
def statusText? (e : Engine α) : Option String :=
  match e.slots.find? (·.running) with
  | some slot => some ("Processing " ++ slot.symbol)
  | none => if e.queue.isEmpty then none else some ("Queued: " ++ natText e.queue.length)

/-! Calls that change what is to be done -/

def setParams (e : Engine α) (p : Params α) : Engine α :=
  { e with params := p }

/-- Puts a symbol at the end of the queue, known or not. -/
def enqueue (e : Engine α) (symbol : String) : Engine α :=
  { e with queue := e.queue ++ [symbol] }

/-- The symbols in order, but one of them first, if it is among them. -/
def withPriority (symbols : List String) : Option String → List String
  | none => symbols
  | some first => if symbols.contains first then first :: symbols.erase first else symbols

/-- Queues every symbol anew, the given one first. -/
def recalculate (e : Engine α) (priority : Option String) : Engine α :=
  let queue := withPriority e.symbols priority
  let e := { e with queue }
  let e :=
    match priority with
    | some symbol => if e.symbols.contains symbol then e else e.report (.unknownPriority symbol)
    | none => e
  e.report (.recalculation queue.length queue.head?)

/-- Puts a symbol at the front of the queue, unless it is queued or running; false if it is not
known. -/
def submit (e : Engine α) (symbol : String) : Engine α × Bool :=
  match e.slot? symbol with
  | none => (e.report (.unknownSymbol symbol), false)
  | some slot =>
      if slot.running || e.queue.contains symbol then (e, true)
      else ({ e with queue := symbol :: e.queue }, true)

/-! Collecting answers and sending jobs -/

/-- Records an answer. A failure leaves the analysis before it in place. -/
def record (e : Engine α) (reply : Reply α) : Engine α :=
  match e.slot? reply.symbol with
  | none => e
  | some _ =>
      match reply.outcome with
      | .ok a =>
          e.updateSlot reply.symbol fun slot =>
            { slot with running := false, analysis := some a, lastError := none }
      | .error err =>
          (e.report (.failed reply.symbol err)).updateSlot reply.symbol fun slot =>
            { slot with running := false, lastError := some err }

/-- Records every answer that has arrived. -/
def collect (e : Engine α) : Engine α :=
  e.replies.foldl record { e with replies := [] }

/-- Sends the job of a symbol to the worker. A symbol that is not known is dropped. -/
def send (e : Engine α) (symbol : String) : Engine α :=
  match e.slot? symbol with
  | none => e
  | some slot =>
      let job : Job α := ⟨symbol, slot.series, e.params⟩
      { e with requests := e.requests ++ [job] }.updateSlot symbol fun slot =>
        { slot with running := true }

/-- Takes the next symbol off the queue and sends its job, unless one is running. -/
def dispatch (e : Engine α) : Engine α :=
  if e.hasRunning then e
  else
    match e.queue with
    | [] => e
    | symbol :: rest => { e with queue := rest }.send symbol

/-- Records what has arrived and sends the next job. -/
def update (e : Engine α) : Engine α :=
  e.collect.dispatch

/-- A bound on the rounds that are left: each takes a symbol off the queue, or a job or an answer one
step further. -/
def pending (e : Engine α) : Nat :=
  2 * e.queue.length + e.requests.length + e.current.toList.length + e.replies.length

theorem pending_record (e : Engine α) (reply : Reply α) : (e.record reply).pending = e.pending := by
  unfold record
  split
  · rfl
  · split <;> rfl

theorem pending_collect (e : Engine α) : e.collect.pending ≤ e.pending := by
  have h (replies : List (Reply α)) (e : Engine α) :
      (replies.foldl record e).pending = e.pending := by
    induction replies generalizing e with
    | nil => rfl
    | cons reply rest ih => rw [List.foldl_cons, ih, pending_record]
  rw [collect, h]
  simp [pending]

theorem pending_send (e : Engine α) (symbol : String) : (e.send symbol).pending ≤ e.pending + 1 := by
  unfold send
  split
  · omega
  · simp only [updateSlot, pending, List.length_append, List.length_singleton]
    omega

theorem pending_dispatch (e : Engine α) : e.dispatch.pending ≤ e.pending := by
  unfold dispatch
  split
  · exact Nat.le_refl _
  · split
    · exact Nat.le_refl _
    · next symbol rest h =>
        have := pending_send { e with queue := rest } symbol
        simp only [pending, h, List.length_cons] at this ⊢
        omega

theorem pending_update (e : Engine α) : e.update.pending ≤ e.pending :=
  Nat.le_trans (pending_dispatch _) (pending_collect e)

/-- A dispatch after which nothing runs has shortened the queue. -/
theorem pending_dispatch_lt {e : Engine α} (busy : e.dispatch.isBusy)
    (idle : e.dispatch.hasRunning = false) : e.dispatch.pending < e.pending := by
  cases hr : e.hasRunning with
  | true => simp [dispatch, hr] at idle
  | false =>
      cases hq : e.queue with
      | nil => simp [dispatch, hr, hq, isBusy] at busy
      | cons symbol rest =>
          have := pending_send { e with queue := rest } symbol
          simp only [dispatch, hr, hq, pending, List.length_cons] at this ⊢
          simp only [Bool.false_eq_true, if_false]
          omega

/-! Steps of the worker -/

/-- The worker takes the next job, if it has none. -/
def take (e : Engine α) : Engine α :=
  match e.current, e.requests with
  | none, job :: rest => { e with current := some job, requests := rest }
  | _, _ => e

variable [Scalar α]

/-- The worker does the job it has and sends its answer. -/
def post (e : Engine α) : Engine α :=
  match e.current with
  | none => e
  | some job => { e with current := none, replies := e.replies ++ [job.reply] }

/-- The worker does one job, if there is one. -/
def work (e : Engine α) : Engine α :=
  e.take.post

theorem pending_work (e : Engine α) : e.work.pending = e.pending := by
  have hp (e : Engine α) : e.post.pending = e.pending := by
    unfold post
    split
    · rfl
    · next h =>
        simp [pending, h]
        omega
  rw [work, hp]
  unfold take
  split
  · next hc hr =>
      simp [pending, hc, hr]
      omega
  · rfl

/-- Waits for one answer and records it; none if no answer can come. -/
def await? (e : Engine α) : Option (Engine α) :=
  let e := if e.replies.isEmpty then e.work else e
  match e.replies with
  | [] => none
  | reply :: rest => some ({ e with replies := rest }.record reply)

theorem pending_await? {e e' : Engine α} (h : e.await? = some e') : e'.pending < e.pending := by
  have hw : (if e.replies.isEmpty then e.work else e).pending = e.pending := by
    split
    · exact pending_work e
    · rfl
  unfold await? at h
  generalize (if e.replies.isEmpty then e.work else e) = w at h hw
  simp only at h
  split at h
  · cases h
  · next reply rest hr =>
      cases h
      rw [pending_record, ← hw]
      simp [pending, hr]

/-- Works until nothing is queued or running. -/
def waitAll (e : Engine α) : Engine α :=
  if _busy : e.update.isBusy then
    if _running : e.update.hasRunning then
      match _answer : e.update.await? with
      | none => e.update
      | some e => e.waitAll
    else
      e.update.waitAll
  else
    e.update
termination_by e.pending
decreasing_by
  · exact Nat.lt_of_lt_of_le (pending_await? _answer) (pending_update _)
  · exact Nat.lt_of_lt_of_le (pending_dispatch_lt _busy (Bool.eq_false_iff.2 _running))
      (pending_collect _)

end Engine

end Trendline
