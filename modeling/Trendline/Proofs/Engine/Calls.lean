import Trendline.Proofs.Engine.Interleaving

/-!
Whole calls as runs of steps: `update`, and `waitAll` with a worker that does its job when it is
needed.
-/

namespace Trendline

variable {α : Type}

namespace Engine

theorem collect_of_nil {e : Engine α} (none : e.replies = []) : e.collect = e := by
  simp only [collect, none, List.foldl_nil]
  rw [← none]

theorem collect_of_cons {e : Engine α} {r : Reply α} {rest : List (Reply α)}
    (arrived : e.replies = r :: rest) :
    e.collect = ({ e with replies := rest }.record r).collect := by
  rw [collect, arrived, List.foldl_cons, collect, record_replies, record_with_replies,
    record_with_replies e r rest]

end Engine

variable [Scalar α]

theorem collect_advances (e : Engine α) (h : History α) (waiting : Bool) :
    ∃ h', Advances ⟨e, .collecting waiting, h⟩ ⟨e.collect, .dispatching waiting, h'⟩ := by
  generalize arrived : e.replies = rs
  induction rs generalizing e h with
  | nil =>
      rw [Engine.collect_of_nil arrived]
      exact ⟨h, .single (.drained e h waiting arrived)⟩
  | cons r rest ih =>
      obtain ⟨h', run⟩ := ih ({ e with replies := rest }.record r)
        { h with recorded := h.recorded ++ [r] } (Engine.record_replies _ _)
      rw [Engine.collect_of_cons arrived]
      exact ⟨h', .head (.record e h waiting r rest arrived) run⟩

theorem update_advances (e : Engine α) (h : History α) (waiting : Bool) :
    ∃ h', Advances ⟨e, .collecting waiting, h⟩ ⟨e.update, e.update.phaseAfter waiting, h'⟩ := by
  obtain ⟨h', run⟩ := collect_advances e h waiting
  exact ⟨_, run.tail (.dispatch e.collect h' waiting)⟩

theorem take_advances (e : Engine α) (φ : Phase) (h : History α) :
    Advances ⟨e, φ, h⟩ ⟨e.take, φ, h⟩ := by
  cases free : e.current with
  | some job =>
      rw [show e.take = e by simp [Engine.take, free]]
  | none =>
      cases next : e.requests with
      | nil => rw [show e.take = e by simp [Engine.take, free, next]]
      | cons job rest => exact .single (.take e φ h job rest free next)

theorem post_advances (e : Engine α) (φ : Phase) (h : History α) :
    ∃ h', Advances ⟨e, φ, h⟩ ⟨e.post, φ, h'⟩ := by
  cases busy : e.current with
  | none =>
      rw [show e.post = e by simp [Engine.post, busy]]
      exact ⟨h, .refl⟩
  | some job => exact ⟨_, .single (.post e φ h job busy)⟩

theorem work_advances (e : Engine α) (φ : Phase) (h : History α) :
    ∃ h', Advances ⟨e, φ, h⟩ ⟨e.work, φ, h'⟩ := by
  obtain ⟨h', run⟩ := post_advances e.take φ h
  exact ⟨h', (take_advances e φ h).trans run⟩

theorem Engine.replies_work_ne_nil {e : Engine α} (some : e.traffic ≠ []) :
    e.work.replies ≠ [] := by
  cases busy : e.current with
  | some job => simp [work, take, post, busy]
  | none =>
      cases next : e.requests with
      | cons job rest => simp [work, take, post, busy, next]
      | nil =>
          simp only [traffic, busy, next, Option.toList_none, List.append_nil, List.map_nil] at some
          simpa [work, take, post, busy, next] using some

theorem await?_advances {c : Collection α} {e : Engine α} {h : History α}
    (inv : Consistent c e h) (running : e.hasRunning = true) :
    ∃ e' h', e.await? = some e' ∧ Advances ⟨e, .awaiting, h⟩ ⟨e', .collecting true, h'⟩ := by
  have some := inv.hasRunning_iff.mp running
  have ready : ∃ e₁ h₁ r rest, (if e.replies.isEmpty then e.work else e) = e₁ ∧
      e₁.replies = r :: rest ∧ Advances ⟨e, .awaiting, h⟩ ⟨e₁, .awaiting, h₁⟩ := by
    cases arrived : e.replies with
    | cons r rest => exact ⟨e, h, r, rest, rfl, arrived, .refl⟩
    | nil =>
        obtain ⟨h₁, run⟩ := work_advances e .awaiting h
        obtain ⟨r, rest, hr⟩ := List.exists_cons_of_ne_nil (Engine.replies_work_ne_nil some)
        exact ⟨e.work, h₁, r, rest, rfl, hr, run⟩
  obtain ⟨e₁, h₁, r, rest, he, hr, run⟩ := ready
  refine ⟨{ e₁ with replies := rest }.record r, _, ?_, run.tail (.answer e₁ h₁ r rest hr)⟩
  simp only [Engine.await?, he, hr]

namespace Engine

theorem waitAll_of_done {e : Engine α} (done : ¬e.update.isBusy = true) : e.waitAll = e.update := by
  rw [waitAll, dif_neg done]

theorem waitAll_of_idle {e : Engine α} (busy : e.update.isBusy = true)
    (idle : ¬e.update.hasRunning = true) : e.waitAll = e.update.waitAll := by
  rw [waitAll, dif_pos busy, dif_neg idle]

theorem waitAll_of_answer {e e' : Engine α} (busy : e.update.isBusy = true)
    (running : e.update.hasRunning = true) (answer : e.update.await? = some e') :
    e.waitAll = e'.waitAll := by
  rw [waitAll, dif_pos busy, dif_pos running]
  split
  · next none => rw [answer] at none; cases none
  · next e'' some => rw [answer] at some; cases some; rfl

end Engine

theorem waitAll_advances {c : Collection α} (e : Engine α) (h : History α) (inv : Consistent c e h) :
    ∃ h', Advances ⟨e, .collecting true, h⟩ ⟨e.waitAll, .idle, h'⟩ ∧
      e.waitAll.isBusy = false := by
  induction e using Engine.waitAll.induct generalizing h with
  | case1 e busy running none =>
      obtain ⟨h₁, run⟩ := update_advances e h true
      obtain ⟨e', h₂, answer, -⟩ := await?_advances (inv.advances run) running
      rw [none] at answer
      cases answer
  | case2 e busy running e' answer ih =>
      obtain ⟨h₁, run⟩ := update_advances e h true
      have inv₁ : Consistent c e.update h₁ := inv.advances run
      obtain ⟨e'', h₂, answer', waited⟩ := await?_advances inv₁ running
      cases answer.symm.trans answer'
      obtain ⟨h₃, rest, done⟩ := ih h₂ (inv₁.advances waited)
      rw [Engine.waitAll_of_answer busy running answer]
      simp only [Engine.phaseAfter, busy, running, Bool.and_self, if_true] at run
      exact ⟨h₃, run.trans (waited.trans rest), done⟩
  | case3 e busy idle ih =>
      obtain ⟨h₁, run⟩ := update_advances e h true
      obtain ⟨h₂, rest, done⟩ := ih h₁ (inv.advances run)
      rw [Engine.waitAll_of_idle busy idle]
      simp only [Engine.phaseAfter, busy, idle, Bool.and_self, if_true] at run
      exact ⟨h₂, run.trans rest, done⟩
  | case4 e done =>
      obtain ⟨h₁, run⟩ := update_advances e h true
      rw [Engine.waitAll_of_done done]
      simp only [Engine.phaseAfter, done, Bool.true_and] at run
      exact ⟨h₁, run, by simpa using done⟩

/-- A whole call of the owner, or a step of the worker. -/
inductive Action (α : Type) where
  | call (k : Call α)
  | update
  | waitAll
  | take
  | post

def Engine.act (e : Engine α) : Action α → Engine α
  | .call k => e.call k
  | .update => e.update
  | .waitAll => e.waitAll
  | .take => e.take
  | .post => e.post

theorem act_steps {c : Collection α} {e : Engine α} {h : History α} (inv : Consistent c e h)
    (a : Action α) : ∃ h', Steps ⟨e, .idle, h⟩ ⟨e.act a, .idle, h'⟩ := by
  cases a with
  | call k => exact ⟨h, .single (.call e h k)⟩
  | update =>
      obtain ⟨h', run⟩ := update_advances e h false
      exact ⟨h', .head (.update e h) (steps_of_advances run)⟩
  | waitAll =>
      obtain ⟨h', run, -⟩ := waitAll_advances e h inv
      exact ⟨h', .head (.waitAll e h) (steps_of_advances run)⟩
  | take => exact ⟨h, steps_of_advances (take_advances e .idle h)⟩
  | post =>
      obtain ⟨h', run⟩ := post_advances e .idle h
      exact ⟨h', steps_of_advances run⟩

theorem acts_reachable {c : Collection α} {p : Params α} {e : Engine α} {h : History α}
    (reachable : Reachable c p ⟨e, .idle, h⟩) (actions : List (Action α)) :
    ∃ h', Reachable c p ⟨actions.foldl Engine.act e, .idle, h'⟩ := by
  induction actions generalizing e h with
  | nil => exact ⟨h, reachable⟩
  | cons a rest ih =>
      obtain ⟨h₁, run⟩ := act_steps (.of_reachable reachable) a
      exact ih (reachable.trans run)

def emptySeries : Series Float := ⟨"A", 0, #[], #[], #[], #[], #[], #[]⟩

/-- One symbol, given twice, whose series has no bars. -/
def oneSymbol : Collection Float := ⟨"one", 1, [emptySeries, emptySeries]⟩

/-- Parameters that are refused. -/
def withoutLookbacks : Params Float := { Params.default with lookbacks := [] }

def withZeroLookback : Params Float := { Params.default with lookbacks := [0] }

end Trendline
