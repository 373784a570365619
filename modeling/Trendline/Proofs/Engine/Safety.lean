import Trendline.Proofs.Engine.Calls

/-!
What holds wherever calls and steps of the worker have led: one job at most, marks that tell the
truth, and an analysis of each symbol that is its latest success.
-/

namespace Trendline

variable {α : Type} [Scalar α]

/-- The state of an engine after what has been done. The answers are given one for each job that was
sent, recorded in the order in which they were posted, each once and for its own symbol. -/
structure Safe (c : Collection α) (e : Engine α) (h : History α) : Prop where
  one_job : e.requests.length + e.current.toList.length + e.replies.length ≤ 1
  one_running : ∀ s t, e.running s = true → e.running t = true → s = t
  running_iff : ∀ s, e.running s = true ↔
    s ∈ e.requests.map Job.symbol ++ e.current.toList.map Job.symbol ++ e.replies.map Reply.symbol
  posted_eq : h.posted = h.recorded ++ e.replies
  answers : List.Forall₂ c.Answers (h.sent.take h.posted.length) h.posted
  findings_eq : e.findings = h.recorded.foldl Findings.record fun _ => .unknown
  analysis_isSome_iff : ∀ s, (e.analysis? s).isSome ↔
    ∃ r ∈ h.recorded, r.symbol = s ∧ ∃ a, r.outcome = .ok a
  analysis_iff : ∀ s a, e.analysis? s = some a ↔ c.LatestSuccess h.done s a

theorem Consistent.safe {c : Collection α} {e : Engine α} {h : History α}
    (inv : Consistent c e h) : Safe c e h where
  one_job := by
    have single := inv.single
    simp only [Engine.traffic, List.length_append, List.length_map] at single
    omega
  one_running := by
    intro s t hs ht
    have ms := (inv.running s).mp hs
    have mt := (inv.running t).mp ht
    have single := inv.single
    cases traffic : e.traffic with
    | nil => rw [traffic] at ms; cases ms
    | cons r rest =>
        have alone : rest = [] := by
          rw [traffic, List.length_cons] at single
          exact List.eq_nil_of_length_eq_zero (by omega)
        simp only [traffic, alone, List.map_cons, List.map_nil, List.mem_singleton] at ms mt
        rw [ms, mt]
  running_iff := by
    intro s
    rw [inv.running s, Engine.traffic]
    simp only [List.map_append, List.map_map, List.mem_append]
    have symbols : Reply.symbol ∘ Job.reply = (Job.symbol : Job α → String) := rfl
    rw [symbols]
    tauto
  posted_eq := inv.posted
  answers := by
    have answers := inv.answers
    rw [Engine.traffic, ← List.append_assoc, ← inv.posted] at answers
    exact List.forall₂_take_append _ _ _ answers
  findings_eq := inv.findings
  analysis_isSome_iff := by
    intro s
    change (e.findings s).analysis.isSome ↔ _
    rw [inv.findings, Findings.isSome_foldl_record]
    simp [Finding.unknown]
  analysis_iff := by
    intro s a
    change (e.findings s).analysis = some a ↔ _
    rw [inv.findings, Findings.foldl_record_eq inv.done, Findings.analysis_foldl_attempt]

/-- Every state is safe that calls and steps of the worker lead to, a call of `update` or `waitAll`
being cut into parts between which the worker may step; and whole calls lead to no other states. -/
theorem reachable_safe (c : Collection α) (p : Params α) :
    (∀ σ, Reachable c p σ → Safe c σ.engine σ.history) ∧
      ∀ actions : List (Action α), ∃ h,
        Reachable c p ⟨actions.foldl Engine.act (.ofCollection c p), .idle, h⟩ := by
  constructor
  · intro σ reachable
    exact (Consistent.of_reachable reachable).safe
  · intro actions
    exact acts_reachable .refl actions

/-- The worker has the job of a symbol that has been queued again. -/
def busyEngine : Engine Float :=
  [Action.call (.submit "A"), .update, .take, .call (.recalculate none)].foldl Engine.act
    (.ofCollection oneSymbol .default)

theorem reachable_safe_busy :
    ∃ h, Reachable oneSymbol .default ⟨busyEngine, .idle, h⟩ ∧
      busyEngine.running "A" = true ∧ Safe oneSymbol busyEngine h := by
  obtain ⟨h, reachable⟩ := (reachable_safe oneSymbol .default).2
    [.call (.submit "A"), .update, .take, .call (.recalculate none)]
  exact ⟨h, reachable, rfl, (reachable_safe oneSymbol .default).1 _ reachable⟩

end Trendline
