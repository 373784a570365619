import Trendline.Proofs.Engine.Calls

/-!
What will be known once everything under way and everything queued has been tried. Neither the parts
of a call nor the steps of the worker change it, so that `waitAll` can only end with it.
-/

namespace Trendline

variable {α : Type} [Scalar α]

namespace Engine

/-- What will be known when all that is under way and then all that is queued has been tried. -/
def outlook (c : Collection α) (e : Engine α) : Findings α :=
  (e.queue.map (·, e.params)).foldl (Findings.attempt c)
    (e.traffic.foldl Findings.record e.findings)

/-- Nothing is left to do, and this is known. -/
structure Settled (F : Findings α) (e : Engine α) : Prop where
  queue : e.queue = []
  running : ∀ s, e.running s = false
  findings : e.findings = F

theorem outlook_congr {c : Collection α} {e e' : Engine α} (queue : e'.queue = e.queue)
    (params : e'.params = e.params) (traffic : e'.traffic = e.traffic)
    (findings : e'.findings = e.findings) : e'.outlook c = e.outlook c := by
  rw [outlook, outlook, queue, params, traffic, findings]

end Engine

namespace Consistent

variable {c : Collection α} {e : Engine α} {h : History α}

theorem outlook_eq (inv : Consistent c e h) :
    e.outlook c
      = (h.unanswered ++ e.queue.map (·, e.params)).foldl (Findings.attempt c) e.findings := by
  rw [Engine.outlook, Findings.foldl_record_eq inv.unanswered, List.foldl_append]

theorem outlook_record (inv : Consistent c e h) {r : Reply α} {rest : List (Reply α)}
    (hr : e.replies = r :: rest) :
    ({ e with replies := rest }.record r).outlook c = e.outlook c := by
  rw [Engine.outlook, Engine.outlook, inv.traffic_record hr, inv.findings_record hr,
    (inv.arrived hr).1, Engine.record_queue, Engine.record_params]
  rfl

theorem outlook_dispatch (inv : Consistent c e h) : e.dispatch.outlook c = e.outlook c := by
  obtain ⟨-, same, -⟩ | ⟨s, rest, -, hq, unknown, dropped, -⟩ |
    ⟨s, rest, slot, free, hq, found, sent, -⟩ := e.dispatch_cases
  · rw [same]
  · have absent : c.find? s = none := (inv.serves.slot?_eq_none_iff s).mp unknown
    rw [dropped, Engine.outlook, Engine.outlook, hq, List.map_cons, List.foldl_cons]
    simp only [Findings.attempt, absent]
    rfl
  · have series : c.find? s = some slot.series := inv.serves.find?_of_slot? found
    have popped : Consistent c { e with queue := rest } h := inv.call (.setQueue rest)
    obtain ⟨before, after⟩ := popped.traffic_send free found
    have nothing : e.traffic = [] := before
    rw [sent]
    simp only [Engine.outlook, after, nothing, hq, List.map_cons, List.foldl_cons, List.foldl_nil,
      Findings.attempt_of_find? series, Engine.findings_send, Engine.send_queue,
      Engine.send_params]
    rfl

theorem outlook_advance {σ τ : System α} (inv : Consistent c σ.engine σ.history)
    (next : Advance σ τ) : τ.engine.outlook c = σ.engine.outlook c := by
  cases next with
  | record e h waiting r rest arrived | answer e h r rest arrived =>
      exact inv.outlook_record arrived
  | drained => rfl
  | dispatch => exact inv.outlook_dispatch
  | take e =>
      have slots : e.take.slots = e.slots := by rw [Engine.take_eq]
      exact Engine.outlook_congr (by rw [Engine.take_eq]) (by rw [Engine.take_eq])
        (Engine.traffic_take e) (Engine.findings_congr slots)
  | post e φ h job busy =>
      have posted := Engine.post_of_current busy
      have slots : e.post.slots = e.slots := by rw [posted]
      exact Engine.outlook_congr (by rw [posted]) (by rw [posted]) (Engine.traffic_post e)
        (Engine.findings_congr slots)

theorem outlook_advances {σ τ : System α} (inv : Consistent c σ.engine σ.history)
    (run : Advances σ τ) : τ.engine.outlook c = σ.engine.outlook c := by
  induction run with
  | refl => rfl
  | tail before next ih => rw [(inv.advances before).outlook_advance next, ih]

theorem settled (inv : Consistent c e h) (done : e.isBusy = false) :
    Engine.Settled (e.outlook c) e := by
  simp only [Engine.isBusy, Bool.or_eq_false_iff, Bool.not_eq_false',
    List.isEmpty_iff] at done
  obtain ⟨queue, idle⟩ := done
  have nothing : e.traffic = [] := inv.traffic_eq_nil idle
  refine ⟨queue, ?_, ?_⟩
  · intro s
    rw [Bool.eq_false_iff]
    intro busy
    have mem := (inv.running s).mp busy
    rw [nothing] at mem
    cases mem
  · rw [Engine.outlook, queue, nothing]
    rfl

theorem settled_waitAll (inv : Consistent c e h) : Engine.Settled (e.outlook c) e.waitAll := by
  obtain ⟨h', run, done⟩ := waitAll_advances e h inv
  have after : Consistent c e.waitAll h' := inv.advances run
  have same : e.waitAll.outlook c = e.outlook c := inv.outlook_advances run
  exact same ▸ after.settled done

end Consistent

end Trendline
