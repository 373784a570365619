import Trendline.Proofs.Engine.Findings
import Mathlib.Data.List.Nodup

/-!
The slots of an engine, and what the operations of the engine do to them. What is known and what is
marked is read off the slots here; later modules look at no slot.
-/

namespace Trendline

variable {α : Type}

namespace Engine

/-- What the engine tells of every symbol. -/
def findings (e : Engine α) : Findings α :=
  fun s => ⟨e.analysis? s, (e.status s).2⟩

/-- Whether a symbol is being worked on. -/
def running (e : Engine α) (s : String) : Bool :=
  (e.status s).1

theorem findings_eq (e : Engine α) (s : String) :
    e.findings s = ((e.slot? s).map fun slot => ⟨slot.analysis, slot.lastError⟩).getD .unknown := by
  simp only [findings, analysis?, status]
  cases e.slot? s with
  | none | some slot => rfl

theorem running_eq (e : Engine α) (s : String) :
    e.running s = ((e.slot? s).map Slot.running).getD false := by
  simp only [running, status]
  cases e.slot? s with
  | none | some slot => rfl

theorem running_of_slot? {e : Engine α} {s : String} {slot : Slot α}
    (h : e.slot? s = some slot) : e.running s = slot.running := by
  rw [running_eq, h, Option.map_some, Option.getD_some]

theorem exists_slot_of_running {e : Engine α} {s : String} (busy : e.running s = true) :
    ∃ slot, e.slot? s = some slot ∧ slot.running = true := by
  rw [running_eq] at busy
  cases found : e.slot? s with
  | none =>
      rw [found] at busy
      cases busy
  | some slot =>
      rw [found] at busy
      exact ⟨slot, rfl, busy⟩

theorem slot?_congr {e e' : Engine α} (slots : e'.slots = e.slots) : e'.slot? = e.slot? := by
  funext s
  rw [slot?, slot?, slots]

theorem findings_congr {e e' : Engine α} (slots : e'.slots = e.slots) :
    e'.findings = e.findings := by
  funext s
  rw [findings_eq, findings_eq, slot?_congr slots]

theorem running_congr {e e' : Engine α} (slots : e'.slots = e.slots) :
    e'.running = e.running := by
  funext s
  rw [running_eq, running_eq, slot?_congr slots]

theorem slot?_symbol {e : Engine α} {s : String} {slot : Slot α} (h : e.slot? s = some slot) :
    slot.symbol = s := by
  simpa using List.find?_some h

theorem slot?_mem {e : Engine α} (nodup : (e.slots.map Slot.symbol).Nodup) {slot : Slot α}
    (h : slot ∈ e.slots) : e.slot? slot.symbol = some slot := by
  have found : (e.slot? slot.symbol).isSome := by
    rw [slot?, List.find?_isSome]
    exact ⟨slot, h, by simp⟩
  obtain ⟨other, ho⟩ := Option.isSome_iff_exists.mp found
  have same : other = slot :=
    List.inj_on_of_nodup_map nodup (List.mem_of_find?_eq_some ho) h (slot?_symbol ho)
  rw [ho, same]

/-- The symbols of the engine are those of the collection, each with its first series. -/
structure Serves (c : Collection α) (e : Engine α) : Prop where
  nodup : (e.slots.map Slot.symbol).Nodup
  series : ∀ s, (e.slot? s).map Slot.series = c.find? s

theorem symbol_comp_update (t : String) {f : Slot α → Slot α}
    (hf : ∀ slot, (f slot).series = slot.series) :
    Slot.symbol ∘ (fun slot => if slot.symbol = t then f slot else slot) = Slot.symbol := by
  funext slot
  simp only [Function.comp]
  split
  · exact congrArg Series.symbol (hf slot)
  · rfl

theorem slot?_updateSlot (e : Engine α) (t s : String) (f : Slot α → Slot α)
    (hf : ∀ slot, (f slot).series = slot.series) :
    (e.updateSlot t f).slot? s = if s = t then (e.slot? s).map f else e.slot? s := by
  have symbols (slot : Slot α) : (if slot.symbol = t then f slot else slot).symbol = slot.symbol :=
    congrFun (symbol_comp_update t hf) slot
  simp only [slot?, updateSlot, List.find?_map, Function.comp_def, symbols]
  cases found : e.slots.find? (·.symbol = s) with
  | none => simp
  | some slot =>
      have hs : slot.symbol = s := slot?_symbol found
      by_cases h : s = t
      · simp [h, hs ▸ h]
      · simp [h, hs]

theorem Serves.updateSlot {c : Collection α} {e : Engine α} (h : e.Serves c) (t : String)
    {f : Slot α → Slot α} (hf : ∀ slot, (f slot).series = slot.series) :
    (e.updateSlot t f).Serves c where
  nodup := by
    rw [Engine.updateSlot, List.map_map, symbol_comp_update t hf]
    exact h.nodup
  series := by
    intro s
    rw [slot?_updateSlot e t s f hf, ← h.series s]
    split
    · rw [Option.map_map]
      exact congrArg (Option.map · (e.slot? s)) (funext hf)
    · rfl

namespace Serves

variable {c : Collection α} {e : Engine α}

theorem slot?_eq_none_iff (h : e.Serves c) (s : String) :
    e.slot? s = none ↔ c.find? s = none := by
  rw [← h.series s, Option.map_eq_none_iff]

theorem find?_of_slot? (h : e.Serves c) {s : String} {slot : Slot α}
    (found : e.slot? s = some slot) : c.find? s = some slot.series := by
  rw [← h.series s, found, Option.map_some]

theorem exists_slot (h : e.Serves c) {s : String} {series : Series α}
    (hs : c.find? s = some series) : ∃ slot, e.slot? s = some slot ∧ slot.series = series := by
  rw [← h.series s] at hs
  exact Option.map_eq_some_iff.mp hs

theorem mem_symbols_iff (h : e.Serves c) (s : String) :
    s ∈ e.symbols ↔ ∃ series, c.find? s = some series := by
  rw [← Option.isSome_iff_exists, ← h.series s, Option.isSome_map, slot?, List.find?_isSome]
  refine Ascending.mem_ofList.trans ?_
  simp [List.mem_map]

theorem symbols_eq (h : e.Serves c) : e.symbols = c.symbols.toList := by
  have same : Ascending.ofList (e.slots.map Slot.symbol) = c.symbols := by
    apply Ascending.ext_mem
    intro s
    exact (h.mem_symbols_iff s).trans Collection.mem_symbols_iff.symm
  rw [symbols, same]

theorem hasRunning_iff (h : e.Serves c) : e.hasRunning = true ↔ ∃ s, e.running s = true := by
  rw [hasRunning, List.any_eq_true]
  constructor
  · intro ⟨slot, mem, busy⟩
    refine ⟨slot.symbol, ?_⟩
    rw [running_of_slot? (slot?_mem h.nodup mem), busy]
  · intro ⟨s, busy⟩
    obtain ⟨slot, found, marked⟩ := exists_slot_of_running busy
    exact ⟨slot, List.mem_of_find?_eq_some found, marked⟩

end Serves

theorem Serves.congr {c : Collection α} {e e' : Engine α} (h : e.Serves c)
    (slots : e'.slots = e.slots) : e'.Serves c where
  nodup := by
    rw [slots]
    exact h.nodup
  series := by
    intro s
    rw [slot?_congr slots]
    exact h.series s

theorem record_eq (e : Engine α) (r : Reply α) :
    e.record r = { e with slots := (e.record r).slots, log := (e.record r).log } := by
  simp only [record]
  split
  · rfl
  · split <;> rfl

@[simp] theorem record_queue (e : Engine α) (r : Reply α) : (e.record r).queue = e.queue := by
  rw [record_eq]

@[simp] theorem record_params (e : Engine α) (r : Reply α) : (e.record r).params = e.params := by
  rw [record_eq]

@[simp] theorem record_requests (e : Engine α) (r : Reply α) :
    (e.record r).requests = e.requests := by
  rw [record_eq]

@[simp] theorem record_current (e : Engine α) (r : Reply α) : (e.record r).current = e.current := by
  rw [record_eq]

@[simp] theorem record_replies (e : Engine α) (r : Reply α) : (e.record r).replies = e.replies := by
  rw [record_eq]

theorem record_with_replies (e : Engine α) (r : Reply α) (rest : List (Reply α)) :
    ({ e with replies := rest }.record r) = { e.record r with replies := rest } := by
  have same : ({ e with replies := rest } : Engine α).slot? r.symbol = e.slot? r.symbol := rfl
  simp only [record]
  rw [same]
  split
  · rfl
  · split <;> rfl

/-- The slot of a symbol after an attempt has ended. -/
def settle (o : Except (Error α) (Analysis α)) (slot : Slot α) : Slot α :=
  let f := (Finding.mk slot.analysis slot.lastError).after o
  { slot with running := false, analysis := f.analysis, lastError := f.lastError }

theorem slot?_record (e : Engine α) (r : Reply α) (s : String) :
    (e.record r).slot? s
      = if s = r.symbol then (e.slot? s).map (settle r.outcome) else e.slot? s := by
  simp only [record]
  split
  · next absent =>
      split
      · next h => rw [h, absent, Option.map_none]
      · rfl
  · cases outcome : r.outcome with
    | ok a => exact slot?_updateSlot e r.symbol s _ fun _ => rfl
    | error err => exact slot?_updateSlot (e.report _) r.symbol s _ fun _ => rfl

theorem Serves.record {c : Collection α} {e : Engine α} (h : e.Serves c) (r : Reply α) :
    (e.record r).Serves c := by
  simp only [Engine.record]
  split
  · exact h
  · split
    · exact h.updateSlot _ fun _ => rfl
    · exact Serves.updateSlot (e := e.report _) ⟨h.nodup, h.series⟩ _ fun _ => rfl

theorem running_record (e : Engine α) (r : Reply α) (s : String) :
    (e.record r).running s = if s = r.symbol then false else e.running s := by
  rw [running_eq, running_eq, slot?_record]
  split
  · cases e.slot? s with
    | none | some slot => rfl
  · rfl

theorem findings_record {e : Engine α} {r : Reply α} (known : (e.slot? r.symbol).isSome) :
    (e.record r).findings = e.findings.record r := by
  obtain ⟨slot, found⟩ := Option.isSome_iff_exists.mp known
  funext s
  rw [Findings.record, findings_eq, findings_eq, slot?_record]
  split
  · next own =>
      rw [own, found]
      rfl
  · rfl

theorem send_of_unknown {e : Engine α} {s : String} (h : e.slot? s = none) : e.send s = e := by
  simp [send, h]

theorem send_of_slot? {e : Engine α} {s : String} {slot : Slot α} (h : e.slot? s = some slot) :
    e.send s = { e with
      requests := e.requests ++ [⟨s, slot.series, e.params⟩]
      slots := (e.updateSlot s fun slot => { slot with running := true }).slots } := by
  simp [send, h, updateSlot]

@[simp] theorem send_queue (e : Engine α) (s : String) : (e.send s).queue = e.queue := by
  cases found : e.slot? s with
  | none => rw [send_of_unknown found]
  | some slot => rw [send_of_slot? found]

@[simp] theorem send_params (e : Engine α) (s : String) : (e.send s).params = e.params := by
  cases found : e.slot? s with
  | none => rw [send_of_unknown found]
  | some slot => rw [send_of_slot? found]

theorem slot?_send (e : Engine α) (t s : String) :
    (e.send t).slot? s
      = if s = t then (e.slot? s).map fun slot => { slot with running := true }
        else e.slot? s := by
  cases found : e.slot? t with
  | none =>
      rw [send_of_unknown found]
      split
      · next h => rw [h, found, Option.map_none]
      · rfl
  | some slot =>
      rw [send_of_slot? found]
      exact slot?_updateSlot e t s _ fun _ => rfl

theorem Serves.send {c : Collection α} {e : Engine α} (h : e.Serves c) (s : String) :
    (e.send s).Serves c := by
  cases found : e.slot? s with
  | none => rwa [send_of_unknown found]
  | some slot =>
      rw [send_of_slot? found]
      have updated : (e.updateSlot s fun slot => { slot with running := true }).Serves c :=
        h.updateSlot s fun _ => rfl
      exact ⟨updated.nodup, updated.series⟩

theorem running_send (e : Engine α) (t s : String) :
    (e.send t).running s = if s = t then (e.slot? s).isSome else e.running s := by
  rw [running_eq, running_eq, slot?_send]
  split
  · cases e.slot? s with
    | none | some slot => rfl
  · rfl

theorem findings_send (e : Engine α) (t : String) : (e.send t).findings = e.findings := by
  funext s
  rw [findings_eq, findings_eq, slot?_send]
  split
  · cases e.slot? s with
    | none | some slot => rfl
  · rfl

theorem slot?_addSeries (e : Engine α) (series : Series α) (s : String) :
    (e.addSeries series).slot? s
      = (e.slot? s).or (if series.symbol = s then some ⟨series, false, none, none⟩ else none) := by
  simp only [addSeries]
  split
  · next known =>
      change e.slot? s = _
      split
      · next h => rw [Option.or_of_isSome (h ▸ known)]
      · rw [Option.or_none]
  · rw [slot?, slot?, List.find?_append, List.find?_singleton]
    by_cases h : series.symbol = s <;> simp [Slot.symbol, h]

theorem nodup_addSeries {e : Engine α} (nodup : (e.slots.map Slot.symbol).Nodup)
    (series : Series α) : ((e.addSeries series).slots.map Slot.symbol).Nodup := by
  simp only [addSeries]
  split
  · exact nodup
  · next absent =>
      rw [List.map_append, List.nodup_append_comm, List.map_singleton, List.singleton_append,
        List.nodup_cons]
      refine ⟨?_, nodup⟩
      intro mem
      obtain ⟨slot, hm, hs⟩ := List.mem_map.mp mem
      apply absent
      rw [slot?, List.find?_isSome]
      exact ⟨slot, hm, decide_eq_true hs⟩

theorem nodup_foldl_addSeries {e : Engine α} (nodup : (e.slots.map Slot.symbol).Nodup)
    (all : List (Series α)) : ((all.foldl addSeries e).slots.map Slot.symbol).Nodup := by
  induction all generalizing e with
  | nil => exact nodup
  | cons series rest ih => exact ih (nodup_addSeries nodup series)

theorem slot?_foldl_addSeries (e : Engine α) (all : List (Series α)) (s : String) :
    (all.foldl addSeries e).slot? s
      = (e.slot? s).or ((all.find? (·.symbol = s)).map (⟨·, false, none, none⟩)) := by
  induction all generalizing e with
  | nil => simp
  | cons series rest ih =>
      rw [List.foldl_cons, ih, slot?_addSeries, Option.or_assoc, List.find?_cons]
      by_cases h : series.symbol = s <;> simp [h]

theorem slot?_ofCollection (c : Collection α) (p : Params α) (s : String) :
    (ofCollection c p).slot? s = (c.find? s).map (⟨·, false, none, none⟩) := by
  rw [ofCollection, slot?_foldl_addSeries]
  rfl

theorem foldl_addSeries_eq (all : List (Series α)) (e : Engine α) :
    all.foldl addSeries e = { e with
      slots := (all.foldl addSeries e).slots, log := (all.foldl addSeries e).log } := by
  induction all generalizing e with
  | nil => rfl
  | cons series rest ih =>
      have step : e.addSeries series = { e with
          slots := (e.addSeries series).slots, log := (e.addSeries series).log } := by
        simp only [addSeries]
        split <;> rfl
      rw [List.foldl_cons, ih, step]

theorem ofCollection_eq (c : Collection α) (p : Params α) :
    ofCollection c p
      = ⟨(ofCollection c p).slots, [], p, [], none, [], (ofCollection c p).log⟩ :=
  foldl_addSeries_eq c.series _

theorem serves_ofCollection (c : Collection α) (p : Params α) : (ofCollection c p).Serves c where
  nodup := by
    rw [ofCollection]
    apply nodup_foldl_addSeries
    exact List.nodup_nil
  series := by
    intro s
    rw [slot?_ofCollection, Option.map_map]
    exact Option.map_id' ..

theorem findings_ofCollection (c : Collection α) (p : Params α) :
    (ofCollection c p).findings = fun _ => .unknown := by
  funext s
  rw [findings_eq, slot?_ofCollection]
  cases c.find? s with
  | none | some series => rfl

theorem running_ofCollection (c : Collection α) (p : Params α) (s : String) :
    (ofCollection c p).running s = false := by
  rw [running_eq, slot?_ofCollection]
  cases c.find? s with
  | none | some series => rfl

end Engine

end Trendline
