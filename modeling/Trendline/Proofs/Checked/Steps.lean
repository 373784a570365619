import Trendline.Proofs.Analysis.Extremes
import Trendline.Proofs.Traversal
import Trendline.Proofs.Validity

/-!
An analysis in which nothing is taken for granted. Where `Series.analyze` reads a column, cuts out a
window, asks for an extreme, moves a position or clamps a price, the steps here stop with a trap if
that has no result: the position is beyond the end, the window is empty, the bounds are crossed.
This module has the single steps and the check of a series; that no trap is ever reached is proved
beside each definition.
-/

namespace Trendline

inductive Trap where
  /-- A position beyond the end of a column. -/
  | position
  /-- A window that ends before it starts or beyond the end of its column. -/
  | window
  /-- An extreme of no prices. -/
  | extreme
  /-- A position below zero, or one that no word holds. -/
  | word
  /-- Bounds of a range that do not compare, or in the wrong order. -/
  | bounds
  deriving Repr, DecidableEq

/-- Why a checked analysis comes to a halt. -/
inductive Halt (α : Type) where
  | refused (e : Error α)
  | trapped (t : Trap)
  deriving Repr, DecidableEq

namespace Checked

variable {α β : Type}

/-- The entry in a position. -/
def entry (xs : Array β) (i : Nat) : Except (Halt α) β :=
  match xs[i]? with
  | some x => .ok x
  | none => .error (.trapped .position)

/-- The entries from `start` up to `stop`. -/
def window (xs : Array β) (start stop : Nat) : Except (Halt α) (Array β) :=
  if start ≤ stop ∧ stop ≤ xs.size then .ok (xs.extract start stop)
  else .error (.trapped .window)

def add (m n : Nat) : Except (Halt α) Nat :=
  if m + n < wordCount then .ok (m + n) else .error (.trapped .word)

def sub (m n : Nat) : Except (Halt α) Nat :=
  if n ≤ m then .ok (m - n) else .error (.trapped .word)

theorem entry_of_getElem? {xs : Array β} {i : Nat} {x : β} (h : xs[i]? = some x) :
    (entry xs i : Except (Halt α) β) = .ok x := by
  rw [entry, h]

theorem entry_of_lt {xs : Array β} {i : Nat} (h : i < xs.size) (d : β) :
    (entry xs i : Except (Halt α) β) = .ok (xs.getD i d) := by
  apply entry_of_getElem?
  rw [Array.getD_eq_getD_getElem?, Array.getElem?_eq_getElem h, Option.getD_some]

theorem window_of_le {xs : Array β} {start stop : Nat} (h : start ≤ stop)
    (inside : stop ≤ xs.size) :
    (window xs start stop : Except (Halt α) (Array β)) = .ok (xs.extract start stop) :=
  if_pos ⟨h, inside⟩

theorem add_of_lt {m n : Nat} (h : m + n < wordCount) :
    (add m n : Except (Halt α) Nat) = .ok (m + n) :=
  if_pos h

theorem sub_of_le {m n : Nat} (h : n ≤ m) : (sub m n : Except (Halt α) Nat) = .ok (m - n) :=
  if_pos h

variable [Scalar α]

def greatest (xs : List α) : Except (Halt α) α :=
  match greatest? xs with
  | some x => .ok x
  | none => .error (.trapped .extreme)

def least (xs : List α) : Except (Halt α) α :=
  match least? xs with
  | some x => .ok x
  | none => .error (.trapped .extreme)

/-- The price moved into the range from `low` to `high`, which must not be crossed. -/
def clamp (low high x : α) : Except (Halt α) α :=
  if low ≤ high then .ok (Scalar.clamp low high x) else .error (.trapped .bounds)

theorem greatest_of_ne_nil {xs : List α} (nonempty : xs ≠ []) :
    ∃ best, greatest? xs = some best ∧ greatest xs = .ok best := by
  obtain ⟨best, found⟩ := exists_greatest? nonempty
  exact ⟨best, found, by rw [greatest, found]⟩

theorem least_of_ne_nil {xs : List α} (nonempty : xs ≠ []) :
    ∃ best, least? xs = some best ∧ least xs = .ok best := by
  obtain ⟨best, found⟩ := exists_least? nonempty
  exact ⟨best, found, by rw [least, found]⟩

theorem clamp_of_le {low high : α} (h : low ≤ high) (x : α) :
    clamp low high x = .ok (Scalar.clamp low high x) :=
  if_pos h

/-- The bar in a position, with an entry of each column. -/
def bar (s : Series α) (i : Nat) : Except (Halt α) (Bar α) := do
  let time ← entry s.times i
  let opening ← entry s.openings i
  let high ← entry s.highs i
  let low ← entry s.lows i
  let closing ← entry s.closings i
  let volume ← entry s.volumes i
  return { time, opening, high, low, closing, volume }

theorem bar_eq_ok {s : Series α} {i : Nat} (columns : ∀ c ∈ s.columnSizes, c.2 = s.size)
    (inside : i < s.size) : bar s i = .ok (s.barAt i) := by
  simp only [Series.columnSizes, List.forall_mem_cons, List.not_mem_nil, false_imp_iff,
    implies_true, and_true] at columns
  obtain ⟨openings, highs, lows, closings, volumes⟩ := columns
  unfold bar
  rw [entry_of_lt inside 0, ok_bind, entry_of_lt (openings ▸ inside) 0, ok_bind,
    entry_of_lt (highs ▸ inside) 0, ok_bind, entry_of_lt (lows ▸ inside) 0, ok_bind,
    entry_of_lt (closings ▸ inside) 0, ok_bind, entry_of_lt (volumes ▸ inside) 0, ok_bind]
  rfl

/-- The fault of a bar that the next one does not exceed in time. -/
def descent? (s : Series α) (i : Nat) : Except (Halt α) (Option (SeriesFault α)) := do
  let time ← entry s.times i
  let next ← entry s.times (← add i 1)
  return if next ≤ time then some (.outOfOrder i time next) else none

def barFault? (s : Series α) (i : Nat) : Except (Halt α) (Option (SeriesFault α)) := do
  return Series.barFault? i (← bar s i)

/-- The first rule that a series breaks. No bar is read before the columns are known to have one
size. -/
def fault? (s : Series α) : Except (Halt α) (Option (SeriesFault α)) := do
  if s.size = 0 then
    return some .empty
  if let some fault := s.misaligned? then
    return some fault
  if let some fault ← (List.range (s.size - 1)).findSomeM? (descent? s) then
    return some fault
  (List.range s.size).findSomeM? (barFault? s)

def validate (s : Series α) : Except (Halt α) Unit := do
  match ← fault? s with
  | some fault => .error (.refused (.series s.symbol fault))
  | none => return ()

omit [Scalar α] in
theorem outOfOrder?_eq_findSome? (i : Nat) (times : List Int) :
    (Series.outOfOrder? i times : Option (SeriesFault α))
      = (List.range (times.length - 1)).findSome? fun k =>
          if times.getD (k + 1) 0 ≤ times.getD k 0 then
            some (.outOfOrder (i + k) (times.getD k 0) (times.getD (k + 1) 0))
          else none := by
  fun_induction Series.outOfOrder? (α := α) i times with
  | case1 i a b rest le => simp [List.range_succ_eq_map, le]
  | case2 i a b rest lt ih =>
      have shift (k : Nat) : i + 1 + k = i + (k + 1) := by omega
      simp [List.range_succ_eq_map, lt, ih, List.findSome?_map, Function.comp_def, shift]
  | case3 times i short =>
      rcases times with _ | ⟨a, _ | ⟨b, rest⟩⟩
      · rfl
      · rfl
      · exact (short a b rest rfl).elim

theorem fault?_eq_ok {s : Series α} (short : s.size < wordCount) : fault? s = .ok s.fault? := by
  have ordered : (List.range (s.size - 1)).findSomeM? (descent? s)
      = .ok (Series.outOfOrder? 0 s.times.toList : Option (SeriesFault α)) := by
    have listed (i : Nat) : s.times.toList.getD i 0 = s.times.getD i 0 := by
      rw [List.getD_eq_getElem?_getD, Array.getElem?_toList, Array.getD_eq_getD_getElem?]
    rw [outOfOrder?_eq_findSome?]
    apply findSomeM?_eq_ok
    intro i mem
    have inside : i + 1 < s.times.size := by
      have := List.mem_range.mp mem
      unfold Series.size at this
      omega
    unfold descent?
    have fits : i + 1 < wordCount := inside.trans short
    rw [entry_of_lt (by omega) 0, ok_bind, add_of_lt fits, ok_bind, entry_of_lt inside 0, ok_bind,
      Nat.zero_add, listed, listed]
    rfl
  unfold fault? Series.fault?
  by_cases empty : s.size = 0
  · rw [if_pos empty, if_pos empty]
    rfl
  · rw [if_neg empty, if_neg empty]
    cases aligned : s.misaligned? with
    | some fault => rfl
    | none =>
        have columns := Series.misaligned?_eq_none_iff.mp aligned
        have bars : (List.range s.size).findSomeM? (barFault? s)
            = .ok ((List.range s.size).findSome? fun i => Series.barFault? i (s.barAt i)) := by
          apply findSomeM?_eq_ok
          intro i mem
          rw [barFault?, bar_eq_ok columns (List.mem_range.mp mem)]
          rfl
        rw [ordered, bars]
        cases (Series.outOfOrder? 0 s.times.toList : Option (SeriesFault α)) with
        | none | some fault => rfl

theorem validate_eq {s : Series α} (short : s.size < wordCount) :
    validate s = s.validate.mapError .refused := by
  rw [validate, fault?_eq_ok short, Series.validate]
  cases s.fault? with
  | none | some fault => rfl

end Checked

end Trendline
