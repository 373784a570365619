import Trendline.Engine
import Mathlib.Data.List.Forall2
import Mathlib.Data.List.Induction

/-!
What is known of each symbol, and what attempts on symbols do to that: in a row they leave the latest
success of each symbol.
-/

namespace Trendline

variable {α : Type}

/-- The latest analysis of a symbol, and why the latest attempt failed, if it did. -/
structure Finding (α : Type) where
  analysis : Option (Analysis α)
  lastError : Option (Error α)

def Finding.unknown : Finding α := ⟨none, none⟩

/-- After a further attempt. A failure leaves the analysis before it in place. -/
def Finding.after (f : Finding α) : Except (Error α) (Analysis α) → Finding α
  | .ok a => ⟨some a, none⟩
  | .error err => ⟨f.analysis, some err⟩

theorem Finding.after_after (f : Finding α) (o : Except (Error α) (Analysis α)) :
    (f.after o).after o = f.after o := by
  cases o with
  | ok a | error err => rfl

abbrev Findings (α : Type) := String → Finding α

/-- The answer to the job of a symbol, sent with some parameters. -/
def Collection.Answers [Scalar α] (c : Collection α) (job : String × Params α) (r : Reply α) :
    Prop :=
  r.symbol = job.1 ∧ ∃ series, c.find? job.1 = some series ∧ r.outcome = series.analyze job.2

/-- The analysis belongs to the last of some jobs that is of the symbol and does not fail. -/
def Collection.LatestSuccess [Scalar α] (c : Collection α) (jobs : List (String × Params α))
    (s : String) (a : Analysis α) : Prop :=
  ∃ series before q later, c.find? s = some series ∧ jobs = before ++ (s, q) :: later ∧
    series.analyze q = .ok a ∧ ∀ q', (s, q') ∈ later → ∃ err, series.analyze q' = .error err

namespace Collection

variable [Scalar α] {c : Collection α} {jobs : List (String × Params α)} {s : String}

theorem latestSuccess_concat {job : String × Params α}
    (not : job.1 = s → ∀ series, c.find? s = some series → ∃ err,
      series.analyze job.2 = .error err) (a : Analysis α) :
    c.LatestSuccess (jobs ++ [job]) s a ↔ c.LatestSuccess jobs s a := by
  constructor
  · intro ⟨series, before, q, later, hs, split, success, failed⟩
    obtain rfl | ⟨earlier, last, rfl⟩ := List.eq_nil_or_concat' later
    · obtain ⟨-, heads⟩ := List.append_inj' split rfl
      cases heads
      obtain ⟨err, failure⟩ := not rfl series hs
      rw [success] at failure
      cases failure
    · rw [← List.cons_append, ← List.append_assoc] at split
      obtain ⟨rfl, -⟩ := List.append_inj' split rfl
      exact ⟨series, before, q, earlier, hs, rfl, success,
        fun q' mem => failed q' (List.mem_append_left _ mem)⟩
  · intro h
    obtain ⟨series, before, q, later, hs, rfl, success, failed⟩ := h
    refine ⟨series, before, q, later ++ [job], hs, by simp, success, ?_⟩
    intro q' mem
    rcases List.mem_append.mp mem with mem | mem
    · exact failed q' mem
    · cases List.mem_singleton.mp mem
      exact not rfl series hs

theorem latestSuccess_concat_self {series : Series α} {q : Params α} {a : Analysis α}
    (hs : c.find? s = some series) (success : series.analyze q = .ok a) (b : Analysis α) :
    c.LatestSuccess (jobs ++ [(s, q)]) s b ↔ a = b := by
  constructor
  · intro ⟨series', before, q', later, hs', split, success', failed⟩
    cases hs.symm.trans hs'
    obtain rfl | ⟨earlier, last, rfl⟩ := List.eq_nil_or_concat' later
    · obtain ⟨-, heads⟩ := List.append_inj' split rfl
      cases heads
      exact Except.ok.inj (success.symm.trans success')
    · rw [← List.cons_append, ← List.append_assoc] at split
      obtain ⟨-, heads⟩ := List.append_inj' split rfl
      cases heads
      obtain ⟨err, failure⟩ := failed q (by simp)
      rw [success] at failure
      cases failure
  · intro same
    cases same
    refine ⟨series, jobs, q, [], hs, rfl, success, ?_⟩
    intro q' mem
    cases mem

end Collection

namespace Findings

/-- An answer counts for its own symbol and for no other. -/
def record (F : Findings α) (r : Reply α) : Findings α :=
  fun s => if s = r.symbol then (F s).after r.outcome else F s

theorem isSome_foldl_record (rs : List (Reply α)) (F : Findings α) (s : String) :
    (rs.foldl record F s).analysis.isSome ↔
      (F s).analysis.isSome ∨ ∃ r ∈ rs, r.symbol = s ∧ ∃ a, r.outcome = .ok a := by
  induction rs generalizing F with
  | nil => simp
  | cons r rest ih =>
      rw [List.foldl_cons, ih, List.exists_mem_cons_iff, ← or_assoc]
      apply or_congr_left
      by_cases own : r.symbol = s
      · cases outcome : r.outcome with
        | ok a => simp [record, own, outcome, Finding.after]
        | error err => simp [record, own, outcome, Finding.after]
      · simp [record, own, Ne.symm own]

variable [Scalar α]

/-- After an attempt on a symbol with some parameters. A symbol without a series is passed over. -/
def attempt (c : Collection α) (F : Findings α) (job : String × Params α) : Findings α :=
  match c.find? job.1 with
  | none => F
  | some series => F.record ⟨job.1, series.analyze job.2⟩

theorem attempt_of_find? {c : Collection α} {F : Findings α} {s : String} {q : Params α}
    {series : Series α} (h : c.find? s = some series) :
    attempt c F (s, q) = F.record ⟨s, series.analyze q⟩ := by
  simp only [attempt, h]

theorem attempt_of_ne {c : Collection α} (F : Findings α) {job : String × Params α} {s : String}
    (h : job.1 ≠ s) : attempt c F job s = F s := by
  simp only [attempt]
  cases c.find? job.1 with
  | none => rfl
  | some series => simp only [record, if_neg (Ne.symm h)]

theorem foldl_attempt_of_notMem {c : Collection α} (F : Findings α)
    (jobs : List (String × Params α)) {s : String} (h : s ∉ jobs.map Prod.fst) :
    jobs.foldl (attempt c) F s = F s := by
  induction jobs generalizing F with
  | nil => rfl
  | cons job rest ih =>
      simp only [List.map_cons, List.mem_cons, not_or] at h
      rw [List.foldl_cons, ih _ h.2, attempt_of_ne F (Ne.symm h.1)]

/-- However often a symbol is tried with the same parameters, it counts once. -/
theorem foldl_attempt_of_mem {c : Collection α} (F : Findings α) (q : Params α)
    (names : List String) {s : String} {series : Series α} (hs : c.find? s = some series)
    (h : s ∈ names) :
    (names.map (·, q)).foldl (attempt c) F s = (F s).after (series.analyze q) := by
  induction names generalizing F with
  | nil => cases h
  | cons name rest ih =>
      rw [List.map_cons, List.foldl_cons]
      by_cases hn : name = s
      · subst hn
        have now : attempt c F (name, q) name = (F name).after (series.analyze q) := by
          simp [attempt_of_find? hs, record]
        by_cases again : name ∈ rest
        · rw [ih _ again, now, Finding.after_after]
        · rw [foldl_attempt_of_notMem _ _ (by simpa [Function.comp_def] using again), now]
      · have later : s ∈ rest := (List.mem_cons.mp h).resolve_left (Ne.symm hn)
        rw [ih _ later, attempt_of_ne F hn]

theorem foldl_record_eq {c : Collection α} {jobs : List (String × Params α)} {rs : List (Reply α)}
    (answers : List.Forall₂ c.Answers jobs rs) (F : Findings α) :
    rs.foldl record F = jobs.foldl (attempt c) F := by
  induction answers generalizing F with
  | nil => rfl
  | @cons job r _ _ answer _ ih =>
      obtain ⟨symbol, series, hs, outcome⟩ := answer
      have same : attempt c F job = F.record r := by
        rw [show job = (job.1, job.2) from rfl, attempt_of_find? hs, ← symbol, ← outcome]
      rw [List.foldl_cons, List.foldl_cons, same, ih]

theorem analysis_foldl_attempt (c : Collection α) (jobs : List (String × Params α)) (s : String)
    (a : Analysis α) :
    (jobs.foldl (attempt c) (fun _ => .unknown) s).analysis = some a ↔
      c.LatestSuccess jobs s a := by
  induction jobs using List.reverseRecOn with
  | nil => simp [Finding.unknown, Collection.LatestSuccess]
  | append_singleton jobs job ih =>
      obtain ⟨t, q⟩ := job
      rw [List.foldl_append, List.foldl_cons, List.foldl_nil]
      by_cases own : t = s
      · subst own
        cases hs : c.find? t with
        | none =>
            rw [Collection.latestSuccess_concat (fun _ series h => by rw [hs] at h; cases h), ← ih]
            simp only [attempt, hs]
        | some series =>
            rw [attempt_of_find? hs]
            cases outcome : series.analyze q with
            | ok b =>
                rw [Collection.latestSuccess_concat_self hs outcome]
                simp [record, Finding.after]
            | error err =>
                have fails : t = t → ∀ series', c.find? t = some series' →
                    ∃ err, series'.analyze q = .error err := by
                  intro _ series' hs'
                  cases hs.symm.trans hs'
                  exact ⟨err, outcome⟩
                rw [Collection.latestSuccess_concat fails, ← ih]
                simp [record, Finding.after]
      · rw [Collection.latestSuccess_concat (fun same => absurd same own), ← ih,
          attempt_of_ne _ own]

end Findings

end Trendline
