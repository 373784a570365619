import Trendline.Proofs.Analysis.Clusters
import Trendline.Proofs.Columns

/-!
An analysis of bars in rows and of the same bars in columns. Rows name no symbol and do not tell how
far they usually are apart; an analysis reads neither, so that it is the same either way.
-/

namespace Trendline

variable {α : Type} [Scalar α]

namespace Series

/-- An analysis reads neither the symbol nor the usual time between bars. -/
theorem analyze_relabelled {s : Series α} (wf : s.WellFormed) (symbol : String) (interval : Int)
    (p : Params α) :
    ({ s with symbol, interval } : Series α).analyze p
      = (s.analyze p).map fun a => { a with symbol } := by
  cases params : p.validate with
  | error e =>
      rw [analyze_of_params_error params, analyze_of_params_error params]
      rfl
  | ok =>
      have hp := Params.validate_eq_ok_iff.mp params
      rw [analyze_eq_ok wf hp, analyze_eq_ok (wf.relabelled symbol interval) hp]
      rfl

end Series

/-- The overlays of the bars of a series that obeys the rules are those of the series. Either way
the parameters are checked first. -/
theorem overlaysOfBars_bars {s : Series α} (wf : s.WellFormed) (p : Params α) :
    overlaysOfBars s.bars p = (s.analyze p).map (·.overlays) := by
  cases params : p.validate with
  | error e =>
      rw [overlaysOfBars, params, Series.analyze_of_params_error params]
      rfl
  | ok =>
      have hp := Params.validate_eq_ok_iff.mp params
      rw [overlaysOfBars, params, wf.ofBars_bars, ok_bind, ok_bind, Series.analyze_relabelled wf,
        Series.analyze_eq_ok wf hp]
      rfl

/-- What is built from bars has these bars; a series that obeys the rules is built again from its
bars, up to the usual time between them; and its overlays are the same from its bars as from its
columns, or the parameters are refused for the same reason. -/
theorem rows_and_columns_agree :
    (∀ (symbol : String) (bars : List (Bar α)) (s : Series α),
      Series.ofBars symbol bars = .ok s → s.bars = bars) ∧
    ∀ s : Series α, s.validate = .ok () →
      (∃ interval, Series.ofBars s.symbol s.bars = .ok { s with interval }) ∧
      ∀ p : Params α, overlaysOfBars s.bars p = (s.analyze p).map (·.overlays) ∧
        ∀ e, p.validate = .error e →
          overlaysOfBars s.bars p = .error e ∧ s.analyze p = .error e := by
  constructor
  · intro symbol bars s built
    obtain ⟨-, rfl⟩ := Series.ofBars_eq_ok_iff.mp built
    exact Series.bars_columnsOf symbol bars
  · intro s valid
    have wf := Series.validate_eq_ok_iff.mp valid
    refine ⟨⟨_, wf.ofBars_bars s.symbol⟩, fun p => ⟨overlaysOfBars_bars wf p, ?_⟩⟩
    intro e refused
    have failed : s.analyze p = .error e := Series.analyze_of_params_error refused
    rw [overlaysOfBars_bars wf p, failed]
    exact ⟨rfl, rfl⟩

/-- A series is built again from its bars, and is refused both ways without a lookback to look for. -/
theorem rows_and_columns_agree_rising :
    rising.validate = .ok () ∧
      (∃ s, Series.ofBars "rising" rising.bars = .ok s ∧ s.times = rising.times ∧
        s.bars = rising.bars) ∧
      overlaysOfBars rising.bars risingParams = (rising.analyze risingParams).map (·.overlays) ∧
      overlaysOfBars rising.bars { risingParams with lookbacks := [] }
        = .error (.param .noLookback) := by
  obtain ⟨read, again⟩ := rows_and_columns_agree (α := Float)
  have valid : rising.validate = .ok () := by decide +kernel
  obtain ⟨⟨interval, built⟩, overlays⟩ := again rising valid
  have refused : { risingParams with lookbacks := [] }.validate
      = .error (.param .noLookback) := by decide +kernel
  exact ⟨valid, ⟨_, built, rfl, read _ _ _ built⟩, (overlays risingParams).1,
    ((overlays _).2 _ refused).1⟩

end Trendline
