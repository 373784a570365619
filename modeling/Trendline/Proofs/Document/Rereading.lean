import Trendline.Proofs.Document.Saving
import Trendline.Proofs.Json.Rereading

/-!
What becomes of the doubles of a series file that is saved and loaded. The file always loads, each
double is replaced by what its digits are read as, and not all doubles survive that.
-/

namespace Trendline

open Json Text

namespace Series

variable {f : Float → Float}

theorem column_map_eq_self_iff {xs : Array Float} : xs.map f = xs ↔ ∀ x ∈ xs, f x = x := by
  have each : xs.map f = xs.map id ↔ ∀ x ∈ xs, f x = id x := Array.map_inj_left
  simpa using each

theorem map_eq_self_iff {s : Series Float} : s.map f = s ↔ ∀ x ∈ s.doubles, f x = x := by
  obtain ⟨symbol, interval, times, openings, highs, lows, closings, volumes⟩ := s
  simp only [map, doubles, mk.injEq, true_and, column_map_eq_self_iff, List.forall_mem_append,
    Array.mem_toList_iff, and_assoc]

end Series

namespace Collection

variable {f : Float → Float}

theorem map_eq_self_iff {c : Collection Float} : c.map f = c ↔ ∀ x ∈ c.doubles, f x = x := by
  obtain ⟨name, version, series⟩ := c
  have each : series.map (Series.map f) = series ↔ ∀ s ∈ series, s.map f = s := by
    simpa using List.map_inj_left (l := series) (f := Series.map f) (g := id)
  simp only [map, doubles, mk.injEq, true_and, each, Series.map_eq_self_iff, List.forall_mem_cons,
    List.forall_mem_flatMap]

end Collection

namespace SeriesFile

variable {file : SeriesFile Float} {t : FileTree} {path : String}

theorem map_eq_self_iff {f : Float → Float} : file.map f = file ↔ ∀ x ∈ file.doubles, f x = x := by
  obtain ⟨version, time, interval, data⟩ := file
  simp only [map, doubles, mk.injEq, true_and, Collection.map_eq_self_iff, List.forall_mem_cons]

/-- The text of a series file holds the file as its digits are read, if all of its doubles are
finite, and else none. -/
theorem ofText?_render_eq_some_iff (spacing : Spacing) (fits : ∀ i ∈ file.wholes, fitsWord i)
    {found : SeriesFile Float} : ofText? (.ofString (file.render spacing)) = some found ↔
      (∀ x ∈ file.doubles, x.isFinite) ∧ file.map reread = found := by
  have read (finite : ∀ x ∈ file.doubles, x.isFinite) :
      decode? file.toJson = some (file.map reread) :=
    decode?_toJson_map fits fun x mem => float?_ofFloat_eq_reread (finite x mem)
  rw [ofText?, render, parse?_render spacing file.wellWritten_toJson, Option.bind_some]
  constructor
  · intro decoded
    have finite := isFinite_of_decode?_toJson decoded
    exact ⟨finite, Option.some.inj ((read finite).symm.trans decoded)⟩
  · rintro ⟨finite, rfl⟩
    exact read finite

theorem ofText_eq_ok_iff {text : Source} {found : SeriesFile Float} :
    ofText path text = .ok found ↔ ofText? text = some found := by
  rw [ofText]
  cases ofText? text <;> simp

theorem exists_saved (spacing : Spacing) (writable : t.Writable path) :
    ∃ t', (save FileTree.system path spacing file).run t = (.ok (), t') ∧
      (load FileTree.system path).run t' = (ofText path (.ofString (file.render spacing)), t') := by
  obtain ⟨made, _, prepared, empty⟩ := writable
  obtain ⟨t', wrote⟩ := FileTree.exists_write empty (file.render spacing).toUTF8
  refine ⟨t', run_save spacing prepared wrote, ?_⟩
  rw [run_load, FileTree.read_write wrote, seriesText_toUTF8, ok_bind]

theorem saved_loads_iff (spacing : Spacing) (fits : ∀ i ∈ file.wholes, fitsWord i)
    (writable : t.Writable path) :
    ∃ t', (save FileTree.system path spacing file).run t = (.ok (), t') ∧
      ∀ found, (load FileTree.system path).run t' = (.ok found, t') ↔
        (∀ x ∈ file.doubles, x.isFinite) ∧ file.map reread = found := by
  obtain ⟨t', saved, loaded⟩ := exists_saved spacing writable
  refine ⟨t', saved, fun found => ?_⟩
  rw [loaded, Prod.mk_inj, and_iff_left rfl, ofText_eq_ok_iff,
    ofText?_render_eq_some_iff spacing fits]

/-- A saved series file loads just if its doubles are finite, and then with each double as its
digits are read. A finite double is the same as before just if the last exact result of reading it
is nearest to it, and so it is if its digits and its power of ten are doubles themselves. So the
file loads as it was just if that holds of all its doubles. -/
theorem saved_doubles_reload (spacing : Spacing) (fits : ∀ i ∈ file.wholes, fitsWord i)
    (writable : t.Writable path) :
    ∃ t', (save FileTree.system path spacing file).run t = (.ok (), t') ∧
      (∀ found, (load FileTree.system path).run t' = (.ok found, t') ↔
        (∀ x ∈ file.doubles, x.isFinite) ∧ file.map reread = found) ∧
      (∀ x ∈ file.doubles, x.isFinite →
        (reread x = x ↔ Survives x) ∧ (Brief x → Survives x)) ∧
      ((load FileTree.system path).run t' = (.ok file, t') ↔
        ∀ x ∈ file.doubles, x.isFinite ∧ Survives x) := by
  obtain ⟨t', saved, loaded⟩ := saved_loads_iff spacing fits writable
  refine ⟨t', saved, loaded, ?_, ?_⟩
  · exact fun x mem finite => ⟨reread_eq_iff finite, Brief.survives⟩
  · rw [loaded, map_eq_self_iff, ← forall₂_and]
    exact forall₂_congr fun x mem => and_congr_right reread_eq_iff

/-- One bar at one price. -/
def atPrice (price : Float) : SeriesFile Float where
  version := 1
  time := 0
  interval := 60000
  data := {
    name := "test"
    version := 1
    series := [
      { symbol := "A", interval := 0, times := #[1704067200000], openings := #[price]
        highs := #[price], lows := #[price], closings := #[price], volumes := #[1000] }] }

theorem writable_kept : FileTree.Writable .empty "kept" := by
  have bare : "kept".splitOn "/" = ["kept"] := by cbv
  exact FileTree.writable_of_target bare
    (FileTree.target_of_name (by decide) bare (by cbv) (by decide) (by decide) (by decide))

theorem saved_doubles_reload_few :
    ∃ t', (save FileTree.system "kept" .indented (atPrice 97.25)).run .empty = (.ok (), t') ∧
      (load FileTree.system "kept").run t' = (.ok (atPrice 97.25), t') := by
  have fits : ∀ i ∈ (atPrice 97.25).wholes, fitsWord i := by decide
  obtain ⟨t', saved, -, -, same⟩ := saved_doubles_reload .indented fits writable_kept
  exact ⟨t', saved, same.mpr (by decide +kernel)⟩

/-- With the zero behind the point the price takes seventeen digits, which are no double. They are
rounded to one, and so is the tenth of that. -/
theorem saved_price_changes :
    ∃ t', (save FileTree.system "kept" .compact (atPrice 2000000000000001)).run .empty
        = (.ok (), t') ∧
      (load FileTree.system "kept").run t' = (.ok (atPrice 2000000000000000.75), t') ∧
      atPrice 2000000000000000.75 ≠ atPrice 2000000000000001 := by
  have fits : ∀ i ∈ (atPrice 2000000000000001).wholes, fitsWord i := by decide
  obtain ⟨t', saved, loaded⟩ := saved_loads_iff .compact fits writable_kept
  exact ⟨t', saved, (loaded _).mpr ⟨by decide +kernel, by decide +kernel⟩, by decide +kernel⟩

end SeriesFile

end Trendline
