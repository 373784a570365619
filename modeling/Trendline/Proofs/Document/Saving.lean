import Trendline.Document.Store
import Trendline.Files.Tree
import Trendline.Proofs.Document.Records
import Trendline.Proofs.Files
import Trendline.Proofs.Text.Source

/-!
Series files survive being saved: what `load` finds where `save` has written is the file that was
saved, with either spacing, whether its directory was there or had to be made.
-/

namespace Trendline

open Json Text

theorem seriesText_toUTF8 (path text : String) :
    seriesText path (.ok text.toUTF8) = .ok (.ofString text) := by
  simp [seriesText]

namespace SeriesFile

variable {t t' : FileTree} {path : String} {file : SeriesFile Float}

/-- The text of a series file holds that file. -/
theorem ofText?_render (spacing : Spacing) (fits : ∀ i ∈ file.wholes, fitsWord i)
    (back : ∀ x ∈ file.doubles, ReadsBack x) :
    ofText? (.ofString (file.render spacing)) = some file := by
  rw [ofText?, render, parse?_render spacing file.wellWritten_toJson]
  exact decode?_toJson fits back

theorem run_load (t : FileTree) (path : String) :
    (load FileTree.system path).run t = (seriesText path (t.read path) >>= ofText path, t) :=
  rfl

theorem run_save {made written : FileTree} (spacing : Spacing)
    (prepared : t.prepared path = .ok made)
    (wrote : made.write path (file.render spacing).toUTF8 = .ok written) :
    (save FileTree.system path spacing file).run t = pure (.ok (), written) := by
  rw [FileTree.prepared] at prepared
  split at prepared
  · next working =>
      cases prepared
      simp [save, working, FileTree.run_write wrote]
  · next holder =>
      simp [save, holder, FileTree.run_makeDirectories prepared, FileTree.run_write wrote]

/-- A series file whose doubles are finite is the one that is loaded after it was saved. That a
finite double reads back from its own text is assumed of those that the file holds. -/
theorem saved_file_loads (spacing : Spacing) (fits : ∀ i ∈ file.wholes, fitsWord i)
    (finite : ∀ x ∈ file.doubles, x.isFinite) (back : ∀ x ∈ file.doubles, x.isFinite → ReadsBack x)
    (writable : t.Writable path) :
    ∃ t', (save FileTree.system path spacing file).run t = (.ok (), t') ∧
      (load FileTree.system path).run t' = (.ok file, t') := by
  obtain ⟨made, _, prepared, empty⟩ := writable
  obtain ⟨t', wrote⟩ := FileTree.exists_write empty (file.render spacing).toUTF8
  refine ⟨t', run_save spacing prepared wrote, ?_⟩
  have text := ofText?_render spacing fits fun x mem => back x mem (finite x mem)
  rw [run_load, FileTree.read_write wrote, seriesText_toUTF8, ok_bind, ofText, text]

/-- Texts with all that must be escaped, the extremes of words, columns of several sizes. -/
def awkward : SeriesFile Float where
  version := 1
  time := -0x8000000000000000
  interval := 0x7fffffffffffffff
  data := {
    name := "\"\\/\x00\x1f\n\t\x7b"
    version := -0.0
    series := [
      { symbol := "é\x7f漢😀", interval := 60000, times := #[3, -1]
        openings := #[1.5, 1e300, 0.0], highs := #[], lows := #[5e-324], closings := #[-2.75]
        volumes := #[0.1] },
      { symbol := "", interval := 0, times := #[], openings := #[], highs := #[], lows := #[]
        closings := #[], volumes := #[] }] }

theorem saved_file_loads_awkward :
    ∃ t', (save FileTree.system "kept" .indented awkward).run .empty = (.ok (), t') ∧
      (load FileTree.system "kept").run t' = (.ok awkward, t') := by
  have bare : "kept".splitOn "/" = ["kept"] := by cbv
  have writable : FileTree.Writable .empty "kept" :=
    FileTree.writable_of_target bare
      (FileTree.target_of_name (by decide) bare (by cbv) (by decide) (by decide) (by decide))
  refine saved_file_loads .indented (by decide) (by decide +kernel) ?_ writable
  simp only [readsBack_iff]
  decide +kernel

end SeriesFile

end Trendline
