import Trendline.Proofs.Document.Layouts
import Trendline.Proofs.Document.Saving
import Trendline.Proofs.Double.Order

/-!
Collections loaded from files. Only what obeys the rules loads, a series loads alike from each
layout, and a series file of a newer version does not load.
-/

namespace Trendline

open Json Text

namespace Collection

variable {t : FileTree} {path : String} {text : Source} {c : Collection Float}

theorem validate_eq_ok_iff :
    c.validate path = .ok () ↔ ∀ s ∈ c.series, s.validate = .ok () := by
  rw [validate, forM_ok_iff]
  refine forall₂_congr fun s _ => ?_
  cases s.validate with
  | ok => simp
  | error e => simp

/-- A text loads exactly if it is a document in some layout whose collection passes the checks. -/
theorem ofText_eq_ok_iff : ofText path text = .ok c ↔
    ∃ document, SeriesDocument.ofText? text = some document ∧ ofDocument path document = .ok c ∧
      ∀ s ∈ c.series, s.validate = .ok () := by
  rw [ofText]
  cases SeriesDocument.ofText? text with
  | none => simp
  | some document =>
      simp only [bind_eq_ok_iff, pure_eq_ok, Except.ok.injEq, Option.some.injEq, exists_eq_left']
      constructor
      · intro ⟨c', found, ⟨⟩, checked, same⟩
        cases same
        exact ⟨found, validate_eq_ok_iff.1 checked⟩
      · intro ⟨found, valid⟩
        exact ⟨c, found, (), validate_eq_ok_iff.2 valid, rfl⟩

/-- What loading a path gives; the files stay as they are. -/
def loaded (t : FileTree) (path : String) : Except Failure (Collection Float) :=
  ((load FileTree.system path).run t).1

theorem run_load (t : FileTree) (path : String) :
    (load FileTree.system path).run t = (seriesText path (t.read path) >>= ofText path, t) :=
  rfl

theorem loaded_of_read {bytes : ByteArray} (found : t.read path = .ok bytes) :
    loaded t path = ofText path (.ofBytes bytes) := by
  rw [loaded, run_load, found]
  rfl

theorem loaded_of_text {text : String} (found : t.read path = .ok text.toUTF8) :
    loaded t path = ofText path (.ofString text) := by
  simpa using loaded_of_read found

theorem exists_read_of_loaded (success : loaded t path = .ok c) :
    ∃ bytes, t.read path = .ok bytes ∧ ofText path (.ofBytes bytes) = .ok c := by
  cases found : t.read path with
  | ok bytes => exact ⟨bytes, rfl, loaded_of_read found ▸ success⟩
  | error e =>
      rw [loaded, run_load, found] at success
      cases e <;> cases success

theorem valid_of_loaded (success : loaded t path = .ok c) {s : Series Float} (mem : s ∈ c.series) :
    s.validate = .ok () := by
  obtain ⟨bytes, -, success⟩ := exists_read_of_loaded success
  obtain ⟨document, -, -, valid⟩ := ofText_eq_ok_iff.1 success
  exact valid s mem

/-- No collection loads from a text of which all layouts but that of a newer series file are ruled
out. -/
theorem exists_error_of_newer
    (newer : ∀ document, SeriesDocument.ofText? text = some document →
      ∃ file, document = .file file ∧ SeriesFile.newest < file.version) :
    ∃ e, ofText path text = .error e := by
  cases loads : ofText path text with
  | error e => exact ⟨e, rfl⟩
  | ok c =>
      obtain ⟨document, held, accepted, -⟩ := ofText_eq_ok_iff.1 loads
      obtain ⟨file, rfl, newer⟩ := newer document held
      rw [ofDocument, if_pos newer] at accepted
      cases accepted

theorem newer_text_refused {file : SeriesFile Float} (held : SeriesFile.ofText? text = some file)
    (newer : SeriesFile.newest < file.version) : ∃ e, ofText path text = .error e := by
  obtain ⟨v, parsed, decoded⟩ := Option.bind_eq_some_iff.1 held
  refine exists_error_of_newer fun document taken => ⟨file, ?_, newer⟩
  simp only [SeriesDocument.ofText?, parsed, Option.bind_eq_bind, Option.bind_some] at taken
  split at taken
  · simpa [SeriesDocument.decode?, decoded, eq_comm] using taken
  · cases taken

/-- A series file of a newer version is refused even if the rest of it does not read back. -/
theorem newer_file_refused {file : SeriesFile Float} (spacing : Spacing)
    (back : file.version.isFinite → ReadsBack file.version)
    (newer : SeriesFile.newest < file.version) :
    ∃ e, ofText path (.ofString (file.render spacing)) = .error e := by
  refine exists_error_of_newer fun document taken => ?_
  have collection : decode? file.toJson = none := decode?_ofMembers_eq_none (by simp)
  have bars : list? Bar.decode? file.toJson = none := rfl
  have parsed := parse?_render spacing file.wellWritten_toJson
  simp only [SeriesDocument.ofText?, SeriesFile.render, parsed, Option.bind_eq_bind,
    Option.bind_some] at taken
  split at taken
  · rw [SeriesDocument.decode?, collection, bars] at taken
    cases decoded : SeriesFile.decode? file.toJson with
    | none => simp [decoded] at taken
    | some found =>
        rw [decoded] at taken
        refine ⟨found, by simpa [eq_comm] using taken, ?_⟩
        rwa [SeriesFile.version_of_decode?_toJson back decoded]
  · cases taken

end Collection

/-- A series file with one series, which obeys the rules and is named after a path. Its whole
numbers fit words, and of its doubles the finite ones read back from their own texts. -/
structure SeriesFile.Carries (file : SeriesFile Float) (s : Series Float) (path : String) :
    Prop where
  single : file.data.series = [s]
  valid : s.validate = .ok ()
  named : Path.stem path = s.symbol
  fits : ∀ i ∈ file.wholes, fitsWord i
  version_finite : file.version.isFinite
  data_version_finite : file.data.version.isFinite
  back : ∀ x ∈ file.doubles, x.isFinite → ReadsBack x

namespace SeriesFile.Carries

variable {file : SeriesFile Float} {s : Series Float} {path : String} {spacing : Spacing}

theorem fits_series (carries : file.Carries s path) : ∀ i ∈ s.wholes, fitsWord i := by
  have fits := carries.fits
  simp only [wholes, Collection.wholes, carries.single, List.forall_mem_cons, List.flatMap_cons,
    List.flatMap_nil, List.append_nil] at fits
  exact fits.2.2

theorem readsBack (carries : file.Carries s path) {x : Float} (mem : x ∈ file.doubles) :
    ReadsBack x := by
  refine carries.back x mem ?_
  have wf := Series.validate_eq_ok_iff.1 carries.valid
  simp only [doubles, Collection.doubles, carries.single, List.mem_cons, List.flatMap_cons,
    List.flatMap_nil, List.append_nil] at mem
  rcases mem with rfl | rfl | mem
  · exact carries.version_finite
  · exact carries.data_version_finite
  · exact wf.isFinite_of_mem_doubles mem

theorem fits_bars (carries : file.Carries s path) : ∀ bar ∈ s.bars, fitsWord bar.time := by
  simp only [Series.bars, List.forall_mem_map, List.mem_range]
  intro i inside
  refine carries.fits_series _ (List.mem_cons_of_mem _ ?_)
  exact (mem_toList_iff_getD rfl 0).2 ⟨i, inside, rfl⟩

theorem readsBack_bars (carries : file.Carries s path) :
    ∀ bar ∈ s.bars, ∀ x ∈ bar.doubles, ReadsBack x := by
  have wf := Series.validate_eq_ok_iff.1 carries.valid
  simp only [Series.bars, List.forall_mem_map, List.mem_range]
  intro i inside x mem
  refine carries.readsBack ?_
  simp [doubles, Collection.doubles, carries.single, wf.mem_doubles_iff.2 ⟨i, inside, mem⟩]

theorem valid_series (carries : file.Carries s path) :
    ∀ s ∈ file.data.series, s.validate = .ok () := by
  simp [carries.single, carries.valid]

theorem load_file (carries : file.Carries s path) (supported : file.version ≤ newest) :
    Collection.ofText path (.ofString (file.render spacing)) = .ok file.data := by
  refine Collection.ofText_eq_ok_iff.2 ⟨.file file, ?_, ?_, carries.valid_series⟩
  · exact SeriesDocument.ofText?_file spacing carries.fits fun _ => carries.readsBack
  · exact if_neg (Double.not_lt_of_le supported)

theorem load_collection (carries : file.Carries s path) :
    Collection.ofText path (.ofString (file.data.toJson.render spacing)) = .ok file.data := by
  have fits := (List.forall_mem_cons.1 (List.forall_mem_cons.1 carries.fits).2).2
  have back : ∀ x ∈ file.data.doubles, ReadsBack x :=
    fun x mem => carries.readsBack (List.mem_cons_of_mem _ mem)
  exact Collection.ofText_eq_ok_iff.2 ⟨.collection file.data,
    SeriesDocument.ofText?_collection spacing fits back, rfl, carries.valid_series⟩

theorem load_bars (carries : file.Carries s path) :
    Collection.ofText path (.ofString ((barsToJson s.bars).render spacing))
      = .ok ⟨path, newest, [{ s with interval := Series.usualGap s.times.toList }]⟩ := by
  have wf := Series.validate_eq_ok_iff.1 carries.valid
  have valid := Series.validate_eq_ok_iff.2 (wf.relabelled s.symbol (Series.usualGap s.times.toList))
  refine Collection.ofText_eq_ok_iff.2 ⟨.bars s.bars, ?_, ?_, by simpa using valid⟩
  · exact SeriesDocument.ofText?_bars spacing carries.fits_bars carries.readsBack_bars
  · simp [Collection.ofDocument, Collection.ofBars, carries.named, wf.ofBars_bars]

end SeriesFile.Carries

namespace Collection

/-- Whatever loads obeys the rules. A series that obeys them loads alike from a series file that
holds it, from the collection in that file and from the list of its bars, which gives no interval.
No series file of a newer version loads, as little from a text that is one as from what was written
of one, of which not even the rest need read back. -/
theorem layouts_agree (t : FileTree) (path : String) :
    (∀ c, loaded t path = .ok c → ∀ s ∈ c.series, s.validate = .ok ()) ∧
    (∀ (file : SeriesFile Float) (s : Series Float) (spacing : Spacing), file.Carries s path →
      (file.version ≤ SeriesFile.newest → t.read path = .ok (file.render spacing).toUTF8 →
        loaded t path = .ok file.data) ∧
      (t.read path = .ok (file.data.toJson.render spacing).toUTF8 →
        loaded t path = .ok file.data) ∧
      (t.read path = .ok ((barsToJson s.bars).render spacing).toUTF8 →
        loaded t path = .ok
          ⟨path, SeriesFile.newest, [{ s with interval := Series.usualGap s.times.toList }]⟩)) ∧
    (∀ bytes file, t.read path = .ok bytes → SeriesFile.ofText? (.ofBytes bytes) = some file →
      SeriesFile.newest < file.version → ∃ e, loaded t path = .error e) ∧
    (∀ (file : SeriesFile Float) (spacing : Spacing),
      t.read path = .ok (file.render spacing).toUTF8 →
      (file.version.isFinite → ReadsBack file.version) → SeriesFile.newest < file.version →
      ∃ e, loaded t path = .error e) := by
  refine ⟨fun c success s mem => valid_of_loaded success mem, ?_, ?_, ?_⟩
  · intro file s spacing carries
    refine ⟨fun supported found => ?_, fun found => ?_, fun found => ?_⟩
    · rw [loaded_of_text found, carries.load_file supported]
    · rw [loaded_of_text found, carries.load_collection]
    · rw [loaded_of_text found, carries.load_bars]
  · intro bytes file found held newer
    rw [loaded_of_read found]
    exact newer_text_refused held newer
  · intro file spacing found back newer
    rw [loaded_of_text found]
    exact newer_file_refused spacing back newer

/-- A series whose gaps are mostly not of its interval. -/
def uneven : Series Float where
  symbol := "A"
  interval := 3600000
  times := #[0, 60000, 120000, 3720000]
  openings := #[1, 2, 3, 2.5]
  highs := #[2, 3, 4, 3]
  lows := #[0.5, 1.5, 2.5, 2]
  closings := #[1.5, 2.5, 3.5, 2.25]
  volumes := #[10, 0, 0.1, 1e9]

def unevenFile : SeriesFile Float :=
  ⟨1, 1700000000000, 3600000, ⟨"hours", 0.5, [uneven]⟩⟩

/-- The same file, of a newer version. -/
def newerFile : SeriesFile Float :=
  { unevenFile with version := 1.5 }

theorem unevenFile_carries : unevenFile.Carries uneven "A" where
  single := rfl
  valid := by decide +kernel
  named := by
    have slashless : "A".splitOn "/" = ["A"] := by cbv
    have dotless : "A".splitOn "." = ["A"] := by cbv
    simp [Path.stem, Path.namesReversed, slashless, Path.trimReversed, Path.stemOfName, dotless,
      uneven]
  fits := by decide
  version_finite := by decide
  data_version_finite := by decide
  back := by
    simp only [readsBack_iff]
    decide +kernel

/-- The file system that holds nothing but one document. -/
def keeping (name : String) (spacing : Spacing) (v : Json) : FileTree :=
  FileTree.empty.put [name] (v.render spacing).toUTF8

theorem read_keeping (spacing : Spacing) (v : Json) :
    (keeping "A" spacing v).read "A" = .ok (v.render spacing).toUTF8 := by
  have bare : "A".splitOn "/" = ["A"] := by cbv
  have target : FileTree.target .empty "A" = .ok ["A"] :=
    FileTree.target_of_name (by decide) bare (by cbv) (by decide) (by decide) (by decide)
  exact FileTree.read_put target

theorem layouts_agree_uneven :
    loaded (keeping "A" .indented unevenFile.toJson) "A" = .ok unevenFile.data ∧
    loaded (keeping "A" .compact unevenFile.data.toJson) "A" = .ok unevenFile.data ∧
    loaded (keeping "A" .indented (barsToJson uneven.bars)) "A"
      = .ok ⟨"A", 1, [{ uneven with interval := 60000 }]⟩ ∧
    ∃ e, loaded (keeping "A" .compact newerFile.toJson) "A" = .error e := by
  have newer : ReadsBack 1.5 := readsBack_iff.2 (by decide +kernel)
  have interval : Series.usualGap [0, 60000, 120000, 3720000] = 60000 := by cbv
  refine ⟨?_, ?_, ?_, ?_⟩
  · exact ((layouts_agree _ "A").2.1 unevenFile uneven _ unevenFile_carries).1 (by decide)
      (read_keeping _ _)
  · exact ((layouts_agree _ "A").2.1 unevenFile uneven _ unevenFile_carries).2.1 (read_keeping _ _)
  · exact interval ▸ ((layouts_agree _ "A").2.1 unevenFile uneven _ unevenFile_carries).2.2
      (read_keeping _ _)
  · exact (layouts_agree _ "A").2.2.2 newerFile _ (read_keeping _ _) (fun _ => newer) (by decide)

end Collection

end Trendline
