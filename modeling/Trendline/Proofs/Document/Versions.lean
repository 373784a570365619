import Trendline.Proofs.Document.Loading

/-!
Which versions the documents declare that load. A series file is held to the newest version of the
layout. The version of a collection is not looked at, whether a series file holds it or it stands
alone, so what loads may be newer than that, but only there.
-/

namespace Trendline

open Json Text

/-- The versions that a document declares. -/
def SeriesDocument.versions : SeriesDocument → List Float
  | .file f => [f.version, f.data.version]
  | .collection c => [c.version]
  | .bars _ => []

namespace Collection

variable {t : FileTree} {path : String} {bytes : ByteArray} {document : SeriesDocument}
  {c : Collection Float}

/-- Of a document that is accepted only the version of the collection can be newer. -/
theorem not_newer_iff_of_ofDocument (accepted : ofDocument path document = .ok c) :
    (∀ v ∈ document.versions, ¬ SeriesFile.newest < v) ↔ ¬ SeriesFile.newest < c.version := by
  cases document with
  | file f =>
      rw [ofDocument] at accepted
      split at accepted
      · cases accepted
      · cases accepted
        simp [SeriesDocument.versions, *]
  | collection c =>
      cases accepted
      simp [SeriesDocument.versions]
  | bars bars =>
      have same : ¬ SeriesFile.newest < SeriesFile.newest := by decide
      rw [ofDocument, ofBars] at accepted
      split at accepted
      · cases accepted
        simp [SeriesDocument.versions, same]
      · cases accepted

/-- Whatever loads declares no newer version unless its collection does, and a series file that
declares a newer one is refused for that. -/
theorem loaded_not_newer_iff (found : t.read path = .ok bytes)
    (held : SeriesDocument.ofText? (.ofBytes bytes) = some document) :
    (∀ c, loaded t path = .ok c →
      ((∀ v ∈ document.versions, ¬ SeriesFile.newest < v) ↔ ¬ SeriesFile.newest < c.version)) ∧
    (∀ file, document = .file file → SeriesFile.newest < file.version →
      loaded t path = .error (.newerVersion file.version SeriesFile.newest)) := by
  rw [loaded_of_read found]
  constructor
  · intro c success
    obtain ⟨document, taken, accepted, -⟩ := ofText_eq_ok_iff.1 success
    cases held.symm.trans taken
    exact not_newer_iff_of_ofDocument accepted
  · rintro file rfl newer
    simp [ofText, held, ofDocument, newer]
    rfl

theorem loaded_not_newer_iff_uneven :
    ((∀ v ∈ (SeriesDocument.file unevenFile).versions, ¬ SeriesFile.newest < v) ↔
      ¬ SeriesFile.newest < unevenFile.data.version) ∧
    loaded (keeping "A" .compact newerFile.toJson) "A"
      = .error (.newerVersion 1.5 SeriesFile.newest) := by
  have held : SeriesDocument.ofText? (.ofBytes (unevenFile.toJson.render .indented).toUTF8)
      = some (.file unevenFile) := by
    simpa [SeriesFile.render] using SeriesDocument.ofText?_file .indented unevenFile_carries.fits
      fun _ => unevenFile_carries.readsBack
  have back : ∀ x ∈ newerFile.doubles, ReadsBack x := by
    simp only [readsBack_iff]
    decide +kernel
  have newer : SeriesDocument.ofText? (.ofBytes (newerFile.toJson.render .compact).toUTF8)
      = some (.file newerFile) := by
    simpa [SeriesFile.render] using SeriesDocument.ofText?_file .compact (by decide) back
  have loads : loaded (keeping "A" .indented unevenFile.toJson) "A" = .ok unevenFile.data := by
    rw [loaded_of_text (read_keeping _ _)]
    exact unevenFile_carries.load_file (by decide)
  constructor
  · exact (loaded_not_newer_iff (read_keeping .indented _) held).1 _ loads
  · exact (loaded_not_newer_iff (read_keeping .compact _) newer).2 newerFile rfl (by decide)

/-- A collection of a newer version, which stands alone. -/
def newerCollection : Collection Float :=
  { unevenFile.data with version := 2 }

/-- Documents that declare a newer version do load. -/
theorem newer_collection_loads :
    ¬ ∀ (t : FileTree) (path : String) (bytes : ByteArray) (document : SeriesDocument)
      (c : Collection Float), t.read path = .ok bytes →
      SeriesDocument.ofText? (.ofBytes bytes) = some document → loaded t path = .ok c →
      ∀ v ∈ document.versions, ¬ SeriesFile.newest < v := by
  intro claim
  have back : ∀ x ∈ newerCollection.doubles, ReadsBack x := by
    simp only [readsBack_iff]
    decide +kernel
  have held := SeriesDocument.ofText?_collection .compact (by decide) back
  have loads : loaded (keeping "A" .compact newerCollection.toJson) "A" = .ok newerCollection := by
    rw [loaded_of_text (read_keeping _ _)]
    exact ofText_eq_ok_iff.2 ⟨_, held, rfl, by decide +kernel⟩
  refine claim _ "A" _ (.collection newerCollection) _ (read_keeping .compact _) ?_ loads 2 ?_
    (by decide)
  · simpa using held
  · simp [SeriesDocument.versions, newerCollection]

end Collection

end Trendline
