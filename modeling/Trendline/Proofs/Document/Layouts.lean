import Trendline.Proofs.Columns
import Trendline.Proofs.Document.Records

/-!
The layouts in which series come, told apart. A document is taken by the first layout that it has,
so each comes through only because no earlier one takes it too: a collection gives no time, a series
file no name, and a list has a bar where the others have a number or a text.
-/

namespace Trendline

open Json Text

section Rows

/-- A bar as an object. -/
def Bar.toJson (bar : Bar Float) : Json :=
  .ofMembers [
    ("timestamp_ms", .ofInt bar.time),
    ("open", .ofFloat bar.opening),
    ("high", .ofFloat bar.high),
    ("low", .ofFloat bar.low),
    ("close", .ofFloat bar.closing),
    ("volume", .ofFloat bar.volume)]

def Bar.doubles (bar : Bar Float) : List Float :=
  [bar.opening, bar.high, bar.low, bar.closing, bar.volume]

/-- Bars as a plain list. -/
def barsToJson (bars : List (Bar Float)) : Json :=
  .ofList Bar.toJson bars

variable {bar : Bar Float}

theorem Bar.wellWritten_toJson (bar : Bar Float) : bar.toJson.WellWritten := by
  refine wellWritten_ofMembers ?_
  simp [wellWritten_ofInt, wellWritten_ofFloat]

theorem Bar.decode?_toJson (fits : fitsWord bar.time) (back : ∀ x ∈ bar.doubles, ReadsBack x) :
    decode? bar.toJson = some bar := by
  simp only [doubles, List.forall_mem_cons, readsBack_iff] at back
  rw [decode?, toJson, members?_ofMembers rfl (by decide)]
  simp [required?, List.lookup, int?_ofInt fits, back]

theorem Bar.isReadable_toJson (fits : fitsWord bar.time) (back : ∀ x ∈ bar.doubles, ReadsBack x)
    (limit : Nat) : bar.toJson.isReadable (limit + 1) = true := by
  simp only [doubles, List.forall_mem_cons] at back
  obtain ⟨opening, high, low, closing, volume, -⟩ := back
  refine isReadable_ofMembers ?_
  simp [isReadable_ofInt fits, isReadable_ofFloat, *]

end Rows

namespace Series.WellFormed

variable {s : Series Float}

/-- The doubles of a series are those of its bars. -/
theorem mem_doubles_iff (wf : s.WellFormed) {x : Float} :
    x ∈ s.doubles ↔ ∃ i < s.size, x ∈ (s.barAt i).doubles := by
  have columns := wf.columns
  simp only [columnSizes, List.forall_mem_cons] at columns
  obtain ⟨openings, highs, lows, closings, volumes, -⟩ := columns
  simp only [doubles, List.mem_append, mem_toList_iff_getD openings 0, mem_toList_iff_getD highs 0,
    mem_toList_iff_getD lows 0, mem_toList_iff_getD closings 0, mem_toList_iff_getD volumes 0]
  simp [Bar.doubles, barAt, eq_comm, and_or_left, exists_or, or_assoc]

theorem isFinite_of_mem_doubles (wf : s.WellFormed) {x : Float} (mem : x ∈ s.doubles) :
    x.isFinite = true := by
  obtain ⟨i, inside, mem⟩ := wf.mem_doubles_iff.1 mem
  have finite := wf.finite i inside
  simp only [Bar.isFinite, Bool.and_eq_true] at finite
  simp only [Bar.doubles, List.mem_cons, List.not_mem_nil, or_false] at mem
  rcases mem with rfl | rfl | rfl | rfl | rfl
  all_goals simp_all [Scalar.isFinite]

end Series.WellFormed

section Layouts

variable {file : SeriesFile Float} {c : Collection Float}

/-- Whatever else of a series file reads back, its version does as it was. -/
theorem SeriesFile.version_of_decode?_toJson {found : SeriesFile Float}
    (back : file.version.isFinite → ReadsBack file.version)
    (decoded : decode? file.toJson = some found) : found.version = file.version := by
  rw [decode?, toJson, members?_ofMembers rfl (by decide)] at decoded
  simp only [Option.bind_eq_bind, Option.bind_some, Option.bind_eq_some_iff] at decoded
  obtain ⟨version, given, _, -, _, -, _, -, ⟨⟩⟩ := decoded
  have value : float? (ofFloat file.version) = some version := by
    simpa [required?, List.lookup] using given
  cases finite : file.version.isFinite with
  | true => simpa [readsBack_iff.1 (back finite), eq_comm] using value
  | false => simp [ofFloat_of_not_isFinite finite, float?] at value

theorem SeriesFile.decode?_ofMembers_eq_none {members : List (String × Json)}
    (timeless : "timestamp_ms" ∉ members.map (·.1)) : decode? (ofMembers members) = none := by
  rw [decode?]
  cases found : (ofMembers members).members? form with
  | none => rfl
  | some known => simp [required?, lookup_members?_of_notMem found timeless]

theorem Collection.decode?_ofMembers_eq_none {members : List (String × Json)}
    (nameless : "name" ∉ members.map (·.1)) : decode? (ofMembers members) = none := by
  rw [decode?]
  cases found : (ofMembers members).members? form with
  | none => rfl
  | some known => simp [required?, lookup_members?_of_notMem found nameless]

/-- A list is a series file only if a number stands first. -/
theorem SeriesFile.decode?_barsToJson (bars : List (Bar Float)) :
    decode? (barsToJson bars) = none := by
  cases bars with
  | nil => rfl
  | cons bar rest =>
      rw [decode?]
      cases found : (barsToJson (bar :: rest)).members? form with
      | none => rfl
      | some known =>
          have first : known = form.fields.zip ((bar :: rest).map Bar.toJson) :=
            eq_zip_of_members?_list found
          simp [required?, first, form, Bar.toJson, ofMembers, float?]

/-- A list is a collection only if a text stands first. -/
theorem Collection.decode?_barsToJson (bars : List (Bar Float)) :
    decode? (barsToJson bars) = none := by
  cases bars with
  | nil => rfl
  | cons bar rest =>
      rw [decode?]
      cases found : (barsToJson (bar :: rest)).members? form with
      | none => rfl
      | some known =>
          have first : known = form.fields.zip ((bar :: rest).map Bar.toJson) :=
            eq_zip_of_members?_list found
          simp [required?, first, form, Bar.toJson, ofMembers, string?]

namespace SeriesDocument

variable (spacing : Spacing)

/-- A document that was written is told apart from its text as from its values. -/
theorem ofText?_render {v : Json} (written : v.WellWritten)
    (readable : v.isReadable depthLimit = true) :
    ofText? (.ofString (v.render spacing)) = decode? v := by
  simp [ofText?, parse?_render spacing written, readable]

theorem ofText?_file (fits : ∀ i ∈ file.wholes, fitsWord i)
    (back : ∀ x ∈ file.doubles, ReadsBack x) :
    ofText? (.ofString (file.render spacing)) = some (.file file) := by
  rw [SeriesFile.render, ofText?_render spacing file.wellWritten_toJson
    (file.isReadable_toJson fits back 122)]
  simp [decode?, SeriesFile.decode?_toJson fits back]

theorem ofText?_collection (fits : ∀ i ∈ c.wholes, fitsWord i)
    (back : ∀ x ∈ c.doubles, ReadsBack x) :
    ofText? (.ofString (c.toJson.render spacing)) = some (.collection c) := by
  have file : SeriesFile.decode? c.toJson = none :=
    SeriesFile.decode?_ofMembers_eq_none (by simp)
  rw [ofText?_render spacing c.wellWritten_toJson (c.isReadable_toJson fits back 123)]
  simp [decode?, file, Collection.decode?_toJson fits back]

theorem ofText?_bars {bars : List (Bar Float)} (fits : ∀ bar ∈ bars, fitsWord bar.time)
    (back : ∀ bar ∈ bars, ∀ x ∈ bar.doubles, ReadsBack x) :
    ofText? (.ofString ((barsToJson bars).render spacing)) = some (.bars bars) := by
  have written : (barsToJson bars).WellWritten :=
    wellWritten_ofList fun bar _ => bar.wellWritten_toJson
  have readable : (barsToJson bars).isReadable (125 + 2) = true :=
    isReadable_ofList fun bar mem => Bar.isReadable_toJson (fits bar mem) (back bar mem) 125
  have items : list? Bar.decode? (barsToJson bars) = some bars :=
    list?_ofList fun bar mem => Bar.decode?_toJson (fits bar mem) (back bar mem)
  rw [ofText?_render spacing written readable]
  simp [decode?, SeriesFile.decode?_barsToJson, Collection.decode?_barsToJson, items]

end SeriesDocument

end Layouts

end Trendline
