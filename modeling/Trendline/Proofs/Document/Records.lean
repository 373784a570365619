import Trendline.Document.Series
import Trendline.Proofs.Json.Values

/-!
Series, collections and series files taken back out of the documents they were put into. Besides
texts these hold whole numbers, which must fit a word, and doubles, each of which comes back as what
its own text is read as.
-/

namespace Trendline

open Json

namespace Series

variable {s : Series Float}

/-- The whole numbers of a series. -/
def wholes (s : Series Float) : List Int :=
  s.interval :: s.times.toList

def doubles (s : Series Float) : List Float :=
  s.openings.toList ++ s.highs.toList ++ s.lows.toList ++ s.closings.toList ++ s.volumes.toList

/-- The series with all its doubles replaced. -/
def map {α β : Type} (f : α → β) (s : Series α) : Series β where
  symbol := s.symbol
  interval := s.interval
  times := s.times
  openings := s.openings.map f
  highs := s.highs.map f
  lows := s.lows.map f
  closings := s.closings.map f
  volumes := s.volumes.map f

@[simp]
theorem map_id (s : Series Float) : s.map id = s := by
  simp [map]

theorem wellWritten_columnJson (xs : Array Float) : (columnJson xs).WellWritten :=
  wellWritten_ofList fun x _ => wellWritten_ofFloat x

theorem list?_columnJson {xs : Array Float} {f : Float → Float}
    (reads : ∀ x ∈ xs, float? (ofFloat x) = some (f x)) :
    list? float? (columnJson xs) = some (xs.map f).toList := by
  rw [columnJson, list?_ofList_map fun x mem => reads x (Array.mem_toList_iff.1 mem),
    Array.toList_map]

theorem isReadable_columnJson {xs : Array Float} (back : ∀ x ∈ xs, ReadsBack x) (limit : Nat) :
    (columnJson xs).isReadable (limit + 1) = true :=
  isReadable_ofList fun x mem => isReadable_ofFloat (back x (Array.mem_toList_iff.1 mem)) limit

theorem wellWritten_toJson (s : Series Float) : s.toJson.WellWritten := by
  have times : (ofList ofInt s.times.toList).WellWritten :=
    wellWritten_ofList fun i _ => wellWritten_ofInt i
  refine wellWritten_ofMembers ?_
  simp [wellWritten_ofString, wellWritten_ofInt, wellWritten_columnJson, times]

/-- Each double of a series is read for itself. -/
theorem decode?_toJson_map {f : Float → Float} (fits : ∀ i ∈ s.wholes, fitsWord i)
    (reads : ∀ x ∈ s.doubles, float? (ofFloat x) = some (f x)) :
    decode? s.toJson = some (s.map f) := by
  simp only [wholes, List.forall_mem_cons] at fits
  simp only [doubles, List.forall_mem_append, Array.mem_toList_iff] at reads
  obtain ⟨⟨⟨⟨openings, highs⟩, lows⟩, closings⟩, volumes⟩ := reads
  have times : list? int? (ofList ofInt s.times.toList) = some s.times.toList :=
    list?_ofList fun i mem => int?_ofInt (fits.2 i mem)
  rw [decode?, toJson, members?_ofMembers rfl (by decide)]
  simp [required?, defaulted?, column?, List.lookup, int?_ofInt fits.1, times,
    list?_columnJson openings, list?_columnJson highs, list?_columnJson lows,
    list?_columnJson closings, list?_columnJson volumes, map, -Array.toList_map]

theorem isFinite_of_column? {members : List (String × Json)} {field : String}
    {xs ys : Array Float} (given : members.lookup field = some (columnJson xs))
    (read : column? members field = some ys) : ∀ x ∈ xs, x.isFinite = true := by
  rw [column?, required?, given, Option.bind_some, Option.map_eq_some_iff] at read
  obtain ⟨values, read, -⟩ := read
  intro x mem
  exact isFinite_of_float?_ofFloat (isSome_of_mapM_map read x (Array.mem_toList_iff.mpr mem))

/-- A series that reads back has finite doubles only. -/
theorem isFinite_of_decode?_toJson {found : Series Float} (read : decode? s.toJson = some found) :
    ∀ x ∈ s.doubles, x.isFinite = true := by
  rw [decode?, toJson, members?_ofMembers rfl (by decide)] at read
  simp only [Option.bind_eq_bind, Option.bind_some, Option.bind_eq_some_iff] at read
  obtain ⟨_, -, _, -, _, -, _, openings, _, highs, _, lows, _, closings, _, volumes, -⟩ := read
  simp only [doubles, List.forall_mem_append, Array.mem_toList_iff]
  exact ⟨⟨⟨⟨isFinite_of_column? rfl openings, isFinite_of_column? rfl highs⟩,
    isFinite_of_column? rfl lows⟩, isFinite_of_column? rfl closings⟩,
    isFinite_of_column? rfl volumes⟩

theorem isReadable_toJson (fits : ∀ i ∈ s.wholes, fitsWord i)
    (back : ∀ x ∈ s.doubles, ReadsBack x) (limit : Nat) :
    s.toJson.isReadable (limit + 2) = true := by
  simp only [wholes, List.forall_mem_cons] at fits
  simp only [doubles, List.forall_mem_append, Array.mem_toList_iff] at back
  obtain ⟨⟨⟨⟨openings, highs⟩, lows⟩, closings⟩, volumes⟩ := back
  have times : (ofList ofInt s.times.toList).isReadable (limit + 1) = true :=
    isReadable_ofList fun i mem => isReadable_ofInt (fits.2 i mem) limit
  refine isReadable_ofMembers ?_
  simp [isReadable_ofString, isReadable_ofInt fits.1, times, isReadable_columnJson openings,
    isReadable_columnJson highs, isReadable_columnJson lows, isReadable_columnJson closings,
    isReadable_columnJson volumes]

end Series

namespace Collection

variable {c : Collection Float}

def map {α β : Type} (f : α → β) (c : Collection α) : Collection β where
  name := c.name
  version := f c.version
  series := c.series.map (Series.map f)

@[simp]
theorem map_id (c : Collection Float) : c.map id = c := by
  have same : Series.map (id : Float → Float) = id := funext Series.map_id
  simp [map, same]

def wholes (c : Collection Float) : List Int :=
  c.series.flatMap Series.wholes

def doubles (c : Collection Float) : List Float :=
  c.version :: c.series.flatMap Series.doubles

theorem wellWritten_toJson (c : Collection Float) : c.toJson.WellWritten := by
  have series : (ofList Series.toJson c.series).WellWritten :=
    wellWritten_ofList fun s _ => s.wellWritten_toJson
  refine wellWritten_ofMembers ?_
  simp [wellWritten_ofString, wellWritten_ofFloat, series]

theorem decode?_toJson_map {f : Float → Float} (fits : ∀ i ∈ c.wholes, fitsWord i)
    (reads : ∀ x ∈ c.doubles, float? (ofFloat x) = some (f x)) :
    decode? c.toJson = some (c.map f) := by
  simp only [wholes, List.forall_mem_flatMap] at fits
  simp only [doubles, List.forall_mem_cons, List.forall_mem_flatMap] at reads
  have series : list? Series.decode? (ofList Series.toJson c.series)
      = some (c.series.map (Series.map f)) :=
    list?_ofList_map fun s mem => Series.decode?_toJson_map (fits s mem) (reads.2 s mem)
  rw [decode?, toJson, members?_ofMembers rfl (by decide)]
  simp [required?, List.lookup, reads.1, series, map]

theorem decode?_toJson (fits : ∀ i ∈ c.wholes, fitsWord i)
    (back : ∀ x ∈ c.doubles, ReadsBack x) : decode? c.toJson = some c := by
  simpa using decode?_toJson_map (f := id) fits fun x mem => readsBack_iff.1 (back x mem)

theorem isFinite_of_decode?_toJson {found : Collection Float}
    (read : decode? c.toJson = some found) : ∀ x ∈ c.doubles, x.isFinite = true := by
  rw [decode?, toJson, members?_ofMembers rfl (by decide)] at read
  simp only [Option.bind_eq_bind, Option.bind_some, Option.bind_eq_some_iff] at read
  obtain ⟨_, -, _, version, _, series, -⟩ := read
  simp only [doubles, List.forall_mem_cons, List.forall_mem_flatMap]
  refine ⟨isFinite_of_float?_ofFloat (Option.isSome_of_mem version), fun s mem => ?_⟩
  obtain ⟨found, read⟩ := Option.isSome_iff_exists.mp (isSome_of_mapM_map series s mem)
  exact Series.isFinite_of_decode?_toJson read

theorem isReadable_toJson (fits : ∀ i ∈ c.wholes, fitsWord i)
    (back : ∀ x ∈ c.doubles, ReadsBack x) (limit : Nat) :
    c.toJson.isReadable (limit + 4) = true := by
  simp only [wholes, List.forall_mem_flatMap] at fits
  simp only [doubles, List.forall_mem_cons, List.forall_mem_flatMap] at back
  have series : (ofList Series.toJson c.series).isReadable (limit + 3) = true :=
    isReadable_ofList fun s mem => Series.isReadable_toJson (fits s mem) (back.2 s mem) limit
  refine isReadable_ofMembers ?_
  simp [isReadable_ofString, isReadable_ofFloat back.1, series]

end Collection

namespace SeriesFile

variable {file : SeriesFile Float}

def map {α β : Type} (f : α → β) (file : SeriesFile α) : SeriesFile β where
  version := f file.version
  time := file.time
  interval := file.interval
  data := file.data.map f

@[simp]
theorem map_id (file : SeriesFile Float) : file.map id = file := by
  simp [map]

def wholes (file : SeriesFile Float) : List Int :=
  file.time :: file.interval :: file.data.wholes

def doubles (file : SeriesFile Float) : List Float :=
  file.version :: file.data.doubles

theorem wellWritten_toJson (file : SeriesFile Float) : file.toJson.WellWritten := by
  refine wellWritten_ofMembers ?_
  simp [wellWritten_ofInt, wellWritten_ofFloat, Collection.wellWritten_toJson]

theorem decode?_toJson_map {f : Float → Float} (fits : ∀ i ∈ file.wholes, fitsWord i)
    (reads : ∀ x ∈ file.doubles, float? (ofFloat x) = some (f x)) :
    decode? file.toJson = some (file.map f) := by
  simp only [wholes, List.forall_mem_cons] at fits
  simp only [doubles, List.forall_mem_cons] at reads
  rw [decode?, toJson, members?_ofMembers rfl (by decide)]
  simp [required?, List.lookup, reads.1, int?_ofInt fits.1, int?_ofInt fits.2.1,
    Collection.decode?_toJson_map fits.2.2 reads.2, map]

theorem decode?_toJson (fits : ∀ i ∈ file.wholes, fitsWord i)
    (back : ∀ x ∈ file.doubles, ReadsBack x) : decode? file.toJson = some file := by
  simpa using decode?_toJson_map (f := id) fits fun x mem => readsBack_iff.1 (back x mem)

theorem isFinite_of_decode?_toJson {found : SeriesFile Float}
    (read : decode? file.toJson = some found) : ∀ x ∈ file.doubles, x.isFinite = true := by
  rw [decode?, toJson, members?_ofMembers rfl (by decide)] at read
  simp only [Option.bind_eq_bind, Option.bind_some, Option.bind_eq_some_iff] at read
  obtain ⟨_, version, _, -, _, -, _, data, -⟩ := read
  simp only [doubles, List.forall_mem_cons]
  exact ⟨isFinite_of_float?_ofFloat (Option.isSome_of_mem version),
    Collection.isFinite_of_decode?_toJson data⟩

theorem isReadable_toJson (fits : ∀ i ∈ file.wholes, fitsWord i)
    (back : ∀ x ∈ file.doubles, ReadsBack x) (limit : Nat) :
    file.toJson.isReadable (limit + 5) = true := by
  simp only [wholes, List.forall_mem_cons] at fits
  simp only [doubles, List.forall_mem_cons] at back
  refine isReadable_ofMembers ?_
  simp [isReadable_ofInt fits.1, isReadable_ofInt fits.2.1, isReadable_ofFloat back.1,
    Collection.isReadable_toJson fits.2.2 back.2]

end SeriesFile

end Trendline
