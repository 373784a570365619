import Trendline.Json.Decode
import Trendline.Proofs.Json.Reading

/-!
Values taken back out of the documents they were put into: whole numbers that fit a word, texts,
lists and records. A double is put in as its shortest digits, and whether those read back as the
same double is said of each double apart.
-/

namespace Trendline

open Decimal

section Numbers

theorem fitsWord_iff {i : Int} :
    fitsWord i = true ↔ -0x8000000000000000 ≤ i ∧ i < 0x8000000000000000 := by
  rw [fitsWord, Bool.and_eq_true, decide_eq_true_eq, decide_eq_true_eq]
  rfl

/-- Digits that fit a word are gathered into the number they write. -/
theorem Number.foldl_whole_digitsOf {n : Nat} (fits : n < wordCount) :
    (digitsOf n).foldl Gathered.whole ⟨0, 0, false⟩ = ⟨n, 0, false⟩ := by
  fun_induction digitsOf n with
  | case1 n small => simp [Gathered.whole, Nat.not_le.2 fits]
  | case2 n large ih =>
      have front := ih (by omega)
      have whole : 10 * (n / 10) + n % 10 = n := by omega
      simp [front, Gathered.whole, whole, Nat.not_le.2 fits]

theorem Number.ofNumeral?_ofNat {n : Nat} (fits : n < wordCount) :
    ofNumeral? (.ofNat n) = some (.natural n) := by
  simp [ofNumeral?, Numeral.ofNat, foldl_whole_digitsOf fits]

theorem Number.ofNumeral?_ofInt_neg {i : Int} (fits : fitsWord i) (negative : i < 0) :
    ofNumeral? (.ofInt i) = some (.negative i) := by
  rw [fitsWord_iff] at fits
  have fold := foldl_whole_digitsOf (n := i.natAbs) (by rw [wordCount]; omega)
  have nonzero : i ≠ 0 := by omega
  have small : ¬ halfWordCount < i.natAbs := by rw [halfWordCount]; omega
  have restored : -(i.natAbs : Int) = i := by omega
  simp only [ofNumeral?, Numeral.ofInt, fold, negative, decide_true, List.isEmpty_nil,
    Option.isNone_none, Bool.and_self, Bool.not_false, Bool.not_true, Bool.false_eq_true, if_true,
    if_false, Int.natAbs_eq_zero, nonzero, decide_false, small, Bool.or_self, restored]

end Numbers

namespace Json

theorem ofInt_natCast (n : Nat) : ofInt n = ofNat n := by
  simp [ofInt, ofNat, Numeral.ofInt, Numeral.ofNat]

theorem int?_ofInt {i : Int} (fits : fitsWord i) : int? (ofInt i) = some i := by
  rcases Int.lt_or_le i 0 with negative | natural
  · simp [int?, ofInt, Number.ofNumeral?_ofInt_neg fits negative]
  · obtain ⟨n, rfl⟩ := Int.eq_ofNat_of_zero_le natural
    have small : n < wordCount := by
      rw [fitsWord_iff] at fits
      rw [wordCount]
      omega
    simp [ofInt_natCast, int?, ofNat, Number.ofNumeral?_ofNat small, fits]

end Json

section Texts

theorem Piece.chars?_ofChar_cons (c : Char) (q : Quoted) :
    Quoted.chars? (Piece.ofChar c :: q) = (Quoted.chars? q).map (c :: ·) := by
  fun_cases Piece.ofChar c with
  | case1 | case2 | case3 | case4 | case5 | case6 | case7 => rw [Quoted.chars?]
  | case8 =>
      have single : c.toNat < 0xD800 ∨ 0xDFFF < c.toNat := .inl (by omega)
      rw [Quoted.chars?.eq_def]
      simp only [if_pos single, Char.ofNat_toNat]
  | case9 => rw [Quoted.chars?]

@[simp]
theorem Quoted.string?_ofString (s : String) : string? (ofString s) = some s := by
  have chars : ∀ cs : List Char, chars? (cs.map Piece.ofChar) = some cs := by
    intro cs
    induction cs with
    | nil => rfl
    | cons c cs ih => simp [Piece.chars?_ofChar_cons, ih]
  simp [string?, ofString, chars]

end Texts

namespace Json

section Records

@[simp]
theorem string?_ofString (s : String) : string? (ofString s) = some s := by
  simp [string?, ofString]

theorem mapM_map_eq_some_map {α β γ : Type} {encode : α → β} {decode : β → Option γ} {f : α → γ}
    {xs : List α} (reads : ∀ x ∈ xs, decode (encode x) = some (f x)) :
    (xs.map encode).mapM decode = some (xs.map f) := by
  induction xs with
  | nil => rfl
  | cons x xs ih =>
      simp only [List.forall_mem_cons] at reads
      simp [List.mapM_cons, reads.1, ih reads.2]

theorem mapM_map_eq_some {α β : Type} {encode : α → β} {decode : β → Option α} {xs : List α}
    (inverse : ∀ x ∈ xs, decode (encode x) = some x) : (xs.map encode).mapM decode = some xs := by
  simpa using mapM_map_eq_some_map (f := id) inverse

/-- A list is read only if all that was put into it can be read. -/
theorem isSome_of_mapM_map {α β γ : Type} {encode : α → β} {decode : β → Option γ} {xs : List α}
    {ys : List γ} (read : (xs.map encode).mapM decode = some ys) :
    ∀ x ∈ xs, (decode (encode x)).isSome := by
  induction xs generalizing ys with
  | nil => exact List.forall_mem_nil _
  | cons x xs ih =>
      rw [List.map_cons, List.mapM_cons] at read
      obtain ⟨y, first, read⟩ := Option.bind_eq_some_iff.mp read
      obtain ⟨ys, rest, -⟩ := Option.bind_eq_some_iff.mp read
      exact List.forall_mem_cons.mpr ⟨Option.isSome_of_mem first, ih rest⟩

theorem list?_ofList_map {α β : Type} {encode : α → Json} {decode : Json → Option β} {f : α → β}
    {xs : List α} (reads : ∀ x ∈ xs, decode (encode x) = some (f x)) :
    list? decode (ofList encode xs) = some (xs.map f) :=
  mapM_map_eq_some_map reads

theorem list?_ofList {α : Type} {encode : α → Json} {decode : Json → Option α} {xs : List α}
    (inverse : ∀ x ∈ xs, decode (encode x) = some x) : list? decode (ofList encode xs) = some xs :=
  mapM_map_eq_some inverse

theorem mapM_keys (members : List (String × Json)) :
    (members.map fun (key, v) => (Quoted.ofString key, v)).mapM
      (fun (q, v) => (Quoted.string? q).map (·, v)) = some members :=
  mapM_map_eq_some (by simp)

/-- The members of a record come back if they are its fields, each once. -/
theorem members?_ofMembers {form : RecordForm} {members : List (String × Json)}
    (fields : members.map (·.1) = form.fields) (distinct : form.fields.Nodup) :
    (ofMembers members).members? form = some members := by
  have known : members.filter (fun m => form.fields.contains m.1) = members := by
    refine List.filter_eq_self.2 fun m mem => List.contains_iff_mem.2 ?_
    exact fields ▸ List.mem_map_of_mem mem
  simp only [ofMembers, members?, mapM_keys, Option.bind_eq_bind, Option.bind_some, known, fields]
  simp [distinct]

/-- A field that is no key of an object is not given, whichever keys the record has. -/
theorem lookup_members?_of_notMem {form : RecordForm} {members known : List (String × Json)}
    {field : String} (found : (ofMembers members).members? form = some known)
    (absent : field ∉ members.map (·.1)) : known.lookup field = none := by
  simp only [ofMembers, members?, mapM_keys, Option.bind_eq_bind, Option.bind_some] at found
  split at found
  · cases found
    refine List.lookup_eq_none_iff.2 fun m mem => ?_
    have given := List.mem_map_of_mem (f := (·.1)) (List.mem_filter.1 mem).1
    have other : field ≠ m.1 := fun same => absent (same ▸ given)
    simpa using other
  · cases found

theorem eq_zip_of_members?_list {form : RecordForm} {items : List Json}
    {known : List (String × Json)} (found : (list items).members? form = some known) :
    known = form.fields.zip items := by
  rw [members?] at found
  split at found
  · exact (Option.some.inj found).symm
  · cases found

end Records

section Doubles

/-- A double whose text reads back as the same double. -/
def ReadsBack (x : Float) : Prop :=
  (parse? (.ofString ((ofFloat x).render .compact))).bind float? = some x

theorem wellWritten_ofFloat (x : Float) : (ofFloat x).WellWritten := by
  fun_cases ofFloat x with
  | case1 n written => exact wellWritten_number (Layout.wellWritten_of_numeral? written)
  | case2 => exact wellWritten_null

theorem ofFloat_of_not_isFinite {x : Float} (infinite : x.isFinite = false) :
    ofFloat x = .null := by
  rw [ofFloat, Layout.numeral?_eq_none_iff.2 infinite]

theorem isFinite_of_float?_ofFloat {x : Float} (read : (float? (ofFloat x)).isSome) :
    x.isFinite = true := by
  by_contra infinite
  rw [ofFloat_of_not_isFinite (Bool.not_eq_true _ ▸ infinite)] at read
  cases read

theorem readsBack_iff {x : Float} : ReadsBack x ↔ float? (ofFloat x) = some x := by
  rw [ReadsBack, parse?_render .compact (wellWritten_ofFloat x), Option.bind_some]

end Doubles

section Readable

theorem isReadable_ofInt {i : Int} (fits : fitsWord i) (limit : Nat) :
    (ofInt i).isReadable limit = true := by
  have value := int?_ofInt fits
  rw [ofInt, isReadable, Option.isSome_iff_ne_none]
  rintro none
  simp [int?, ofInt, none] at value

theorem isReadable_ofFloat {x : Float} (back : ReadsBack x) (limit : Nat) :
    (ofFloat x).isReadable limit = true := by
  have value := readsBack_iff.1 back
  revert value
  fun_cases ofFloat x with
  | case1 n =>
      intro value
      rw [isReadable, Option.isSome_iff_ne_none]
      rintro none
      simp [float?, none] at value
  | case2 => exact fun _ => by rw [isReadable]

theorem isReadable_ofString (s : String) (limit : Nat) : (ofString s).isReadable limit = true := by
  simp [ofString, isReadable]

theorem isReadable_ofList {α : Type} {encode : α → Json} {xs : List α} {limit : Nat}
    (readable : ∀ x ∈ xs, (encode x).isReadable limit = true) :
    (ofList encode xs).isReadable (limit + 1) = true := by
  simpa [ofList, isReadable] using readable

theorem isReadable_ofMembers {members : List (String × Json)} {limit : Nat}
    (readable : ∀ m ∈ members, m.2.isReadable limit = true) :
    (ofMembers members).isReadable (limit + 1) = true := by
  simpa [ofMembers, isReadable] using readable

end Readable

end Json

end Trendline
