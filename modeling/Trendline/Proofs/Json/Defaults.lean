import Mathlib
import Trendline.Json.Decode

/-!
Records whose fields need not be given. An object is read as such a record just when each of its
keys is a field, none occurs twice, and every value can be read as its field; the record then holds
what is given where something is given, and the defaults elsewhere. The order of the keys has no
part in that.
-/

namespace Trendline.Json

/-- A field of a kind of record: its key, how its value is read, and where it stands. -/
structure RecordField (ρ : Type) where
  name : String
  Value : Type
  decode? : Json → Option Value
  get : ρ → Value

/-- A reader of records that leaves every field at its default that is not given, and passes over
no key. -/
structure DefaultedReader (ρ : Type) where
  form : RecordForm
  fields : List (RecordField ρ)
  default : ρ
  decode? : Json → Option ρ
  names : fields.map (·.name) = form.fields
  closed : form.allowsOthers = false
  /-- What is read holds what each field reads. -/
  reads : ∀ v r, decode? v = some r ↔ ∃ known, v.members? form = some known ∧
    ∀ f ∈ fields, defaulted? known f.name (f.get default) f.decode? = some (f.get r)
  /-- Where every field can be read, so can the record. -/
  readable : ∀ v known, v.members? form = some known →
    (∀ f ∈ fields, (defaulted? known f.name (f.get default) f.decode?).isSome) →
    (decode? v).isSome

section Members

variable {ms : List (Quoted × Json)} {known : List (String × Json)} {form : RecordForm}

/-- A member and the same member with its key as a text. -/
def Spells (m : Quoted × Json) (k : String × Json) : Prop :=
  Quoted.string? m.1 = some k.1 ∧ m.2 = k.2

theorem mapM_keys_eq_some_iff :
    ms.mapM (fun (q, v) => (Quoted.string? q).map (·, v)) = some known ↔
      List.Forall₂ Spells ms known := by
  induction ms generalizing known with
  | nil => cases known <;> simp
  | cons m ms ih =>
      simp only [List.mapM_cons, Option.bind_eq_bind, Option.bind_eq_some_iff,
        Option.map_eq_some_iff, ih, Option.pure_def, Option.some.injEq,
        List.forall₂_cons_left_iff]
      constructor
      · rintro ⟨_, ⟨key, text, rfl⟩, rest, spelled, rfl⟩
        exact ⟨(key, m.2), rest, ⟨text, rfl⟩, spelled, rfl⟩
      · rintro ⟨⟨key, v⟩, rest, ⟨text, rfl⟩, spelled, rfl⟩
        exact ⟨_, ⟨key, text, rfl⟩, rest, spelled, rfl⟩

/-- Where no key is passed over, an object gives its members if each key is a field of its own. -/
theorem members?_object_eq_some_iff (closed : form.allowsOthers = false) :
    (object ms).members? form = some known ↔
      List.Forall₂ Spells ms known ∧ (known.map (·.1)).Nodup ∧ ∀ k ∈ known, k.1 ∈ form.fields := by
  rw [← mapM_keys_eq_some_iff]
  cases keyed : ms.mapM fun (q, v) => (Quoted.string? q).map (·, v) with
  | none => simp [members?, keyed]
  | some all =>
      simp only [members?, keyed, closed, Option.bind_eq_bind, Option.bind_some, Bool.false_or,
        Option.ite_none_right_eq_some, Bool.and_eq_true, decide_eq_true_eq, Option.some.injEq,
        List.length_filter_eq_length_iff, List.contains_iff_mem]
      have whole (fields : ∀ k ∈ all, k.1 ∈ form.fields) :
          all.filter (fun k => form.fields.contains k.1) = all :=
        List.filter_eq_self.mpr fun k mem => List.contains_iff_mem.mpr (fields k mem)
      constructor
      · rintro ⟨⟨distinct, fields⟩, rfl⟩
        rw [whole fields] at distinct ⊢
        exact ⟨rfl, distinct, fields⟩
      · rintro ⟨rfl, distinct, fields⟩
        rw [whole fields]
        exact ⟨⟨distinct, fields⟩, rfl⟩

/-- Texts for all keys exist if each key is the text of a field. -/
theorem exists_spelled (texts : ∀ m ∈ ms, ∃ key, Quoted.string? m.1 = some key) :
    ∃ known, List.Forall₂ Spells ms known := by
  induction ms with
  | nil => exact ⟨[], .nil⟩
  | cons m ms ih =>
      obtain ⟨⟨key, text⟩, rest⟩ := List.forall_mem_cons.mp texts
      obtain ⟨known, spelled⟩ := ih rest
      exact ⟨(key, m.2) :: known, .cons ⟨text, rfl⟩ spelled⟩

theorem map_texts (spelled : List.Forall₂ Spells ms known) :
    ms.map (fun m => Quoted.string? m.1) = (known.map (·.1)).map some := by
  induction spelled with
  | nil => rfl
  | cons head _ ih => simp [head.1, ih]

theorem mem_spelled_iff (spelled : List.Forall₂ Spells ms known) {key : String} {v : Json} :
    (key, v) ∈ known ↔ ∃ m ∈ ms, Quoted.string? m.1 = some key ∧ m.2 = v := by
  induction spelled with
  | nil => simp
  | @cons m k ms known head _ ih =>
      obtain ⟨text, value⟩ := head
      have first : (key, v) = k ↔ Quoted.string? m.1 = some key ∧ m.2 = v := by
        rw [text, value, Prod.ext_iff, Option.some.injEq]
        exact and_congr eq_comm eq_comm
      simp only [List.mem_cons, or_and_right, exists_or, exists_eq_left, first, ih]

theorem lookup_eq_some_iff_mem (distinct : (known.map (·.1)).Nodup) {key : String} {v : Json} :
    known.lookup key = some v ↔ (key, v) ∈ known := by
  induction known with
  | nil => simp
  | cons k known ih =>
      obtain ⟨other, w⟩ := k
      obtain ⟨absent, rest⟩ := List.nodup_cons.mp distinct
      by_cases same : key = other
      · subst same
        have elsewhere : (key, v) ∉ known :=
          fun mem => absent (List.mem_map_of_mem (f := (·.1)) mem)
        simp [List.lookup, elsewhere, eq_comm]
      · have differs : (key == other) = false := by simpa using same
        simp [List.lookup, differs, ih rest, same]

end Members

namespace DefaultedReader

variable {ρ : Type} (d : DefaultedReader ρ)

/-- The objects that are read: all keys are fields, none is given twice, and every value can be read
as its field. -/
structure Admits (ms : List (Quoted × Json)) : Prop where
  known : ∀ m ∈ ms, ∃ f ∈ d.fields, Quoted.string? m.1 = some f.name
  distinct : (ms.map fun m => Quoted.string? m.1).Nodup
  decodes : ∀ m ∈ ms, ∀ f ∈ d.fields, Quoted.string? m.1 = some f.name → (f.decode? m.2).isSome

/-- The record has the given values at the given keys, and the defaults elsewhere. -/
structure Sets (ms : List (Quoted × Json)) (r : ρ) : Prop where
  given : ∀ m ∈ ms, ∀ f ∈ d.fields, Quoted.string? m.1 = some f.name →
    f.decode? m.2 = some (f.get r)
  others : ∀ f ∈ d.fields, (∀ m ∈ ms, Quoted.string? m.1 ≠ some f.name) →
    f.get r = f.get d.default

variable {d} {ms ms' : List (Quoted × Json)} {r : ρ}

theorem mem_fields_iff {key : String} : key ∈ d.form.fields ↔ ∃ f ∈ d.fields, key = f.name := by
  rw [← d.names, List.mem_map]
  simp only [eq_comm]

/-- What the members of an object give for a field. -/
theorem defaulted?_eq_some_iff {known : List (String × Json)} {f : RecordField ρ} {x : f.Value}
    (spelled : List.Forall₂ Spells ms known) (distinct : (known.map (·.1)).Nodup) :
    defaulted? known f.name (f.get d.default) f.decode? = some x ↔
      (∀ m ∈ ms, Quoted.string? m.1 = some f.name → f.decode? m.2 = some x) ∧
        ((∀ m ∈ ms, Quoted.string? m.1 ≠ some f.name) → f.get d.default = x) := by
  have mem {v : Json} : (f.name, v) ∈ known ↔
      ∃ m ∈ ms, Quoted.string? m.1 = some f.name ∧ m.2 = v :=
    mem_spelled_iff spelled
  rw [defaulted?]
  cases found : known.lookup f.name with
  | none =>
      have absent : ∀ m ∈ ms, Quoted.string? m.1 ≠ some f.name := by
        intro m inside text
        have given := mem.mpr ⟨m, inside, text, rfl⟩
        rw [← lookup_eq_some_iff_mem distinct, found] at given
        cases given
      simp only [Option.some.injEq]
      exact ⟨fun eq => ⟨fun m inside text => (absent m inside text).elim, fun _ => eq⟩,
        fun h => h.2 absent⟩
  | some v =>
      rw [lookup_eq_some_iff_mem distinct] at found
      obtain ⟨m, inside, text, rfl⟩ := mem.mp found
      constructor
      · refine fun value =>
          ⟨fun other inside' text' => ?_, fun absent => (absent m inside text).elim⟩
        have again := mem.mpr ⟨other, inside', text', rfl⟩
        rw [← lookup_eq_some_iff_mem distinct] at found again
        rw [← Option.some.inj (found.symm.trans again)]
        exact value
      · exact fun h => h.1 m inside text

theorem Admits.exists_known (h : d.Admits ms) :
    ∃ known, List.Forall₂ Spells ms known ∧ (known.map (·.1)).Nodup ∧
      (object ms).members? d.form = some known := by
  obtain ⟨known, spelled⟩ := exists_spelled fun m inside =>
    (h.known m inside).imp' RecordField.name fun _ field => field.2
  have distinct := h.distinct
  rw [map_texts spelled] at distinct
  have distinct := distinct.of_map
  refine ⟨known, spelled, distinct, (members?_object_eq_some_iff d.closed).mpr
    ⟨spelled, distinct, fun k inside => ?_⟩⟩
  obtain ⟨m, source, text, -⟩ := (mem_spelled_iff spelled).mp inside
  obtain ⟨f, field, name⟩ := h.known m source
  exact mem_fields_iff.mpr ⟨f, field, Option.some.inj (text.symm.trans name)⟩

/-- What an object is read as. -/
theorem decode?_object_eq_some_iff :
    d.decode? (.object ms) = some r ↔ d.Admits ms ∧ d.Sets ms r := by
  rw [d.reads]
  constructor
  · rintro ⟨known, members, each⟩
    obtain ⟨spelled, distinct, fields⟩ := (members?_object_eq_some_iff d.closed).mp members
    have given := fun f field => (defaulted?_eq_some_iff spelled distinct).mp (each f field)
    refine ⟨⟨fun m inside => ?_, ?_, fun m inside f field text => ?_⟩,
      ⟨fun m inside f field => (given f field).1 m inside, fun f field absent => ?_⟩⟩
    · have text : Quoted.string? m.1 ∈ (known.map (·.1)).map some :=
        map_texts spelled ▸ List.mem_map_of_mem inside
      obtain ⟨key, name, text⟩ := List.mem_map.mp text
      obtain ⟨k, inside, rfl⟩ := List.mem_map.mp name
      obtain ⟨f, field, name⟩ := mem_fields_iff.mp (fields k inside)
      exact ⟨f, field, by rw [← text, name]⟩
    · rw [map_texts spelled]
      exact distinct.map fun _ _ => Option.some.inj
    · rw [(given f field).1 m inside text]
      rfl
    · exact ((given f field).2 absent).symm
  · rintro ⟨admits, sets⟩
    obtain ⟨known, spelled, distinct, members⟩ := admits.exists_known
    refine ⟨known, members, fun f field => (defaulted?_eq_some_iff spelled distinct).mpr ⟨?_, ?_⟩⟩
    · exact fun m inside => sets.given m inside f field
    · exact fun absent => (sets.others f field absent).symm

/-- Which objects are read at all. -/
theorem isSome_decode?_object_iff : (d.decode? (.object ms)).isSome ↔ d.Admits ms := by
  constructor
  · intro some
    obtain ⟨r, read⟩ := Option.isSome_iff_exists.mp some
    exact (decode?_object_eq_some_iff.mp read).1
  · intro admits
    obtain ⟨known, spelled, distinct, members⟩ := admits.exists_known
    refine d.readable _ known members fun f field => ?_
    rw [defaulted?]
    cases found : known.lookup f.name with
    | none => rfl
    | some v =>
        rw [lookup_eq_some_iff_mem distinct] at found
        obtain ⟨m, inside, text, rfl⟩ := (mem_spelled_iff spelled).mp found
        exact admits.decodes m inside f field text

theorem Admits.perm (h : d.Admits ms) (perm : ms.Perm ms') : d.Admits ms' where
  known m inside := h.known m (perm.mem_iff.mpr inside)
  distinct := (perm.map _).nodup_iff.mp h.distinct
  decodes m inside := h.decodes m (perm.mem_iff.mpr inside)

theorem Sets.perm (h : d.Sets ms r) (perm : ms.Perm ms') : d.Sets ms' r where
  given m inside := h.given m (perm.mem_iff.mpr inside)
  others f field absent := h.others f field fun m inside => absent m (perm.mem_iff.mp inside)

/-- The order of the keys has no part in what is read. -/
theorem decode?_object_perm (perm : ms.Perm ms') :
    d.decode? (.object ms) = d.decode? (.object ms') := by
  ext r
  rw [decode?_object_eq_some_iff, decode?_object_eq_some_iff]
  exact ⟨fun ⟨admits, sets⟩ => ⟨admits.perm perm, sets.perm perm⟩,
    fun ⟨admits, sets⟩ => ⟨admits.perm perm.symm, sets.perm perm.symm⟩⟩

/-- Neither has a value that every field reads as the same. -/
theorem decode?_object_replace {before after : List (Quoted × Json)} {q : Quoted} {v v' : Json}
    (same : ∀ f ∈ d.fields, Quoted.string? q = some f.name → f.decode? v = f.decode? v') :
    d.decode? (.object (before ++ (q, v) :: after))
      = d.decode? (.object (before ++ (q, v') :: after)) := by
  have admits {v v' : Json}
      (same : ∀ f ∈ d.fields, Quoted.string? q = some f.name → f.decode? v = f.decode? v')
      (h : d.Admits (before ++ (q, v) :: after)) : d.Admits (before ++ (q, v') :: after) := by
    obtain ⟨known, distinct, decodes⟩ := h
    simp only [List.forall_mem_append, List.forall_mem_cons] at known decodes
    refine ⟨?_, by simpa using distinct, ?_⟩
    · simpa only [List.forall_mem_append, List.forall_mem_cons] using known
    · simp only [List.forall_mem_append, List.forall_mem_cons]
      exact ⟨decodes.1, fun f field text => same f field text ▸ decodes.2.1 f field text,
        decodes.2.2⟩
  have sets {v v' : Json} {r : ρ}
      (same : ∀ f ∈ d.fields, Quoted.string? q = some f.name → f.decode? v = f.decode? v')
      (h : d.Sets (before ++ (q, v) :: after) r) : d.Sets (before ++ (q, v') :: after) r := by
    obtain ⟨given, others⟩ := h
    simp only [List.forall_mem_append, List.forall_mem_cons] at given others
    refine ⟨?_, ?_⟩
    · simp only [List.forall_mem_append, List.forall_mem_cons]
      exact ⟨given.1, fun f field text => same f field text ▸ given.2.1 f field text, given.2.2⟩
    · simpa only [List.forall_mem_append, List.forall_mem_cons] using others
  have back f field text := (same f field text).symm
  ext r
  rw [decode?_object_eq_some_iff, decode?_object_eq_some_iff]
  exact ⟨fun h => ⟨admits same h.1, sets same h.2⟩, fun h => ⟨admits back h.1, sets back h.2⟩⟩

variable (d) in
/-- An object with a key that is no field, or with a key that occurs twice. -/
def Strays (ms : List (Quoted × Json)) : Prop :=
  (∃ m ∈ ms, ∀ f ∈ d.fields, Quoted.string? m.1 ≠ some f.name) ∨
    ¬ (ms.map fun m => Quoted.string? m.1).Nodup

theorem decode?_object_of_strays (strays : d.Strays ms) : d.decode? (.object ms) = none := by
  rw [← Option.not_isSome_iff_eq_none, isSome_decode?_object_iff]
  intro admits
  rcases strays with ⟨m, inside, unknown⟩ | repeated
  · obtain ⟨f, field, text⟩ := admits.known m inside
    exact unknown f field text
  · exact repeated admits.distinct

end DefaultedReader

end Trendline.Json
