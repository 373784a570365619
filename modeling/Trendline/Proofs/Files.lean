import Mathlib
import Trendline.Files.Tree
import Trendline.Proofs.Traversal

/-!
Files read back as they were written. What a write needs of a path says nothing of the content, and
a file that was put in takes away no place that a path led to before.
-/

namespace Trendline.FileTree

variable {t t' : FileTree} {path : String} {bytes : ByteArray} {names : List String}

section Put

theorem lookup_put (t : FileTree) (names : List String) (bytes : ByteArray) :
    (t.put names bytes).files.lookup names = some bytes := by
  simp [put]

theorem isSome_lookup_put {other : List String} (found : (t.files.lookup other).isSome = true) :
    ((t.put names bytes).files.lookup other).isSome = true := by
  by_cases same : other = names
  · simp [same, lookup_put]
  · rw [List.lookup_isSome_iff] at found ⊢
    obtain ⟨entry, mem, key⟩ := found
    have kept : entry.1 ≠ names := fun moved => same ((beq_iff_eq.1 key).trans moved)
    exact ⟨entry, List.mem_cons_of_mem _ (List.mem_filter.2 ⟨mem, by simpa using kept⟩), key⟩

@[simp]
theorem isDirectory_put (t : FileTree) (names : List String) (bytes : ByteArray) (p : Place) :
    (t.put names bytes).isDirectory p = t.isDirectory p := by
  cases p <;> rfl

@[simp]
theorem step_put (t : FileTree) (names : List String) (bytes : ByteArray) (p : Place)
    (name : String) : (t.put names bytes).step p name = t.step p name := by
  simp [step]

theorem exists?_put {p : Place} (found : t.exists? p = true) :
    (t.put names bytes).exists? p = true := by
  cases p with
  | outside => rfl
  | inside other =>
      simp only [exists?, Bool.or_eq_true] at found ⊢
      exact found.imp_right isSome_lookup_put

theorem enter_eq_ok {p q : Place} {name : String} :
    t.enter p name = .ok q ↔ t.step p name = .ok q ∧ t.exists? q = true := by
  rw [enter, bind_eq_ok_iff]
  constructor
  · intro ⟨r, stepped, entered⟩
    split at entered
    · cases entered
      exact ⟨stepped, ‹_›⟩
    · cases entered
  · intro ⟨stepped, found⟩
    exact ⟨q, stepped, if_pos found⟩

theorem enter_put {p q : Place} {name : String} (entered : t.enter p name = .ok q) :
    (t.put names bytes).enter p name = .ok q := by
  rw [enter_eq_ok] at entered ⊢
  exact ⟨by simpa using entered.1, exists?_put entered.2⟩

theorem foldlM_enter_put {parts : List String} {p q : Place}
    (entered : parts.foldlM t.enter p = .ok q) :
    parts.foldlM (t.put names bytes).enter p = .ok q := by
  induction parts generalizing p with
  | nil => exact entered
  | cons name parts ih =>
      obtain ⟨r, first, rest⟩ := bind_eq_ok_iff.1 entered
      rw [List.foldlM_cons, enter_put first, ok_bind]
      exact ih rest

end Put

section Write

/-- The names of the file that a path writes to. -/
def target (t : FileTree) (path : String) : Except FileError (List String) := do
  let (holder, name, slashed) ← t.lastName path
  if slashed then throw .isDirectory
  let p ← t.step holder name
  if t.isDirectory p then throw .isDirectory
  match p with
  | .outside => throw .notFound
  | .inside names => return names

theorem write_eq (t : FileTree) (path : String) (bytes : ByteArray) :
    t.write path bytes = (t.target path).map fun names => t.put names bytes := by
  simp only [write, target]
  cases t.lastName path with
  | error e => rfl
  | ok last =>
      obtain ⟨holder, name, slashed⟩ := last
      cases slashed with
      | true => rfl
      | false =>
          simp only [ok_bind, Bool.false_eq_true, if_false, pure_eq_ok]
          cases t.step holder name with
          | error e => rfl
          | ok p =>
              simp only [ok_bind]
              split
              · rfl
              · cases p <;> rfl

theorem write_eq_ok_iff :
    t.write path bytes = .ok t' ↔ ∃ names, t.target path = .ok names ∧ t.put names bytes = t' := by
  rw [write_eq]
  cases t.target path <;> simp [Except.map]

/-- Where no slash follows the last name, the names before it lead to what holds it. -/
theorem lastName_eq_ok {holder : Place} {name : String}
    (last : t.lastName path = .ok (holder, name, false)) :
    checkPath path = .ok () ∧ ∃ above, path.splitOn "/" = above ++ [name] ∧
      above.foldlM t.enter (start path) = .ok holder := by
  obtain ⟨⟨⟩, valid, last⟩ := bind_eq_ok_iff.1 last
  refine ⟨valid, ?_⟩
  simp only at last
  split at last
  · cases last
  · next file above rest =>
      obtain ⟨place, reached, last⟩ := bind_eq_ok_iff.1 last
      split at last
      · cases last
      · simp only [pure_eq_ok, Except.ok.injEq, Prod.mk.injEq, decide_eq_false_iff_not] at last
        obtain ⟨rfl, rfl, ends⟩ := last
        have all : (path.splitOn "/").reverse = file :: above := by
          rw [← rest]
          cases reversed : (path.splitOn "/").reverse with
          | nil => rfl
          | cons part parts =>
              have solid : ¬ part.isEmpty = true := by simpa [reversed] using ends
              rw [List.dropWhile_cons_of_neg solid]
        exact ⟨above.reverse, by simpa using congrArg List.reverse all, reached⟩

theorem exists_of_target (found : t.target path = .ok names) :
    ∃ above name holder, path.splitOn "/" = above ++ [name] ∧ checkPath path = .ok () ∧
      above.foldlM t.enter (start path) = .ok holder ∧ t.step holder name = .ok (.inside names) ∧
      t.isDirectory (.inside names) = false := by
  obtain ⟨⟨holder, name, slashed⟩, last, found⟩ := bind_eq_ok_iff.1 found
  cases slashed with
  | true => cases found
  | false =>
      obtain ⟨valid, above, parts, reached⟩ := lastName_eq_ok last
      simp only [Bool.false_eq_true, if_false, pure_eq_ok] at found
      obtain ⟨p, stepped, found⟩ := bind_eq_ok_iff.1 found
      split at found
      · cases found
      · cases p with
        | outside => cases found
        | inside names =>
            cases found
            exact ⟨above, name, holder, parts, valid, reached, stepped, Bool.eq_false_iff.2 ‹_›⟩

theorem read_put (found : t.target path = .ok names) :
    (t.put names bytes).read path = .ok bytes := by
  obtain ⟨above, name, holder, parts, valid, reached, stepped, file⟩ := exists_of_target found
  have entered : (t.put names bytes).enter holder name = .ok (.inside names) :=
    enter_eq_ok.2 ⟨by simpa using stepped, by simp [exists?, lookup_put]⟩
  have resolved : (t.put names bytes).resolve path = .ok (.inside names) := by
    simp [resolve, valid, parts, foldlM_enter_put reached, entered]
  simp [read, resolved, file, lookup_put]

/-- What was written to a path is read from it. -/
theorem read_write (written : t.write path bytes = .ok t') : t'.read path = .ok bytes := by
  obtain ⟨names, found, rfl⟩ := write_eq_ok_iff.1 written
  exact read_put found

theorem exists_write (written : t.write path bytes = .ok t') (other : ByteArray) :
    ∃ t', t.write path other = .ok t' := by
  obtain ⟨names, found, -⟩ := write_eq_ok_iff.1 written
  exact ⟨t.put names other, write_eq_ok_iff.2 ⟨names, found, rfl⟩⟩

/-- A name of the working directory that no directory bears is that of a file. -/
theorem target_of_name {name : String} (valid : checkPath name = .ok ())
    (bare : name.splitOn "/" = [name]) (relative : start name = .inside [])
    (proper : name ∉ ["", ".", ".."]) (short : name.utf8ByteSize ≤ nameLimit)
    (free : [name] ∉ t.directories) : t.target name = .ok [name] := by
  simp only [List.mem_cons, List.not_mem_nil, or_false, not_or] at proper
  obtain ⟨nonempty, here, above⟩ := proper
  have last : t.lastName name = .ok (.inside [], name, false) := by
    simp [lastName, valid, bare, relative, nonempty, isDirectory]
  have stepped : t.step (.inside []) name = .ok (.inside [name]) := by
    simp [step, isDirectory, nonempty, here, above, Nat.not_lt.2 short]
  simp [target, last, stepped, isDirectory, free]

end Write

section Writable

/-- The tree once the directory is made that holds a file. -/
def prepared (t : FileTree) (path : String) : Except FileError FileTree :=
  if (Path.parent path).isEmpty then .ok t else t.makeDirectories (Path.parent path)

/-- An empty file can be written to a path once its directory is made. -/
def Writable (t : FileTree) (path : String) : Prop :=
  ∃ made written, t.prepared path = .ok made ∧ made.write path .empty = .ok written

theorem writable_of_target {name : String} (bare : name.splitOn "/" = [name])
    (found : t.target name = .ok names) : t.Writable name := by
  have parent : Path.parent name = "" := by
    rw [Path.parent, Path.namesReversed, bare]
    by_cases empty : name = ""
    · simp [empty, Path.trimReversed]
    · simp [empty, Path.trimReversed]
  exact ⟨t, t.put names .empty, by simp [prepared, parent],
    write_eq_ok_iff.2 ⟨names, found, rfl⟩⟩

end Writable

section System

variable {text : String}

theorem run_write (written : t.write path text.toUTF8 = .ok t') :
    (system.write path text).run t = pure (.ok (), t') := by
  rw [String.toUTF8_eq_toByteArray] at written
  simp [system, written]

theorem run_makeDirectories (made : t.makeDirectories path = .ok t') :
    (system.makeDirectories path).run t = pure (.ok (), t') := by
  simp [system, made]

end System

end Trendline.FileTree
