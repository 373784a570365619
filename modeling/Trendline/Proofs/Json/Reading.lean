import Trendline.Json.Reader
import Trendline.Proofs.Json.Tokens

/-!
Documents read back as they were written, with either spacing. Blanks are passed over and every
token is taken as it was written; what then is left is the reader, which puts a value together
again from its tokens.
-/

namespace Trendline

open Decimal Text

namespace Spacing

variable (spacing : Spacing)

/-- The blanks in front of a token. -/
def blanks (depth : Nat) (last : Option Token) (t : Token) : List Char :=
  match last with
  | none => []
  | some last => spacing.gap depth last t

/-- The characters of some tokens with their blanks. -/
def spell (last : Option Token) (depth : Nat) : List Token → List Char
  | [] => []
  | t :: ts => spacing.blanks depth last t ++ (t.chars ++ spell (some t) (t.depthAfter depth) ts)

theorem toList_foldl_push (cs : List Char) (s : String) :
    (cs.foldl String.push s).toList = s.toList ++ cs := by
  induction cs generalizing s with
  | nil => simp
  | cons c cs ih => simp [ih]

theorem toList_foldl_write (ts : List Token) (w : Written) :
    (ts.foldl spacing.write w).text.toList = w.text.toList ++ spacing.spell w.last w.depth ts := by
  induction ts generalizing w with
  | nil => simp [spell]
  | cons t ts ih =>
      have step : (spacing.write w t).text.toList
          = w.text.toList ++ (spacing.blanks w.depth w.last t ++ t.chars) := by
        simp only [write, toList_foldl_push, List.append_assoc]
        rfl
      rw [List.foldl_cons, ih, step, spell, List.append_assoc, List.append_assoc]
      rfl

theorem toList_render (v : Json) : (v.render spacing).toList = spacing.spell none 0 v.tokens := by
  simp [Json.render, toList_foldl_write]

theorem isBlank_newline {depth : Nat} {c : Char} (mem : c ∈ newline depth) :
    Token.isBlank c = true := by
  simp only [newline, List.mem_cons, List.mem_replicate] at mem
  rcases mem with rfl | ⟨_, rfl⟩
  all_goals rfl

theorem isBlank_gap {depth : Nat} {left right : Token} {c : Char}
    (mem : c ∈ spacing.gap depth left right) : Token.isBlank c = true := by
  revert mem
  fun_cases gap with
  | case1 | case2 | case3 | case10 => simp
  | case4 | case5 | case6 | case7 | case8 => exact isBlank_newline
  | case9 => simp +contextual [Token.isBlank]

theorem isBlank_blanks {depth : Nat} {last : Option Token} {t : Token} {c : Char}
    (mem : c ∈ spacing.blanks depth last t) : Token.isBlank c = true := by
  cases last with
  | none => cases mem
  | some last => exact spacing.isBlank_gap mem

end Spacing

namespace Json

namespace Reader

variable {r r' : Reader} {stack : List Frame}

section Run

theorem run_nil : r.run [] = r.result? := by
  rw [run]

theorem run_blanks {cs : List Char} (blank : ∀ c ∈ cs, Token.isBlank c = true) (s : Source) :
    r.run (cs.map some ++ s) = r.run s := by
  induction cs with
  | nil => rfl
  | cons c cs ih =>
      simp only [List.forall_mem_cons] at blank
      rw [List.map_cons, List.cons_append, run]
      simp [blank.1, ih blank.2]

/-- The reader takes a token that was written and goes on behind it. -/
theorem run_token {t : Token} {s : Source} (written : t.WellWritten)
    (ends : ∀ n, t = .number n → Token.EndsNumber s) (stepped : r.step t = some r') :
    r.run (t.chars.map some ++ s) = r'.run s := by
  have taken := Token.take_append written ends
  obtain ⟨c, cs, chars, solid⟩ := Token.exists_chars_cons written
  rw [chars, List.map_cons, List.cons_append] at taken ⊢
  rw [run, if_neg (by simp [solid])]
  split
  · next missed => cases missed.symm.trans taken
  · next found => cases found.symm.trans taken; rw [stepped]

/-- After a number only such tokens can come as end it. -/
theorem endsNumber_spell (spacing : Spacing) {n : Numeral} {v : Json} {depth : Nat}
    {ts : List Token} (read : ts.foldlM step (.ended v stack) = some r') :
    Token.EndsNumber ((spacing.spell (some (.number n)) depth ts).map some) := by
  cases ts with
  | nil => exact Token.endsNumber_nil
  | cons t ts =>
      cases t with
      | comma | closeList | closeObject =>
          cases spacing
          all_goals exact Token.endsNumber_cons (by decide)
      | openList | openObject | colon | null | bool | number | text =>
          simp [step] at read

theorem step_number {n : Numeral} (stepped : r.step (.number n) = some r') :
    ∃ stack, r' = .ended (.number n) stack := by
  cases r with
  | value | listOpened => exact ⟨_, (Option.some.inj stepped).symm⟩
  | objectOpened | key | colon | ended => simp [step] at stepped

/-- Characters of tokens are read as the tokens are. -/
theorem run_spell (spacing : Spacing) {ts : List Token} (written : ∀ t ∈ ts, t.WellWritten)
    (last : Option Token) (depth : Nat) (read : ts.foldlM step r = some r') :
    r.run ((spacing.spell last depth ts).map some) = r'.result? := by
  induction ts generalizing r last depth with
  | nil =>
      cases read
      exact run_nil
  | cons t ts ih =>
      simp only [List.forall_mem_cons] at written
      obtain ⟨next, stepped, read⟩ := Option.bind_eq_some_iff.1 read
      have ends : ∀ n, t = .number n → Token.EndsNumber
          ((spacing.spell (some t) (t.depthAfter depth) ts).map some) := by
        rintro n rfl
        obtain ⟨stack, rfl⟩ := step_number stepped
        exact endsNumber_spell spacing read
      rw [Spacing.spell, List.map_append, List.map_append,
        run_blanks fun _ mem => spacing.isBlank_blanks mem, run_token written.1 ends stepped]
      exact ih written.2 _ _ read

end Run

section Values

/-- The reader takes whatever begins a value, and puts what is read next on `stack`. -/
def Awaits (r : Reader) (stack : List Frame) : Prop :=
  ∀ t next, start stack t = some next → r.step t = some next

theorem awaits_value : (Reader.value stack).Awaits stack :=
  fun _ _ begins => begins

theorem awaits_listOpened : (Reader.listOpened stack).Awaits (.list [] :: stack) := by
  intro t next begins
  cases t with
  | closeList => cases begins
  | openList | openObject | closeObject | comma | colon | null | bool | number | text =>
      exact begins

theorem foldlM_first {t : Token} {ts : List Token} {next : Reader} (awaits : r.Awaits stack)
    (begins : start stack t = some next) : (t :: ts).foldlM step r = ts.foldlM step next := by
  rw [List.foldlM_cons, awaits t next begins]
  rfl

-- The recursion is that of `tokens`: a value ends as itself on the stack that its reader awaits it
-- for, and the further items or members are read while the value before them stands last.
mutual

/-- The tokens of a value are read as that value. -/
theorem read_tokens (v : Json) {r : Reader} {stack : List Frame} (awaits : r.Awaits stack) :
    v.tokens.foldlM step r = some (.ended v stack) := by
  cases v with
  | null | bool | number | text => exact foldlM_first awaits rfl
  | list items =>
      cases items with
      | nil => exact foldlM_first (t := .openList) awaits rfl
      | cons v rest =>
          rw [tokens, List.cons_append, List.cons_append, List.append_assoc,
            foldlM_first (t := .openList) awaits rfl, List.foldlM_append,
            read_tokens v awaits_listOpened]
          exact read_itemTokens rest v [] stack
  | object members =>
      cases members with
      | nil => exact foldlM_first (t := .openObject) awaits rfl
      | cons m rest =>
          obtain ⟨q, v⟩ := m
          rw [tokens]
          simp only [List.cons_append, List.append_assoc]
          rw [foldlM_first (t := .openObject) awaits rfl]
          simp only [List.foldlM_cons, step, Option.bind_eq_bind, Option.bind_some]
          rw [List.foldlM_append, read_tokens v awaits_value]
          exact read_memberTokens rest q v [] stack

theorem read_itemTokens (items : List Json) (last : Json) (before : List Json)
    (stack : List Frame) :
    (itemTokens items ++ [Token.closeList]).foldlM step (.ended last (.list before :: stack))
      = some (.ended (.list ((last :: before).reverse ++ items)) stack) := by
  cases items with
  | nil => simp [itemTokens, step]
  | cons v rest =>
      rw [itemTokens]
      simp only [List.cons_append, List.append_assoc, List.foldlM_cons, step, Option.bind_eq_bind,
        Option.bind_some]
      rw [List.foldlM_append, read_tokens v awaits_value]
      simpa using read_itemTokens rest v (last :: before) stack

theorem read_memberTokens (members : List (Quoted × Json)) (key : Quoted) (last : Json)
    (before : List (Quoted × Json)) (stack : List Frame) :
    (memberTokens members ++ [Token.closeObject]).foldlM step
        (.ended last (.object before key :: stack))
      = some (.ended (.object (((key, last) :: before).reverse ++ members)) stack) := by
  cases members with
  | nil => simp [memberTokens, step]
  | cons m rest =>
      obtain ⟨q, v⟩ := m
      rw [memberTokens]
      simp only [List.cons_append, List.append_assoc, List.foldlM_cons, step, Option.bind_eq_bind,
        Option.bind_some]
      rw [List.foldlM_append, read_tokens v awaits_value]
      simpa using read_memberTokens rest q v ((key, last) :: before) stack

end

end Values

end Reader

/-- A document as printing leaves it. -/
def WellWritten (v : Json) : Prop :=
  ∀ t ∈ v.tokens, t.WellWritten

/-- What was rendered reads back, with either spacing. -/
theorem parse?_render (spacing : Spacing) {v : Json} (written : v.WellWritten) :
    parse? (.ofString (v.render spacing)) = some v := by
  rw [parse?, Source.ofString, spacing.toList_render]
  exact Reader.run_spell spacing written none 0 (Reader.read_tokens v Reader.awaits_value)

section WellWritten

theorem wellWritten_number {n : Numeral} (written : n.WellWritten) : (number n).WellWritten := by
  simpa [WellWritten, tokens, Token.WellWritten] using written

theorem wellWritten_ofInt (i : Int) : (ofInt i).WellWritten :=
  wellWritten_number (Numeral.wellWritten_ofInt i)

theorem wellWritten_null : null.WellWritten := by
  simp [WellWritten, tokens, Token.WellWritten]

theorem wellWritten_ofString (s : String) : (ofString s).WellWritten := by
  simp [WellWritten, tokens, Token.WellWritten, ofString]

theorem wellWritten_itemTokens {items : List Json} (written : ∀ v ∈ items, v.WellWritten) :
    ∀ t ∈ itemTokens items, t.WellWritten := by
  induction items with
  | nil => simp [itemTokens]
  | cons v rest ih =>
      simp only [itemTokens, List.forall_mem_append, List.forall_mem_cons] at written ⊢
      exact ⟨⟨trivial, written.1⟩, ih written.2⟩

theorem wellWritten_list {items : List Json} (written : ∀ v ∈ items, v.WellWritten) :
    (list items).WellWritten := by
  cases items with
  | nil => simp [WellWritten, tokens, Token.WellWritten]
  | cons v rest =>
      simp only [WellWritten, tokens, List.forall_mem_append, List.forall_mem_cons] at written ⊢
      exact ⟨⟨⟨trivial, written.1⟩, wellWritten_itemTokens written.2⟩, trivial, nofun⟩

theorem wellWritten_ofList {α : Type} {encode : α → Json} {xs : List α}
    (written : ∀ x ∈ xs, (encode x).WellWritten) : (ofList encode xs).WellWritten :=
  wellWritten_list (List.forall_mem_map.2 written)

theorem wellWritten_memberTokens {members : List (String × Json)}
    (written : ∀ m ∈ members, m.2.WellWritten) :
    ∀ t ∈ memberTokens (members.map fun (key, v) => (.ofString key, v)), t.WellWritten := by
  induction members with
  | nil => simp [memberTokens]
  | cons m rest ih =>
      simp only [List.map_cons, memberTokens, List.forall_mem_append, List.forall_mem_cons]
        at written ⊢
      exact ⟨⟨trivial, ⟨m.1, rfl⟩, trivial, written.1⟩, ih written.2⟩

theorem wellWritten_ofMembers {members : List (String × Json)}
    (written : ∀ m ∈ members, m.2.WellWritten) : (ofMembers members).WellWritten := by
  cases members with
  | nil => simp [WellWritten, ofMembers, tokens, Token.WellWritten]
  | cons m rest =>
      simp only [WellWritten, ofMembers, List.map_cons, tokens, List.forall_mem_append,
        List.forall_mem_cons] at written ⊢
      exact ⟨⟨⟨trivial, ⟨m.1, rfl⟩, trivial, written.1⟩, wellWritten_memberTokens written.2⟩,
        trivial, nofun⟩

end WellWritten

end Json

end Trendline
