import BookHighlight.Proofs.Markup.Entity

namespace BookHighlight.Markup

def replace (table : List (Char × String)) (s : List Char) : List Char :=
  s.flatMap fun c => ((table.lookup c).map String.toList).getD [c]

/-- The entities in the order in which a text can be gone through for them: the ampersand comes
    first, since every entity holds one, and what Markdown would read comes last. -/
def passes : List (List (Char × String)) := [
  [('&', "&amp;")],
  [('<', "&lt;")],
  [('>', "&gt;")],
  [('\\', "&#92;"), ('`', "&#96;"), ('*', "&#42;"), ('_', "&#95;"), ('[', "&#91;"), (']', "&#93;"),
    ('|', "&#124;"), ('~', "&#126;"), ('$', "&#36;"), ('\n', "&#10;")]]

def replaceAll (tables : List (List (Char × String))) (s : List Char) : List Char :=
  tables.foldl (fun s table => replace table s) s

theorem replaceAll_append (tables : List (List (Char × String))) (s t : List Char) :
    replaceAll tables (s ++ t) = replaceAll tables s ++ replaceAll tables t := by
  induction tables generalizing s t with
  | nil => rfl
  | cons table tables ih =>
    have first : replace table (s ++ t) = replace table s ++ replace table t :=
      List.flatMap_append
    simp only [replaceAll, List.foldl_cons, first] at ih ⊢
    exact ih _ _

theorem replaceAll_of_unlisted {tables : List (List (Char × String))} {c : Char}
    (h : ∀ table ∈ tables, table.lookup c = none) : replaceAll tables [c] = [c] := by
  induction tables with
  | nil => rfl
  | cons table tables ih =>
    obtain ⟨here, later⟩ := List.forall_mem_cons.mp h
    have kept : replace table [c] = [c] := by simp [replace, here]
    simp only [replaceAll, List.foldl_cons, kept] at ih ⊢
    exact ih later

/-- No pass touches what an earlier one has written. -/
theorem replaceAll_passes (c : Char) : replaceAll passes [c] = escapeChar c := by
  cases active : entity? c with
  | some entity =>
    simp only [escapeChar, active]
    unfold entity? at active
    split at active <;> cases active <;> decide
  | none =>
    have listed : ∀ table ∈ passes, ∀ entry ∈ table, (entity? entry.1).isSome = true := by decide
    have unlisted : ∀ table ∈ passes, table.lookup c = none := by
      intro table member
      refine List.lookup_eq_none_iff.mpr fun entry within => ?_
      have known := listed table member entry within
      have other : c ≠ entry.1 := by
        rintro rfl
        rw [active] at known
        cases known
      simpa using other
    simpa [escapeChar, active] using replaceAll_of_unlisted unlisted

theorem escape_eq_replaceAll (s : List Char) : escape s = replaceAll passes s := by
  induction s with
  | nil => rfl
  | cons c s ih =>
    have whole := replaceAll_append passes [c] s
    rw [replaceAll_passes, ← ih] at whole
    exact whole.symm

theorem entity_start {c : Char} {entity : String} (h : entity? c = some entity) :
    ∃ rest, entity.toList = '&' :: rest ∧ '&' ∉ rest := by
  unfold entity? at h
  split at h <;> cases h <;> exact ⟨_, rfl, by decide⟩

theorem escapeChar_ampersand {c : Char} {before after : List Char}
    (h : escapeChar c = before ++ '&' :: after) :
    before = [] ∧ ∃ entity, entity? c = some entity ∧ entity.toList = '&' :: after := by
  cases active : entity? c with
  | none =>
    simp only [escapeChar, active] at h
    obtain ⟨rfl, ⟨⟩⟩ | ⟨_, ⟨⟩⟩ := List.singleton_eq_append_iff.mp h
    cases active
  | some entity =>
    simp only [escapeChar, active] at h
    obtain ⟨rest, starts, single⟩ := entity_start active
    cases before with
    | nil => exact ⟨rfl, entity, rfl, h⟩
    | cons d before =>
      rw [starts] at h
      obtain ⟨_, rfl⟩ := List.cons.inj h
      exact absurd (List.mem_append_right before (List.mem_cons_self ..)) single

/-- Where an ampersand is written, the entity of a character starts. -/
theorem escape_ampersand {s before after : List Char} (h : escape s = before ++ '&' :: after) :
    ∃ earlier c later entity, s = earlier ++ c :: later ∧ entity? c = some entity ∧
      before = escape earlier ∧ '&' :: after = entity.toList ++ escape later := by
  induction s generalizing before with
  | nil => simp [escape] at h
  | cons first s ih =>
    change escapeChar first ++ escape s = _ at h
    -- behind what is written for the first character the rest is as in the shorter text
    have further : ∀ more, before = escapeChar first ++ more → escape s = more ++ '&' :: after →
        ∃ earlier c later entity, first :: s = earlier ++ c :: later ∧ entity? c = some entity ∧
          before = escape earlier ∧ '&' :: after = entity.toList ++ escape later := by
      intro more front rest
      obtain ⟨earlier, c, later, entity, rfl, active, rfl, written⟩ := ih rest
      exact ⟨first :: earlier, c, later, entity, rfl, active, front, written⟩
    rcases List.append_eq_append_iff.mp h with ⟨more, front, rest⟩ | ⟨more, written, rest⟩
    · exact further more front rest
    · cases more with
      | nil => exact further [] (by simpa using written.symm) (by simpa using rest.symm)
      | cons d more =>
        obtain ⟨rfl, rfl⟩ := List.cons.inj rest
        obtain ⟨rfl, entity, active, own⟩ := escapeChar_ampersand written
        exact ⟨[], first, s, entity, rfl, active, rfl, by rw [own]; rfl⟩

/-- In escaped text nothing stands that HTML or Markdown would act on: every ampersand starts an
    entity, and the characters that the entities stand for are the text. Text is escaped piece by
    piece, and what one pass over it has written the later ones leave alone. -/
theorem escape_inert (s : List Char) :
    (∀ c ∈ "<>\\`*_[]|~$\n".toList, c ∉ escape s) ∧
    (∀ before after, escape s = before ++ '&' :: after → ∃ earlier c later entity,
      s = earlier ++ c :: later ∧ entity? c = some entity ∧
        before = escape earlier ∧ '&' :: after = entity.toList ++ escape later) ∧
    decode (escape s) = s ∧
    (∀ more, escape (s ++ more) = escape s ++ escape more) ∧
    escape s = replaceAll passes s := by
  refine ⟨?_, fun _ _ => escape_ampersand, decode_escape s, escape_append s, escape_eq_replaceAll s⟩
  have active : "<>\\`*_[]|~$\n".toList.all (fun c => (entity? c).isSome && c != '&') = true := by
    decide
  intro c member
  have here := List.all_eq_true.mp active c member
  rw [Bool.and_eq_true, bne_iff_ne] at here
  obtain ⟨entity, found⟩ := Option.isSome_iff_exists.mp here.1
  exact not_mem_escape found here.2 s

example : escape "&lt; *b*".toList = "&amp;lt; &#42;b&#42;".toList := by decide

end BookHighlight.Markup
