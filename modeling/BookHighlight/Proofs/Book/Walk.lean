import BookHighlight.Proofs.Book.Chapter

namespace BookHighlight.Book

open Data

inductive HasChapter (fields : Entries) : Value → Prop where
  | self {item} : chapterFields? item = some fields → HasChapter fields item
  | under {item outer under child} : chapterFields? item = some outer →
      subItems outer = .ok under → child ∈ under → HasChapter fields child →
      HasChapter fields item
  | part {item items child} : chapterFields? item = none → partItems? item = some items →
      child ∈ items → HasChapter fields child → HasChapter fields item

def HasChapterAmong (fields : Entries) (items : List Value) : Prop :=
  ∃ item ∈ items, HasChapter fields item

section

variable {fields : Entries}

theorem hasChapterAmong_cons {item : Value} {items : List Value} :
    HasChapterAmong fields (item :: items) ↔
      HasChapter fields item ∨ HasChapterAmong fields items := by
  simp [HasChapterAmong]

theorem hasChapterAmong_placed {path : List Step} {under : List Value}
    {rest : List (List Step × Value)} :
    HasChapterAmong fields ((placed path under ++ rest).map (·.2)) ↔
      HasChapterAmong fields under ∨ HasChapterAmong fields (rest.map (·.2)) := by
  rw [List.map_append, map_placed]
  simp [HasChapterAmong, or_and_right, exists_or]

end

theorem Visits.fields_iff {pending : List (List Step × Value)} {cs : List Chapter}
    (h : Visits pending cs) (fields : Entries) :
    HasChapterAmong fields (pending.map (·.2)) ↔ ∃ c ∈ cs, c.fields = fields := by
  induction h with
  | done => simp [HasChapterAmong]
  | @chapter path item rest outer under cs isChapter holds _ ih =>
    rw [hasChapterAmong_placed] at ih
    simp only [List.map_cons, hasChapterAmong_cons, List.mem_cons, exists_eq_or_imp]
    rw [← ih, ← or_assoc]
    refine or_congr_left ?_
    constructor
    · intro has
      cases has with
      | self found => exact .inl (Option.some.inj (isChapter.symm.trans found))
      | under found holds' member deeper =>
        cases isChapter.symm.trans found
        cases holds.symm.trans holds'
        exact .inr ⟨_, member, deeper⟩
      | part notChapter _ _ _ => cases notChapter.symm.trans isChapter
    · rintro (rfl | ⟨child, member, deeper⟩)
      · exact .self isChapter
      · exact .under isChapter holds member deeper
  | @part path item rest items cs notChapter isPart _ ih =>
    rw [hasChapterAmong_placed] at ih
    rw [List.map_cons, hasChapterAmong_cons, ← ih]
    refine or_congr_left ?_
    constructor
    · intro has
      cases has with
      | self found => cases notChapter.symm.trans found
      | under found _ _ _ => cases notChapter.symm.trans found
      | part _ found member deeper =>
        cases isPart.symm.trans found
        exact ⟨_, member, deeper⟩
    · rintro ⟨child, member, deeper⟩
      exact .part notChapter isPart member deeper
  | @other path item rest cs notChapter notPart _ ih =>
    rw [List.map_cons, hasChapterAmong_cons, ← ih]
    refine or_iff_right fun has => ?_
    cases has with
    | self found => cases notChapter.symm.trans found
    | under found _ _ _ => cases notChapter.symm.trans found
    | part _ found _ _ => cases notPart.symm.trans found

theorem Visits.subItems_ok {pending : List (List Step × Value)} {cs : List Chapter}
    (h : Visits pending cs) : ∀ c ∈ cs, ∃ under, subItems c.fields = .ok under := by
  induction h with
  | done => simp
  | chapter _ holds _ ih => exact List.forall_mem_cons.mpr ⟨⟨_, holds⟩, ih⟩
  | part _ _ _ ih => exact ih
  | other _ _ _ ih => exact ih

theorem chaptersFrom_error {fuel : Nat} {pending : List (List Step × Value)} {misuse : Misuse}
    (h : chaptersFrom fuel pending = .error misuse) :
    ∃ fields, HasChapterAmong fields (pending.map (·.2)) ∧ subItems fields = .error misuse := by
  fun_induction chaptersFrom fuel pending with
  | case1 => cases h
  | case2 => cases h
  | case3 fuel path item rest fields isChapter place ih =>
    cases under : subItems fields with
    | error misuse' =>
      -- the walk fails at this chapter, before anything under it is reached
      rw [under] at h
      cases h
      exact ⟨fields, hasChapterAmong_cons.mpr (.inl (.self isChapter)), under⟩
    | ok under' =>
      rw [under] at h
      change (chaptersFrom fuel _ >>= fun later => pure (⟨place, fields⟩ :: later)) = _ at h
      cases later : chaptersFrom fuel (placed (place ++ [.entry "sub_items"]) under' ++ rest) with
      | ok later' =>
        rw [later] at h
        cases h
      | error misuse' =>
        rw [later] at h
        cases h
        obtain ⟨inner, has, fails⟩ := ih under' later
        refine ⟨inner, hasChapterAmong_cons.mpr ?_, fails⟩
        rcases hasChapterAmong_placed.mp has with ⟨child, member, deeper⟩ | behind
        · exact .inl (.under isChapter under member deeper)
        · exact .inr behind
  | case4 fuel path item rest notChapter items isPart ih =>
    obtain ⟨inner, has, fails⟩ := ih h
    refine ⟨inner, hasChapterAmong_cons.mpr ?_, fails⟩
    rcases hasChapterAmong_placed.mp has with ⟨child, member, deeper⟩ | behind
    · exact .inl (.part notChapter isPart member deeper)
    · exact .inr behind
  | case5 fuel path item rest notChapter notPart ih =>
    obtain ⟨inner, has, fails⟩ := ih h
    exact ⟨inner, hasChapterAmong_cons.mpr (.inr has), fails⟩

def InBook (book : Value) (fields : Entries) : Prop :=
  HasChapterAmong fields ((items book).map (·.2))

theorem chapters_fields_iff {book : Value} {cs : List Chapter} (h : chapters book = .ok cs)
    (fields : Entries) : InBook book fields ↔ ∃ c ∈ cs, c.fields = fields :=
  (visits_chapters h).fields_iff fields

inductive Itemless : Value → Prop where
  | bool : Itemless (.bool true)
  | int {n : Int} : n ≠ 0 → Itemless (.int n)
  | float {x : Binary64} : x.isZero = false → Itemless (.float x)

theorem subItems_fails_iff {fields : Entries} : (∃ misuse, subItems fields = .error misuse) ↔
    ∃ v ∈ Entries.text? fields "sub_items", Itemless v := by
  unfold subItems
  cases Entries.text? fields "sub_items" with
  | none => simp
  | some v =>
    simp only [Option.mem_def, Option.some.injEq, exists_eq_left']
    constructor
    · rintro ⟨misuse, fails⟩
      cases v with
      | bool b =>
        cases b with
        | false => cases fails
        | true => exact .bool
      | int n =>
        refine .int ?_
        rintro rfl
        cases fails
      | float x =>
        refine .float ?_
        cases zero : x.isZero with
        | false => rfl
        | true => simp [Value.isTruthy, zero] at fails
      | _ => cases fails
    · intro itemless
      cases itemless with
      | bool => exact ⟨_, rfl⟩
      | int other => exact ⟨.noItems, by simp [Value.isTruthy, other]⟩
      | float other => exact ⟨.noItems, by simp [Value.isTruthy, other]⟩

theorem chapters_fails_iff {entries : Entries} :
    (∃ misuse, chapters (.table entries) = .error misuse) ↔
      ∃ fields, InBook (.table entries) fields ∧
        ∃ v ∈ Entries.text? fields "sub_items", Itemless v := by
  constructor
  · rintro ⟨misuse, fails⟩
    obtain ⟨fields, has, under⟩ := chaptersFrom_error fails
    exact ⟨fields, has, subItems_fails_iff.mp ⟨misuse, under⟩⟩
  · rintro ⟨fields, has, itemless⟩
    obtain ⟨misuse, fails⟩ := subItems_fails_iff.mpr itemless
    -- the walk may have failed at an earlier chapter, but it does not pass this one
    cases walked : chapters (.table entries) with
    | error other => exact ⟨other, rfl⟩
    | ok cs =>
      obtain ⟨c, member, rfl⟩ := (chapters_fields_iff walked fields).mp has
      obtain ⟨under, holds⟩ := (visits_chapters walked).subItems_ok c member
      cases fails.symm.trans holds

def Contentless (v : Value) : Prop := v.isTruthy = true ∧ ∀ s, v ≠ .text s

theorem Chapter.content_fails_iff {c : Chapter} : (∃ misuse, c.content = .error misuse) ↔
    ∃ v ∈ Entries.text? c.fields "content", Contentless v := by
  unfold Chapter.content
  cases Entries.text? c.fields "content" with
  | none => simp
  | some v =>
    simp only [Option.mem_def, Option.some.injEq, exists_eq_left', Contentless]
    cases v with
    | text s => simp
    | _ =>
      dsimp only
      split <;> simp_all

inductive Amiss (fields : Entries) : Prop where
  | items {v} : Entries.text? fields "sub_items" = some v → Itemless v → Amiss fields
  | content {v} : Entries.text? fields "content" = some v → Contentless v → Amiss fields

end BookHighlight.Book
