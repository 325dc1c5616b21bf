import BookHighlight.Proofs.Markdown.State

namespace BookHighlight.Markdown

/-- From columns that descend, those on the right of `bound` are dropped wherever they stand. -/
theorem dropWhile_eq_filter {items : List Nat} (sorted : items.Pairwise (· > ·)) (bound : Nat) :
    items.dropWhile (bound < ·) = items.filter (· ≤ bound) := by
  induction items with
  | nil => rfl
  | cons content outer ih =>
    obtain ⟨below, sorted⟩ := List.pairwise_cons.mp sorted
    by_cases beyond : bound < content
    · rw [List.dropWhile_cons_of_pos (by simpa using beyond),
        List.filter_cons_of_neg (by simpa using beyond), ih sorted]
    · have inside : ∀ item ∈ content :: outer, item ≤ bound := by
        refine List.forall_mem_cons.mpr ⟨Nat.le_of_not_lt beyond, fun item member => ?_⟩
        have := below item member
        omega
      rw [List.dropWhile_cons_of_neg (by simpa using beyond),
        List.filter_eq_self.mpr (by simpa using inside)]

/-- The content column of the innermost item that a line indented by `indent` is inside, or 0 if it
    is inside none. -/
inductive Innermost (items : List Nat) (indent : Nat) : Nat → Prop where
  | item {content} : content ∈ items → content ≤ indent →
      (∀ other ∈ items, other ≤ indent → other ≤ content) → Innermost items indent content
  | outside : (∀ other ∈ items, indent < other) → Innermost items indent 0

theorem innermost_headD {items : List Nat} (sorted : items.Pairwise (· > ·)) (indent : Nat) :
    Innermost items indent ((items.dropWhile (indent < ·)).headD 0) := by
  have kept := sorted.sublist (List.dropWhile_sublist (indent < ·))
  have member : ∀ {other}, other ∈ items.dropWhile (indent < ·) ↔
      other ∈ items ∧ other ≤ indent := by
    simp [dropWhile_eq_filter sorted]
  cases inside : items.dropWhile (indent < ·) with
  | nil =>
    refine .outside fun other mem => Nat.lt_of_not_le fun within => ?_
    have none := member.mpr ⟨mem, within⟩
    simp [inside] at none
  | cons content outer =>
    rw [inside] at kept member
    obtain ⟨mem, within⟩ := member.mp (List.mem_cons_self ..)
    refine .item mem within fun other mem within => ?_
    rcases List.mem_cons.mp (member.mpr ⟨mem, within⟩) with rfl | further
    · exact Nat.le_refl _
    · exact Nat.le_of_lt ((List.pairwise_cons.mp kept).1 other further)

theorem fencedBlock_kind_ne (lead : List Char) (opening : Opening) (line : Line)
    (rest : List Line) : (fencedBlock lead opening line rest).1.kind ≠ .indented := by
  unfold fencedBlock
  dsimp only
  split <;> exact nofun

namespace BlockState

variable {s s' : BlockState} {line : Line} {rest : List Line}

theorem sorted_at (sorted : s.items.Pairwise (· > ·)) : (s.at line).items.Pairwise (· > ·) := by
  unfold BlockState.at atIndent
  dsimp only
  split
  · exact sorted
  · exact sorted.sublist (List.dropWhile_sublist _)

theorem sorted_openItem {text : List Char} {item : ListItem}
    (found : ListItem.ofText? text = some item) (sorted : s.items.Pairwise (· > ·)) (column : Nat) :
    (s.openItem column item).items.Pairwise (· > ·) := by
  have wide := ListItem.ofText?_wide found
  refine List.pairwise_cons.mpr ⟨fun outer member => ?_, sorted.sublist (List.dropWhile_sublist _)⟩
  rw [dropWhile_eq_filter sorted, List.mem_filter, decide_eq_true_eq] at member
  omega

theorem sorted_opened (sorted : s.items.Pairwise (· > ·)) :
    (s.opened line).items.Pairwise (· > ·) := by
  unfold opened
  split
  · rename_i item found
    exact sorted_openItem found (sorted_at sorted) _
  · exact sorted_at sorted

/-- Every line keeps the columns of the open items in order. -/
theorem sorted_step (sorted : s.items.Pairwise (· > ·)) :
    (s.step line rest).1.items.Pairwise (· > ·) := by
  have reading := s.reading line
  generalize s.step line = step at reading ⊢
  cases reading with
  | blank _ => exact sorted
  | indented _ _ _ => exact sorted_at sorted
  | fenced _ _ => exact sorted_opened sorted
  | text _ _ => exact sorted_opened sorted

theorem step_eq_indented {block : Block} {taken : Nat}
    (step : s.step line rest = (s', some (block, taken))) (indented : block.kind = .indented) :
    s'.items = s.items.dropWhile (indentWidth line.text < ·) ∧
      (block, taken) = indentedBlock s'.base line rest := by
  have reading := s.reading line
  generalize s.step line = read at reading step
  cases reading with
  | blank _ => cases step
  | text _ _ => cases step
  | indented _ idle _ =>
    obtain ⟨rfl, found⟩ := Prod.mk.inj step
    have idle : s.paragraph = false := idle
    refine ⟨?_, (Option.some.inj found).symm⟩
    change (if (s.paragraph && !s.afterBlank) = true then _ else _) = _
    rw [idle, Bool.false_and, if_neg Bool.false_ne_true]
  | @fenced opening _ opens =>
    obtain ⟨_, found⟩ := Prod.mk.inj step
    have kind := congrArg (·.1.kind) (Option.some.inj found)
    exact absurd (kind.trans indented) (fencedBlock_kind_ne _ _ _ _)

end BlockState

theorem Reads.sorted {content : List Char} {s : BlockState} {ls : List Line}
    (h : Reads content s ls) : s.items.Pairwise (· > ·) :=
  h.keeps (P := fun s => s.items.Pairwise (· > ·)) .nil BlockState.sorted_step

/-- Whenever a line of a document comes to be read, the content columns of the open items, from the
    inside out, descend and are none of the first two, so that closing items from the inside comes
    to the innermost one that a line is inside. Indented code is told and cut by that one. -/
theorem items_ordered (content : List Char) :
    (∀ s ls, Reads content s ls → s.items.Pairwise (· > ·) ∧ (∀ item ∈ s.items, 2 ≤ item) ∧
      ∀ indent, Innermost s.items indent ((s.items.dropWhile (indent < ·)).headD 0)) ∧
    (∀ s line rest s' block taken, Reads content s (line :: rest) →
      s.step line rest = (s', some (block, taken)) → block.kind = .indented →
        Innermost s.items (indentWidth line.text) s'.base ∧
        (∀ item, item ∈ s'.items ↔ item ∈ s.items ∧ item ≤ indentWidth line.text) ∧
        (block, taken) = indentedBlock s'.base line rest) ∧
    ∀ block ∈ blocks content, ∃ s line rest s' taken,
      Reads content s (line :: rest) ∧ s.step line rest = (s', some (block, taken)) := by
  refine ⟨fun s ls reads => ⟨reads.sorted, reads.items_wide, innermost_headD reads.sorted⟩, ?_,
    (scans_blocks content).exists_step .start⟩
  intro s line rest s' block taken reads step indented
  obtain ⟨items, found⟩ := BlockState.step_eq_indented step indented
  have base := innermost_headD reads.sorted (indentWidth line.text)
  rw [← items] at base
  refine ⟨base, fun item => ?_, found⟩
  rw [items, dropWhile_eq_filter reads.sorted, List.mem_filter, decide_eq_true_eq]

theorem items_ordered_between :
    let content := "- a\n\n  1000. b\n\n\t  x\n".toList
    let line : Line := ⟨16, 20, "\t  x".toList⟩
    let s : BlockState := ⟨[8, 2], false, true⟩
    let block : Block := ⟨.indented, 16, 20, "x\n".toList, "  ".toList⟩
    Reads content s [line] ∧ s.step line [] = (⟨[2], false, false⟩, some (block, 0)) ∧
      Innermost [8, 2] (indentWidth line.text) 2 := by
  intro content line s block
  have reads : Reads content s [line] :=
    .pass (.pass (.pass (.pass .start (by rfl)) (by rfl)) (by rfl)) (by rfl)
  have step : s.step line [] = (⟨[2], false, false⟩, some (block, 0)) := by decide
  exact ⟨reads, step, ((items_ordered content).2.1 _ _ _ _ _ _ reads step rfl).1⟩

end BookHighlight.Markdown
