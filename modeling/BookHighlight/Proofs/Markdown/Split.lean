import BookHighlight.Proofs.Markdown.Column

namespace BookHighlight.Markdown

def visibleFrom (column : Nat) : List Char → List (Char × Nat)
  | [] => []
  | c :: rest =>
    if isIndentation c then visibleFrom (nextColumn column c) rest
    else (c, column) :: visibleFrom (nextColumn column c) rest

theorem visibleFrom_append (column : Nat) (left right : List Char) :
    visibleFrom column (left ++ right) =
      visibleFrom column left ++ visibleFrom (columnFrom column left) right := by
  induction left generalizing column with
  | nil => rfl
  | cons c left ih =>
    have later : columnFrom column (c :: left) = columnFrom (nextColumn column c) left := rfl
    rw [List.cons_append, visibleFrom, visibleFrom, ih, later]
    split <;> rfl

section

variable {text : List Char} (indents : ∀ c ∈ text, isIndentation c = true)

include indents

theorem visibleFrom_of_indents (column : Nat) : visibleFrom column text = [] := by
  induction text generalizing column with
  | nil => rfl
  | cons c text ih =>
    obtain ⟨here, later⟩ := List.forall_mem_cons.mp indents
    rw [visibleFrom, if_pos here, ih later]

theorem indentFrom_append_of_indents (column : Nat) (rest : List Char) :
    indentFrom column (text ++ rest) = indentFrom (columnFrom column text) rest := by
  induction text generalizing column with
  | nil => rfl
  | cons c text ih =>
    obtain ⟨here, later⟩ := List.forall_mem_cons.mp indents
    rw [List.cons_append, indentFrom, if_pos here, ih later]
    rfl

end

theorem columnFrom_spaces (column width : Nat) :
    columnFrom column (List.replicate width ' ') = column + width := by
  rw [columnFrom_of_no_tab (by simp), List.length_replicate]

/-- No more is split off than it takes to reach the column `width`. -/
theorem splitColumnsFrom_shortest {width column : Nat} {text front : List Char} {c : Char}
    (h : (splitColumnsFrom width column text).1 = front ++ [c]) :
    columnFrom column front < width := by
  induction text generalizing column front with
  | nil => simp [splitColumnsFrom] at h
  | cons first text ih =>
    by_cases inside : column < width ∧ isIndentation first = true
    · rw [splitColumnsFrom_cons inside] at h
      cases front with
      | nil => exact inside.1
      | cons d front =>
        obtain ⟨rfl, later⟩ := List.cons.inj h
        have before : columnFrom (nextColumn column first) front < width := ih later
        exact before
    · rw [splitColumnsFrom, if_neg inside] at h
      simp at h

theorem splitColumnsFrom_narrow {width column : Nat} {text : List Char}
    (narrow : indentFrom column text < width) : splitColumnsFrom width column text =
      (text.takeWhile isIndentation, text.dropWhile isIndentation) := by
  induction text generalizing column with
  | nil =>
    have none : column - width = 0 := Nat.sub_eq_zero_of_le (Nat.le_of_lt narrow)
    rw [splitColumnsFrom, none]
    rfl
  | cons c text ih =>
    have reached := Nat.lt_of_le_of_lt (le_indentFrom column (c :: text)) narrow
    have none : column - width = 0 := Nat.sub_eq_zero_of_le (Nat.le_of_lt reached)
    rw [indentFrom] at narrow
    by_cases indents : isIndentation c = true
    · rw [if_pos indents] at narrow
      rw [splitColumnsFrom_cons ⟨reached, indents⟩, ih narrow,
        List.takeWhile_cons_of_pos indents, List.dropWhile_cons_of_pos indents]
    · rw [splitColumnsFrom, if_neg (fun inside => indents inside.2), none,
        List.takeWhile_cons_of_neg indents, List.dropWhile_cons_of_neg indents]
      rfl

/-- A text parted in front of the column `width` or, where a tab lies across that column, behind the
    tab. Then the columns that the tab has behind `width` stand in its place, as spaces. -/
structure Parted (width : Nat) (text lead rest : List Char) : Prop where
  indents : ∀ c ∈ lead, c = ' ' ∨ c = '\t'
  /-- `lead` is no longer than it takes -/
  shortest : ∀ front c, lead = front ++ [c] → columnFrom 0 front < width
  source : ∃ pad after, text = lead ++ after ∧ rest = List.replicate pad ' ' ++ after ∧ pad ≤ 3 ∧
    columnFrom 0 lead = width + pad ∧ (0 < pad → lead.getLast? = some '\t')

theorem isIndentation_iff {c : Char} : isIndentation c = true ↔ c = ' ' ∨ c = '\t' := by
  rw [isIndentation, Bool.or_eq_true, beq_iff_eq, beq_iff_eq]

theorem parted_splitColumns {width : Nat} {text : List Char} (wide : width ≤ indentWidth text) :
    Parted width text (splitColumns width text).1 (splitColumns width text).2 := by
  obtain ⟨after, whole, kept⟩ := splitColumnsFrom_excess width 0 text
  have indents := splitColumnsFrom_indents width 0 text
  have reached := splitColumnsFrom_reaches text wide
  have tab := splitColumnsFrom_tab (Nat.zero_le width) text
  refine ⟨fun c member => isIndentation_iff.mp (indents c member),
    fun front c => splitColumnsFrom_shortest, _, after, whole, kept, ?_, ?_, fun beyond => ?_⟩
  · by_cases beyond : width < columnFrom 0 (splitColumnsFrom width 0 text).1
    · have near := (tab beyond).2
      omega
    · omega
  · exact (Nat.add_sub_of_le reached).symm
  · exact (tab (Nat.lt_of_sub_pos beyond)).1

namespace Parted

variable {width : Nat} {text lead rest : List Char} (h : Parted width text lead rest)

include h

theorem visible_eq : visibleFrom width rest = visibleFrom 0 text := by
  obtain ⟨pad, after, whole, kept, _, reached, _⟩ := h.source
  have indents : ∀ c ∈ lead, isIndentation c = true :=
    fun c member => isIndentation_iff.mpr (h.indents c member)
  have spaces : ∀ c ∈ List.replicate pad ' ', isIndentation c = true := by
    intro c member
    rw [List.eq_of_mem_replicate member]
    rfl
  rw [whole, kept, visibleFrom_append, visibleFrom_append, visibleFrom_of_indents indents,
    visibleFrom_of_indents spaces, columnFrom_spaces, reached]

theorem indent_eq : indentFrom width rest = indentWidth text := by
  obtain ⟨pad, after, whole, kept, _, reached, _⟩ := h.source
  have indents : ∀ c ∈ lead, isIndentation c = true :=
    fun c member => isIndentation_iff.mpr (h.indents c member)
  rw [indentWidth, whole, kept, indentFrom_spaces, indentFrom_append_of_indents indents, reached]

end Parted

/-- Columns split off a text that is indented that far leave all that shows in the text at its own
    column, when counted on from where the split is; of a narrower indentation nothing is left. -/
theorem splitColumns_keeps_columns (width : Nat) (text : List Char) :
    (width ≤ indentWidth text →
      Parted width text (splitColumns width text).1 (splitColumns width text).2 ∧
      visibleFrom width (splitColumns width text).2 = visibleFrom 0 text ∧
      indentFrom width (splitColumns width text).2 = indentWidth text) ∧
    (indentWidth text < width → splitColumns width text =
      (text.takeWhile isIndentation, text.dropWhile isIndentation)) := by
  constructor
  · intro wide
    have parted := parted_splitColumns wide
    exact ⟨parted, parted.visible_eq, parted.indent_eq⟩
  · exact splitColumnsFrom_narrow

theorem splitColumns_keeps_columns_across_tab :
    let text := "  \t \tx\ty".toList
    7 ≤ indentWidth text ∧ splitColumns 7 text = ("  \t \t".toList, " x\ty".toList) ∧
      visibleFrom 7 " x\ty".toList = visibleFrom 0 text ∧
      visibleFrom 0 text = [('x', 8), ('y', 12)] := by
  intro text
  have wide : 7 ≤ indentWidth text := by decide
  have split : splitColumns 7 text = ("  \t \t".toList, " x\ty".toList) := by decide
  have kept := ((splitColumns_keeps_columns 7 text).1 wide).2.1
  rw [split] at kept
  exact ⟨wide, split, kept, by decide⟩

end BookHighlight.Markdown
