import BookHighlight.Markdown.Column

namespace BookHighlight.Markdown

def columnFrom (column : Nat) (text : List Char) : Nat := text.foldl nextColumn column

theorem columnFrom_append (column : Nat) (left right : List Char) :
    columnFrom column (left ++ right) = columnFrom (columnFrom column left) right :=
  List.foldl_append

theorem columnFrom_of_no_tab {text : List Char} (h : '\t' ∉ text) (column : Nat) :
    columnFrom column text = column + text.length := by
  induction text generalizing column with
  | nil => rfl
  | cons c text ih =>
    obtain ⟨other, later⟩ := not_or.mp (mt List.mem_cons.mpr h)
    change columnFrom (nextColumn column c) text = _
    rw [ih later, nextColumn, if_neg (Ne.symm other), List.length_cons]
    omega

section

variable {width column : Nat}

theorem splitColumnsFrom_of_le (reached : width ≤ column) (text : List Char) :
    splitColumnsFrom width column text = ([], List.replicate (column - width) ' ' ++ text) := by
  cases text with
  | nil => rw [splitColumnsFrom, List.append_nil]
  | cons c text => rw [splitColumnsFrom, if_neg fun more => Nat.not_lt_of_le reached more.1]

theorem splitColumnsFrom_cons {c : Char} (inside : column < width ∧ isIndentation c = true)
    (text : List Char) : splitColumnsFrom width column (c :: text) =
      (c :: (splitColumnsFrom width (nextColumn column c) text).1,
        (splitColumnsFrom width (nextColumn column c) text).2) := by
  rw [splitColumnsFrom, if_pos inside]

end

/-- What is split off is the front of the text; before the rest stand the columns of a split tab
    that are in excess, as spaces. -/
theorem splitColumnsFrom_excess (width column : Nat) (text : List Char) : ∃ rest,
    text = (splitColumnsFrom width column text).1 ++ rest ∧
      (splitColumnsFrom width column text).2 =
        List.replicate (columnFrom column (splitColumnsFrom width column text).1 - width) ' ' ++
          rest := by
  induction text generalizing column with
  | nil => exact ⟨[], rfl, (List.append_nil _).symm⟩
  | cons c text ih =>
    by_cases inside : column < width ∧ isIndentation c = true
    · obtain ⟨rest, whole, kept⟩ := ih (nextColumn column c)
      rw [splitColumnsFrom_cons inside]
      exact ⟨rest, congrArg (c :: ·) whole, kept⟩
    · rw [splitColumnsFrom, if_neg inside]
      exact ⟨c :: text, rfl, rfl⟩

theorem splitColumnsFrom_tab {width column : Nat} (start : column ≤ width) (text : List Char)
    (beyond : width < columnFrom column (splitColumnsFrom width column text).1) :
    (splitColumnsFrom width column text).1.getLast? = some '\t' ∧
      columnFrom column (splitColumnsFrom width column text).1 < width + 4 := by
  induction text generalizing column with
  | nil => exact absurd start (Nat.not_le_of_gt beyond)
  | cons c text ih =>
    by_cases inside : column < width ∧ isIndentation c = true
    · rw [splitColumnsFrom_cons inside] at beyond ⊢
      by_cases within : nextColumn column c ≤ width
      · obtain ⟨last, near⟩ := ih within beyond
        refine ⟨?_, near⟩
        rw [List.getLast?_cons, last, Option.getD_some]
      · -- the tab itself reaches too far, so nothing more is split off
        have tab : c = '\t' := by
          apply Decidable.byContradiction
          intro other
          rw [nextColumn, if_neg other] at within
          omega
        rw [splitColumnsFrom_of_le (Nat.le_of_not_le within), tab, nextColumn, if_pos rfl]
        refine ⟨rfl, ?_⟩
        change column + (4 - column % 4) < width + 4
        omega
    · rw [splitColumnsFrom, if_neg inside] at beyond
      exact absurd start (Nat.not_le_of_gt beyond)

theorem splitColumnsFrom_indents (width column : Nat) (text : List Char) :
    ∀ c ∈ (splitColumnsFrom width column text).1, isIndentation c = true := by
  induction text generalizing column with
  | nil => simp [splitColumnsFrom]
  | cons c text ih =>
    unfold splitColumnsFrom
    split
    · rename_i inside
      exact List.forall_mem_cons.mpr ⟨inside.2, ih _⟩
    · simp

theorem splitColumnsFrom_reaches {width column : Nat} (text : List Char)
    (wide : width ≤ indentFrom column text) :
    width ≤ columnFrom column (splitColumnsFrom width column text).1 := by
  induction text generalizing column with
  | nil => exact wide
  | cons c text ih =>
    unfold indentFrom at wide
    by_cases inside : column < width ∧ isIndentation c = true
    · rw [if_pos inside.2] at wide
      rw [splitColumnsFrom_cons inside]
      exact ih wide
    · rw [splitColumnsFrom, if_neg inside]
      rcases Decidable.not_and_iff_not_or_not.mp inside with reached | other
      · exact Nat.le_of_not_lt reached
      · rwa [if_neg other] at wide

theorem splitColumns_source (width : Nat) (text : List Char) : ∃ pad rest,
    text = (splitColumns width text).1 ++ rest ∧
      (splitColumns width text).2 = List.replicate pad ' ' ++ rest :=
  let ⟨rest, source⟩ := splitColumnsFrom_excess width 0 text
  ⟨_, rest, source⟩

theorem splitColumns_zero (text : List Char) : splitColumns 0 text = ([], text) := by
  cases text <;> rfl

theorem splitColumnsFrom_spaces (column width : Nat) (text : List Char) :
    splitColumnsFrom (column + width) column (List.replicate width ' ' ++ text) =
      (List.replicate width ' ', text) := by
  induction width generalizing column with
  | zero =>
    have split := splitColumnsFrom_of_le (Nat.le_refl column) text
    rwa [Nat.sub_self, List.replicate_zero, List.nil_append] at split
  | succ width ih =>
    have inside : column < column + (width + 1) ∧ isIndentation ' ' = true :=
      ⟨by omega, rfl⟩
    have next : nextColumn column ' ' = column + 1 := if_neg (by decide)
    have later := ih (column + 1)
    rw [Nat.add_right_comm, Nat.add_assoc] at later
    rw [List.replicate_succ, List.cons_append, splitColumnsFrom_cons inside, next, later]

theorem splitColumns_spaces (width : Nat) (text : List Char) :
    splitColumns width (List.replicate width ' ' ++ text) = (List.replicate width ' ', text) := by
  have split := splitColumnsFrom_spaces 0 width text
  rwa [Nat.zero_add] at split

theorem lt_nextColumn (column : Nat) (c : Char) : column < nextColumn column c := by
  have tabs := Nat.mod_lt column (by decide : 0 < 4)
  unfold nextColumn
  split <;> omega

theorem le_indentFrom (column : Nat) (text : List Char) : column ≤ indentFrom column text := by
  induction text generalizing column with
  | nil => exact Nat.le_refl _
  | cons c text ih =>
    have next := lt_nextColumn column c
    have later := ih (nextColumn column c)
    unfold indentFrom
    split <;> omega

theorem indentFrom_of_head {text : List Char} (h : ∀ c ∈ text.head?, isIndentation c = false)
    (column : Nat) : indentFrom column text = column := by
  cases text with
  | nil => rfl
  | cons c text => simp [indentFrom, h c rfl]

theorem indentFrom_spaces (column width : Nat) (rest : List Char) :
    indentFrom column (List.replicate width ' ' ++ rest) = indentFrom (column + width) rest := by
  induction width generalizing column with
  | zero => rfl
  | succ width ih =>
    rw [List.replicate_succ, List.cons_append, indentFrom, if_pos (by decide), ih, nextColumn,
      if_neg (by decide), Nat.add_right_comm, Nat.add_assoc]

theorem le_indentWidth_spaces (width : Nat) (rest : List Char) :
    width ≤ indentWidth (List.replicate width ' ' ++ rest) := by
  rw [indentWidth, indentFrom_spaces]
  exact Nat.le_trans (Nat.le_add_left ..) (le_indentFrom (0 + width) rest)

theorem indentFrom_replicate (column width : Nat) {c : Char} (h : isIndentation c = false)
    (rest : List Char) :
    indentFrom column (List.replicate width ' ' ++ c :: rest) = column + width := by
  rw [indentFrom_spaces]
  exact indentFrom_of_head (by simpa using h) _

end BookHighlight.Markdown
