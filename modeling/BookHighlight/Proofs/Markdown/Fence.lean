import BookHighlight.Markdown.Fence

namespace BookHighlight.Markdown

def Fence.Proper (fence : Fence) : Prop :=
  (fence.mark = '`' ∨ fence.mark = '~') ∧ 3 ≤ fence.length

theorem Fence.ofText?_proper {s info : List Char} {fence : Fence}
    (h : Fence.ofText? s = some (fence, info)) : fence.Proper := by
  unfold Fence.ofText? at h
  split at h
  · dsimp only at h
    split at h
    · rename_i mark
      split at h
      · rename_i long
        cases h
        exact ⟨mark, long⟩
      · cases h
    · cases h
  · cases h

theorem openingFrom_proper {budget container s : List Char} {opening : Opening}
    (h : openingFrom budget container s = some opening) : opening.fence.Proper := by
  induction budget generalizing container s with
  | nil => cases h
  | cons _ budget ih =>
    unfold openingFrom at h
    dsimp only at h
    split at h
    · cases h
    · split at h
      · rename_i fence info found
        split at h
        · cases h
        · cases h
          exact Fence.ofText?_proper found
      · split at h
        · exact ih h
        · cases h

theorem takeWhile_append_drop (p : Char → Bool) (s : List Char) :
    s.takeWhile p ++ s.drop (s.takeWhile p).length = s :=
  List.prefix_iff_eq_append.mp <| List.takeWhile_prefix p

theorem listMarker?_source {s marker rest : List Char} (h : listMarker? s = some (marker, rest)) :
    s = marker ++ rest := by
  unfold listMarker? at h
  split at h
  · cases h
  · rename_i c text
    split at h
    · cases h
      rfl
    · have whole := takeWhile_append_drop Text.isDecimal (c :: text)
      dsimp only at h
      split at h
      · rename_i d after following
        split at h
        · cases h
          rw [following] at whole
          rw [List.append_assoc, List.singleton_append]
          exact whole.symm
        · cases h
      · cases h

theorem containerMarker?_source {s marker rest : List Char}
    (h : containerMarker? s = some (marker, rest)) : s = marker ++ rest := by
  unfold containerMarker? at h
  split at h
  · split at h <;> cases h <;> rfl
  · split at h
    · rename_i marker text found
      dsimp only at h
      split at h
      · cases h
      · cases h
        have gap : (spaces text).take 4 <+: text := by
          apply List.IsPrefix.trans
          · exact List.take_prefix _ _
          · exact List.takeWhile_prefix _
        rw [listMarker?_source found, List.append_assoc, List.prefix_iff_eq_append.mp gap]
    · cases h

theorem Fence.ofText?_source {s info : List Char} {fence : Fence}
    (h : Fence.ofText? s = some (fence, info)) :
    s = List.replicate fence.length fence.mark ++ info := by
  unfold Fence.ofText? at h
  split at h
  · rename_i c text
    dsimp only at h
    split at h
    · split at h
      · cases h
        have whole := takeWhile_append_drop (· == c) (c :: text)
        have run : (c :: text).takeWhile (· == c) =
            List.replicate ((c :: text).takeWhile (· == c)).length c := by
          apply List.eq_replicate_of_mem
          intro d member
          exact beq_iff_eq.mp (List.all_eq_true.mp List.all_takeWhile d member)
        rw [← run, whole]
      · cases h
    · cases h
  · cases h

/-- An opening line is its container, indentation, fence and info, in this order. -/
theorem openingFrom_source {budget container s : List Char} {opening : Opening}
    (h : openingFrom budget container s = some opening) :
    container ++ s = opening.container ++ opening.indent ++
      List.replicate opening.fence.length opening.fence.mark ++ opening.info := by
  induction budget generalizing container s with
  | nil => cases h
  | cons _ budget ih =>
    have indented := takeWhile_append_drop (· == ' ') s
    unfold openingFrom at h
    dsimp only at h
    split at h
    · cases h
    · split at h
      · rename_i fence info found
        split at h
        · cases h
        · cases h
          have fenced := Fence.ofText?_source found
          rw [List.append_assoc, List.append_assoc, ← fenced]
          exact congrArg (container ++ ·) indented.symm
      · split at h
        · rename_i marker rest found
          have marked := containerMarker?_source found
          rw [← ih h, List.append_assoc, List.append_assoc, ← marked]
          exact congrArg (container ++ ·) indented.symm
        · cases h

def isContainerChar (c : Char) : Bool :=
  c == '>' || c == ' ' || c == '-' || c == '+' || c == '*' || c == '.' || c == ')' ||
    Text.isDecimal c

theorem spaces_chars {s : List Char} : ∀ c ∈ spaces s, isContainerChar c = true := by
  intro c member
  have space := List.all_eq_true.mp List.all_takeWhile c member
  rw [beq_iff_eq.mp space]
  rfl

theorem listMarker?_chars {s marker rest : List Char}
    (h : listMarker? s = some (marker, rest)) : ∀ c ∈ marker, isContainerChar c = true := by
  unfold listMarker? at h
  split at h
  · cases h
  · split at h
    · rename_i bullet
      cases h
      rcases bullet with rfl | rfl | rfl <;> simp [isContainerChar]
    · dsimp only at h
      split at h
      · split at h
        · rename_i ordered
          cases h
          intro c member
          rcases List.mem_append.mp member with digit | last
          · simp [isContainerChar, List.all_eq_true.mp List.all_takeWhile c digit]
          · rw [List.mem_singleton.mp last]
            rcases ordered.2.2 with rfl | rfl <;> simp [isContainerChar]
        · cases h
      · cases h

theorem containerMarker?_chars {s marker rest : List Char}
    (h : containerMarker? s = some (marker, rest)) : ∀ c ∈ marker, isContainerChar c = true := by
  unfold containerMarker? at h
  split at h
  · split at h <;> cases h <;> simp [isContainerChar]
  · split at h
    · rename_i marker text found
      dsimp only at h
      split at h
      · cases h
      · cases h
        intro c member
        rcases List.mem_append.mp member with marks | gap
        · exact listMarker?_chars found c marks
        · exact spaces_chars c (List.mem_of_mem_take gap)
    · cases h

theorem openingFrom_chars {budget container s : List Char} {opening : Opening}
    (h : openingFrom budget container s = some opening)
    (before : ∀ c ∈ container, isContainerChar c = true) :
    ∀ c ∈ opening.container ++ opening.indent, isContainerChar c = true := by
  induction budget generalizing container s with
  | nil => cases h
  | cons _ budget ih =>
    have indented := List.forall_mem_append.mpr ⟨before, spaces_chars (s := s)⟩
    unfold openingFrom at h
    dsimp only at h
    split at h
    · cases h
    · split at h
      · split at h
        · cases h
        · cases h
          exact indented
      · split at h
        · rename_i marker rest found
          exact ih h (List.forall_mem_append.mpr ⟨indented, containerMarker?_chars found⟩)
        · cases h

theorem containerMarker?_ne_nil {s marker rest : List Char}
    (h : containerMarker? s = some (marker, rest)) : marker ≠ [] := by
  unfold containerMarker? at h
  split at h
  · split at h <;> cases h <;> simp
  · split at h
    · dsimp only at h
      split at h
      · cases h
      · rename_i some
        cases h
        exact List.append_ne_nil_of_right_ne_nil _ (by simpa using some)
    · cases h

theorem openingFrom_container {budget container s : List Char} {opening : Opening}
    (h : openingFrom budget container s = some opening) :
    container.length ≤ opening.container.length ∧
      (opening.container = container → opening.indent = [] →
        Fence.ofText? s = some (opening.fence, opening.info)) := by
  induction budget generalizing container s with
  | nil => cases h
  | cons _ budget ih =>
    unfold openingFrom at h
    dsimp only at h
    split at h
    · cases h
    · split at h
      · rename_i fence info found
        split at h
        · cases h
        · cases h
          refine ⟨Nat.le_refl _, fun _ bare => ?_⟩
          dsimp only at bare
          rwa [bare] at found
      · split at h
        · rename_i marker rest found
          have some := List.length_pos_iff.mpr (containerMarker?_ne_nil found)
          have long := (ih h).1
          rw [List.length_append, List.length_append] at long
          refine ⟨by omega, fun same => ?_⟩
          rw [same] at long
          omega
        · cases h

theorem stripContainer_suffix (container text : List Char) :
    stripContainer container text <:+ text := by
  fun_induction stripContainer container text with
  | case1 text => exact List.suffix_refl text
  | case2 => exact List.suffix_refl []
  | case3 container c text ih => exact ih.trans (List.suffix_cons c text)
  | case4 container c text _ ih => exact ih
  | case5 => exact List.suffix_refl _

namespace Fence.Proper

variable {fence : Fence}

theorem not_isBlank (proper : fence.Proper) : Text.isBlank fence.mark = false := by
  rcases proper.1 with mark | mark <;> rw [mark] <;> decide

theorem mark_mem (proper : fence.Proper) {text : List Char} (h : fence.closedBy text = true) :
    fence.mark ∈ text := by
  simp only [Fence.closedBy, Bool.and_eq_true, decide_eq_true_eq] at h
  have long := proper.2
  have some : 0 < ((text.drop (spaces text).length).takeWhile (· == fence.mark)).length := by omega
  obtain ⟨c, member⟩ := List.exists_mem_of_length_pos some
  have same := List.all_eq_true.mp List.all_takeWhile c member
  rw [← beq_iff_eq.mp same]
  exact List.mem_of_mem_drop ((List.takeWhile_sublist _).mem member)

theorem closing_not_isBlank (proper : fence.Proper) {lead : List Char} {line : Line}
    (h : fence.closedBy (stripContainer lead line.text) = true) : line.isBlank = false := by
  have member := (stripContainer_suffix lead line.text).mem (proper.mark_mem h)
  exact List.all_eq_false.mpr ⟨fence.mark, member, by simp [proper.not_isBlank]⟩

end Fence.Proper

end BookHighlight.Markdown
