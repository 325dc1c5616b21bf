import BookHighlight.Proofs.Markdown.State
import BookHighlight.Proofs.Markdown.Written

namespace BookHighlight.Markdown

open Text (Unbroken)

def writtenSpan (width : Nat) (code : List Char) : List Char :=
  ticks width ++ (' ' :: (code ++ [' ']) ++ ticks width)

theorem containerMarker?_tick (rest : List Char) : containerMarker? ('`' :: rest) = none := by
  have digits : ('`' :: rest).takeWhile Text.isDecimal = [] :=
    List.takeWhile_cons_of_neg (by decide)
  have marker : listMarker? ('`' :: rest) = none := by
    unfold listMarker?
    simp [digits]
  unfold containerMarker?
  split
  · rename_i quote
    cases quote
  · rw [marker]

theorem ofText?_ticks {width : Nat} (positive : 0 < width) {info : List Char}
    (apart : info.head? ≠ some '`') : Fence.ofText? (ticks width ++ info) =
      if 3 ≤ width then some (⟨'`', width⟩, info) else none := by
  have run := takeWhile_ticks width apart
  have length : (ticks width).length = width := List.length_replicate
  have after := drop_ticks width info
  obtain ⟨more, rfl⟩ := Nat.exists_eq_succ_of_ne_zero (Nat.ne_of_gt positive)
  have whole : ticks (more + 1) ++ info = '`' :: (ticks more ++ info) := rfl
  rw [whole] at run after ⊢
  unfold Fence.ofText?
  simp only [true_or, if_true, run, length, after]

theorem opening_ticks {width : Nat} (positive : 0 < width) {info : List Char}
    (apart : info.head? ≠ some '`') (ticked : '`' ∈ info) :
    Opening.ofText? (ticks width ++ info) = none := by
  have fence := ofText?_ticks positive apart
  obtain ⟨more, rfl⟩ := Nat.exists_eq_succ_of_ne_zero (Nat.ne_of_gt positive)
  have whole : ticks (more + 1) ++ info = '`' :: (ticks more ++ info) := rfl
  have flush : spaces ('`' :: (ticks more ++ info)) = [] := rfl
  rw [whole] at fence ⊢
  rw [Opening.ofText?, openingFrom]
  simp only [flush, List.length_nil, List.drop_zero, fence, containerMarker?_tick]
  rw [if_neg (by decide)]
  by_cases long : 3 ≤ more + 1
  · simp only [if_pos long]
    exact if_pos ⟨trivial, ticked⟩
  · simp only [if_neg long]

theorem beforeBlankLine_eq {text : List Char} (oneLine : '\n' ∉ text) :
    beforeBlankLine text = text := by
  induction text with
  | nil => rfl
  | cons c rest ih =>
    obtain ⟨other, later⟩ := not_or.mp (mt List.mem_cons.mpr oneLine)
    rw [beforeBlankLine, if_neg fun blank => other blank.1.symm, ih later]

theorem joinSpanLines_eq {text : List Char} (oneLine : '\n' ∉ text) :
    joinSpanLines text = text := by
  fun_induction joinSpanLines text with
  | case1 => rfl
  | case2 rest ih => simp at oneLine
  | case3 c rest _ ih =>
    obtain ⟨other, later⟩ := not_or.mp (mt List.mem_cons.mpr oneLine)
    rw [if_neg (Ne.symm other), ih later]

theorem spansFrom_skip (skip position : Nat) (text : List Char) :
    spansFrom skip position text = spansFrom 0 (position + skip) (text.drop skip) := by
  induction skip generalizing position text with
  | zero => rfl
  | succ skip ih =>
    cases text with
    | nil => rfl
    | cons c rest =>
      rw [spansFrom, ih, List.drop_succ_cons, Nat.add_right_comm]
      rfl

/-- What a run of backticks comes to depends on the first run of its width behind it. -/
theorem spansFrom_ticks {width : Nat} (positive : 0 < width) {rest : List Char}
    (opened : rest.head? ≠ some '`') (position : Nat) :
    spansFrom 0 position (ticks width ++ rest) =
      match runIndexFrom? width 0 0 (beforeBlankLine rest) with
      | some index =>
        ⟨position, position + width + index + width,
          spanCode ((beforeBlankLine rest).take index)⟩ ::
            spansFrom 0 (position + width + index + width) (rest.drop (index + width))
      | none => spansFrom 0 (position + width) rest := by
  obtain ⟨more, rfl⟩ := Nat.exists_eq_succ_of_ne_zero (Nat.ne_of_gt positive)
  have whole : ticks (more + 1) ++ rest = '`' :: (ticks more ++ rest) := rfl
  have run := takeWhile_ticks more opened
  have length : (ticks more).length = more := List.length_replicate
  have after := drop_ticks more rest
  rw [whole, spansFrom, if_neg (by decide), if_pos rfl]
  simp only [run, length, Nat.add_sub_cancel, after]
  cases runIndexFrom? (more + 1) 0 0 (beforeBlankLine rest) with
  | none =>
    dsimp only
    rw [spansFrom_skip, after, Nat.add_right_comm, Nat.add_assoc]
  | some index =>
    dsimp only
    rw [spansFrom_skip, Nat.add_assoc more, ← List.drop_drop, after]
    congr 2
    omega

theorem getLast?_enclosed (code : List Char) : (' ' :: (code ++ [' '])).getLast? = some ' ' := by
  rw [← List.cons_append, List.getLast?_concat]

theorem spanCode_enclosed {code : List Char} (oneLine : '\n' ∉ code)
    (shown : ∃ c ∈ code, c ≠ ' ') : spanCode (' ' :: (code ++ [' '])) = code := by
  have joined : joinSpanLines (' ' :: (code ++ [' '])) = ' ' :: (code ++ [' ']) := by
    apply joinSpanLines_eq
    simp [oneLine]
  have other : (' ' :: (code ++ [' '])).any (· != ' ') = true := by
    obtain ⟨c, member, differs⟩ := shown
    exact List.any_eq_true.mpr ⟨c, by simp [member], by simpa using differs⟩
  unfold spanCode
  rw [joined]
  dsimp only
  rw [if_pos ⟨rfl, getLast?_enclosed code, other⟩, List.tail_cons, List.dropLast_concat]

section

variable {width : Nat} (positive : 0 < width) {code : List Char}

include positive in
theorem spansFrom_written (oneLine : '\n' ∉ code) (shown : ∃ c ∈ code, c ≠ ' ')
    (none : NoRun width code) : spansFrom 0 0 (writtenSpan width code) =
      [⟨0, (writtenSpan width code).length, code⟩] := by
  let front := ' ' :: (code ++ [' '])
  have feedless : '\n' ∉ front ++ ticks width := by
    have inner : '\n' ∉ front := by simp [front, oneLine]
    rw [List.mem_append, not_or]
    refine ⟨inner, fun feed => ?_⟩
    exact absurd (List.eq_of_mem_replicate feed) (by decide)
  have apart : front.getLast? ≠ some '`' := by
    rw [show front.getLast? = some ' ' from getLast?_enclosed code]
    decide
  have opened : (front ++ ticks width).head? ≠ some '`' := by simp [front]
  have enclosed : NoRun width front := none.enclose positive (by decide) (by decide)
  have index : runIndexFrom? width 0 0 (front ++ ticks width) = some front.length :=
    runIndexFrom?_append positive enclosed apart
  have found := spansFrom_ticks positive opened 0
  rw [beforeBlankLine_eq feedless, index] at found
  dsimp only at found
  have taken : (front ++ ticks width).take front.length = front := List.take_left' rfl
  have rest : (front ++ ticks width).drop (front.length + width) = [] := by
    apply List.drop_of_length_le
    simp [ticks]
  have stop : 0 + width + front.length + width = (writtenSpan width code).length := by
    simp [writtenSpan, ticks, front]
    omega
  rw [taken, rest, stop, spanCode_enclosed oneLine shown] at found
  exact found

theorem unbroken_writtenSpan (unbroken : Unbroken code) : Unbroken (writtenSpan width code) := by
  have run : Unbroken (ticks width) := by
    intro c member
    rw [List.eq_of_mem_replicate member]
    decide
  have space : Unbroken [' '] := by decide
  exact run.append ((space.append (unbroken.append space)).append run)

include positive

theorem blocks_writtenSpan (unbroken : Unbroken code) : blocks (writtenSpan width code) = [] := by
  let info := ' ' :: (code ++ [' ']) ++ ticks width
  let line : Line := ⟨0, (writtenSpan width code).length, writtenSpan width code⟩
  have ticked : ∀ rest, '`' ∈ rest ++ ticks width := fun rest =>
    List.mem_append_right rest (List.mem_replicate.mpr ⟨Nat.ne_of_gt positive, rfl⟩)
  have tight : Tight (writtenSpan width code) := by
    obtain ⟨more, rfl⟩ := Nat.exists_eq_succ_of_ne_zero (Nat.ne_of_gt positive)
    rintro c ⟨⟩
    rfl
  have whole : lines (writtenSpan width code) = [line] := by
    have some : writtenSpan width code ≠ [] := by
      intro none
      have shown := ticked (ticks width ++ ' ' :: (code ++ [' ']))
      rw [List.append_assoc, show _ ++ _ = writtenSpan width code from rfl, none] at shown
      cases shown
    rw [lines, (unbroken_writtenSpan unbroken).brokenLines_last some, linesFrom_last, Nat.zero_add]
  have nonblank : line.isBlank = false := by
    refine List.all_eq_false.mpr ⟨'`', ?_, by decide⟩
    exact List.mem_append_right _ (ticked (' ' :: (code ++ [' '])))
  have flush : indentWidth line.text = 0 := indentFrom_of_head tight 0
  have closed : Opening.ofText? line.text = none :=
    opening_ticks positive (by simp) (ticked (' ' :: (code ++ [' '])))
  have step := BlockState.initial.step_flush nonblank flush closed []
  rw [blocks, whole, blocksFrom, step]
  rfl

/-- A span that is written with a space at each end of its code is found as the one construct of
    its text, with the code that was written. -/
theorem constructs_writtenSpan (unbroken : Unbroken code) (shown : ∃ c ∈ code, c ≠ ' ')
    (none : NoRun width code) : constructs (writtenSpan width code) =
      [.span ⟨0, (writtenSpan width code).length, code⟩] := by
  have oneLine : '\n' ∉ code := fun feed => absurd (unbroken '\n' feed) (by decide)
  rw [constructs, blocks_writtenSpan positive unbroken, constructsFrom, List.drop_zero,
    spansFrom_written positive oneLine shown none]
  rfl

end

theorem constructs_writtenSpan_fenceLike :
    let code := " \\`` # ````\\ ".toList
    0 < 3 ∧ Unbroken code ∧ (∃ c ∈ code, c ≠ ' ') ∧ NoRun 3 code ∧
      writtenSpan 3 code = "```  \\`` # ````\\  ```".toList ∧
      constructs (writtenSpan 3 code) = [.span ⟨0, 21, code⟩] := by
  intro code
  have positive : 0 < 3 := by decide
  have unbroken : Unbroken code := by decide
  have shown : ∃ c ∈ code, c ≠ ' ' := ⟨'#', by decide, by decide⟩
  have none : NoRun 3 code := noRun_of_runIndexFrom? positive (by decide)
  exact ⟨positive, unbroken, shown, none, by decide,
    (constructs_writtenSpan positive unbroken shown none).trans (by decide)⟩

end BookHighlight.Markdown
