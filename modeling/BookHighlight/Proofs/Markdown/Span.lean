import BookHighlight.Proofs.Markdown.Run

namespace BookHighlight.Markdown

def ticks (width : Nat) : List Char := List.replicate width '`'

theorem takeWhile_ticks (width : Nat) {rest : List Char} (opened : rest.head? ≠ some '`') :
    (ticks width ++ rest).takeWhile (· == '`') = ticks width := by
  have all : ∀ c ∈ ticks width, (c == '`') = true := by
    intro c member
    rw [List.eq_of_mem_replicate member]
    rfl
  have stop : rest.takeWhile (· == '`') = [] := by
    cases rest with
    | nil => rfl
    | cons c rest => exact List.takeWhile_cons_of_neg (by simpa using opened)
  rw [List.takeWhile_append_of_pos all, stop, List.append_nil]

theorem drop_ticks (width : Nat) (rest : List Char) : (ticks width ++ rest).drop width = rest :=
  List.drop_left' List.length_replicate

structure Delimited (width : Nat) (middle after : List Char) : Prop where
  positive : 0 < width
  nonempty : middle ≠ []
  first : middle.head? ≠ some '`'
  last : middle.getLast? ≠ some '`'
  none : NoRun width middle
  right : after.head? ≠ some '`'

structure Encloses (offset : Nat) (text : List Char) (span : Span) (before : List Char)
    (width : Nat) (middle after : List Char) : Prop extends Delimited width middle after where
  whole : text = before ++ (ticks width ++ (middle ++ ticks width ++ after))
  start_eq : span.start = offset + before.length
  stop_eq : span.stop = span.start + width + middle.length + width
  code_eq : span.code = spanCode middle

namespace Encloses

variable {offset width : Nat} {text before middle after : List Char} {span : Span}

theorem prepend (front : List Char)
    (h : Encloses (offset + front.length) text span before width middle after) :
    Encloses offset (front ++ text) span (front ++ before) width middle after := by
  refine ⟨h.toDelimited, ?_, ?_, h.stop_eq, h.code_eq⟩
  · rw [h.whole, List.append_assoc front]
  · rw [h.start_eq, List.length_append, Nat.add_assoc]

theorem append {more : List Char} (h : Encloses offset text span before width middle after)
    (apart : (after ++ more).head? ≠ some '`') :
    Encloses offset (text ++ more) span before width middle (after ++ more) := by
  refine ⟨⟨h.positive, h.nonempty, h.first, h.last, h.none, apart⟩, ?_, h.start_eq, h.stop_eq,
    h.code_eq⟩
  simp [h.whole]

theorem bounds (h : Encloses offset text span before width middle after) :
    offset ≤ span.start ∧ span.start < span.stop ∧ span.stop ≤ offset + text.length := by
  have length := congrArg List.length h.whole
  have start := h.start_eq
  have stop := h.stop_eq
  have positive := h.positive
  simp only [List.length_append, ticks, List.length_replicate] at length
  omega

end Encloses

inductive Walks : Nat → List Char → List Span → Prop where
  | done {position} : Walks position [] []
  | escape {position c rest spans} : Walks (position + 2) rest spans →
      Walks position ('\\' :: c :: rest) spans
  | escapeEnd {position} : Walks position ['\\'] []
  | other {position c rest spans} : c ≠ '\\' → c ≠ '`' → Walks (position + 1) rest spans →
      Walks position (c :: rest) spans
  | unpaired {position width rest spans} : 0 < width → rest.head? ≠ some '`' →
      NoRun width (beforeBlankLine rest) → Walks (position + width) rest spans →
      Walks position (ticks width ++ rest) spans
  | paired {position width middle after spans} : Delimited width middle after →
      middle ++ ticks width <+: beforeBlankLine (middle ++ ticks width ++ after) →
      Walks (position + (width + middle.length + width)) after spans →
      Walks position (ticks width ++ (middle ++ ticks width ++ after))
        (⟨position, position + width + middle.length + width, spanCode middle⟩ :: spans)

theorem exists_append_beforeBlankLine (text : List Char) :
    ∃ later, beforeBlankLine text ++ later = text ∧ later.head? ≠ some '`' := by
  induction text with
  | nil => exact ⟨[], rfl, by simp⟩
  | cons c rest ih =>
    unfold beforeBlankLine
    split
    · rename_i blank
      exact ⟨c :: rest, rfl, by simp [blank.1]⟩
    · obtain ⟨later, whole, head⟩ := ih
      exact ⟨later, by rw [List.cons_append, whole], head⟩

theorem head?_beforeBlankLine {text : List Char} (h : text.head? ≠ some '`') :
    (beforeBlankLine text).head? ≠ some '`' := by
  cases text with
  | nil => exact h
  | cons c rest =>
    unfold beforeBlankLine
    split
    · simp
    · exact h

theorem opening_run (rest : List Char) {width : Nat}
    (counted : width = (rest.takeWhile (· == '`')).length + 1) :
    '`' :: rest = ticks width ++ rest.drop (width - 1) ∧
      (rest.drop (width - 1)).head? ≠ some '`' := by
  subst counted
  induction rest with
  | nil => exact ⟨rfl, by simp⟩
  | cons c rest ih =>
    by_cases tick : c = '`'
    · subst tick
      simpa [ticks, List.replicate_succ] using ih
    · simp [ticks, tick]

theorem exists_delimited {width : Nat} (positive : 0 < width) {rest before inner : List Char}
    (opened : rest.head? ≠ some '`') (found : RunIn (beforeBlankLine rest) before width inner)
    (none : NoRun width before) :
    ∃ after, rest = before ++ ticks width ++ after ∧ Delimited width before after := by
  obtain ⟨later, whole, head⟩ := exists_append_beforeBlankLine rest
  refine ⟨inner ++ later, ?_, positive, ?_, ?_, found.left, none, ?_⟩
  · rw [← whole, found.whole, List.append_assoc]
    rfl
  · rintro rfl
    have first := head?_beforeBlankLine opened
    obtain ⟨more, rfl⟩ := Nat.exists_eq_succ_of_ne_zero (Nat.ne_of_gt positive)
    exact first (by simp [found.whole, List.replicate_succ])
  · cases before with
    | nil => simp
    | cons c before =>
      rw [← whole, found.whole] at opened
      simpa using opened
  · cases inner with
    | nil => exact head
    | cons c inner => simpa using found.right

theorem walks_spansFrom (skip position : Nat) (text : List Char) :
    Walks (position + skip) (text.drop skip) (spansFrom skip position text) := by
  fun_induction spansFrom skip position text with
  | case1 skip position => simpa using Walks.done
  | case2 skip position c rest ih =>
    rw [show position + (skip + 1) = position + 1 + skip by omega]
    exact ih
  | case3 position rest ih =>
    cases rest with
    | nil => exact .escapeEnd
    | cons c rest => exact .escape ih
  | case4 position rest width closing index found _ ih =>
    have positive : 0 < width := Nat.succ_pos _
    obtain ⟨opening, opened⟩ := opening_run rest (rfl : width = _)
    have first := firstRun_runIndexFrom? positive closing
    rw [found] at first
    cases first with
    | @found before inner run none =>
      obtain ⟨after, whole, delimited⟩ := exists_delimited positive opened run none
      have left : before ++ ticks width <+: closing := ⟨inner, run.whole.symm⟩
      have code : closing.take before.length = before := by simp [run.whole]
      have later : rest.drop (width - 1 + before.length + width) = after := by
        rw [Nat.add_assoc, ← List.drop_drop, whole]
        simp [ticks]
      have stop : position + 1 + (width - 1 + before.length + width) =
          position + (width + before.length + width) := by omega
      rw [later, stop] at ih
      rw [Nat.add_zero, List.drop_zero, opening, whole, code]
      refine .paired delimited ?_ ih
      rwa [← whole]
  | case5 position rest width closing found _ ih =>
    have positive : 0 < width := Nat.succ_pos _
    obtain ⟨opening, opened⟩ := opening_run rest (rfl : width = _)
    have first := firstRun_runIndexFrom? positive closing
    rw [found] at first
    cases first with
    | missing none =>
      rw [show position + 1 + (width - 1) = position + width by omega] at ih
      rw [Nat.add_zero, List.drop_zero, opening]
      exact .unpaired positive opened none ih
  | case6 position c rest escape tick ih => exact .other escape tick ih

namespace Walks

variable {position : Nat} {text : List Char} {spans : List Span}

/-- Each span is found with no blank line before its end. -/
theorem encloses_unbroken (h : Walks position text spans) : ∀ span ∈ spans,
    ∃ before middle after width, Encloses position text span before width middle after ∧
      middle ++ ticks width <+: beforeBlankLine (middle ++ ticks width ++ after) := by
  induction h with
  | done => simp
  | @escape position c rest spans _ ih =>
    intro span member
    obtain ⟨before, middle, after, width, inside, unbroken⟩ := ih span member
    exact ⟨_, _, _, _, inside.prepend ['\\', c], unbroken⟩
  | escapeEnd => simp
  | @other position c rest spans _ _ _ ih =>
    intro span member
    obtain ⟨before, middle, after, width, inside, unbroken⟩ := ih span member
    exact ⟨_, _, _, _, inside.prepend [c], unbroken⟩
  | @unpaired position width rest spans _ _ _ _ ih =>
    intro span member
    rw [← List.length_replicate (a := '`') (n := width)] at ih
    obtain ⟨before, middle, after, width, inside, unbroken⟩ := ih span member
    exact ⟨_, _, _, _, inside.prepend (ticks _), unbroken⟩
  | @paired position width middle after spans delimited closed _ ih =>
    intro span member
    rcases List.mem_cons.mp member with rfl | member
    · exact ⟨[], middle, after, width, ⟨delimited, rfl, rfl, rfl, rfl⟩, closed⟩
    · have length : width + middle.length + width =
          (ticks width ++ middle ++ ticks width).length := by simp [ticks, Nat.add_assoc]
      rw [length] at ih
      obtain ⟨before, middle, after, width, inside, unbroken⟩ := ih span member
      have inside := inside.prepend _
      simp only [List.append_assoc] at inside unbroken ⊢
      exact ⟨_, _, _, _, inside, unbroken⟩

theorem encloses (h : Walks position text spans) : ∀ span ∈ spans, ∃ before middle after width,
    Encloses position text span before width middle after := by
  intro span member
  obtain ⟨before, middle, after, width, inside, _⟩ := h.encloses_unbroken span member
  exact ⟨before, middle, after, width, inside⟩

theorem pairwise (h : Walks position text spans) :
    spans.Pairwise fun left right => left.stop ≤ right.start := by
  induction h with
  | done => exact .nil
  | escape _ ih => exact ih
  | escapeEnd => exact .nil
  | other _ _ _ ih => exact ih
  | unpaired _ _ _ _ ih => exact ih
  | paired _ _ later ih =>
    refine List.pairwise_cons.mpr ⟨fun next member => ?_, ih⟩
    obtain ⟨before, middle, after, width, inside⟩ := later.encloses next member
    have bounds := inside.bounds
    simp only
    omega

end Walks

end BookHighlight.Markdown
