import BookHighlight.Proofs.Markdown.Construct

namespace BookHighlight.Markdown

def isFenceMark (c : Char) : Bool := c == '`' || c == '~'

theorem isFenceMark_of {p : Char → Bool} (tick : p '`' = false) (tilde : p '~' = false) {c : Char}
    (h : p c = true) : isFenceMark c = false := by
  rw [isFenceMark, Bool.or_eq_false_iff, beq_eq_false_iff_ne, beq_eq_false_iff_ne]
  constructor
  · rintro rfl
    exact absurd h (by rw [tick]; decide)
  · rintro rfl
    exact absurd h (by rw [tilde]; decide)

def Unmarked (s : List Char) : Prop := ∀ c ∈ s, isFenceMark c = false

namespace Unmarked

variable {s t : List Char}

theorem append (hs : Unmarked s) (ht : Unmarked t) : Unmarked (s ++ t) := by
  intro c member
  rcases List.mem_append.mp member with left | right
  · exact hs c left
  · exact ht c right

end Unmarked

theorem unmarked_replicate (width : Nat) : Unmarked (List.replicate width ' ') := by
  intro c space
  rw [List.eq_of_mem_replicate space]
  rfl

theorem unmarked_opening {s : List Char} {opening : Opening}
    (h : Opening.ofText? s = some opening) : Unmarked (opening.container ++ opening.indent) :=
  fun c member => isFenceMark_of (by decide) (by decide) (openingFrom_chars h (by simp) c member)

theorem unmarked_splitColumnsFrom (width column : Nat) (text : List Char) :
    Unmarked (splitColumnsFrom width column text).1 := fun c member =>
  isFenceMark_of (by decide) (by decide) (splitColumnsFrom_indents width column text c member)

theorem indentFrom_append {text : List Char} (h : text.any (!isIndentation ·) = true)
    (column : Nat) (more : List Char) :
    indentFrom column (text ++ more) = indentFrom column text := by
  induction text generalizing column with
  | nil => cases h
  | cons c text ih =>
    rw [List.cons_append, indentFrom, indentFrom]
    split
    · rename_i indents
      exact ih (by simpa [indents] using h) _
    · rfl

theorem Line.any_not_isIndentation {line : Line} (nonblank : line.isBlank = false) :
    line.text.any (!isIndentation ·) = true := by
  obtain ⟨c, member, shows⟩ := List.all_eq_false.mp nonblank
  refine List.any_eq_true.mpr ⟨c, member, ?_⟩
  cases indents : isIndentation c with
  | false => rfl
  | true =>
    simp only [isIndentation, Bool.or_eq_true, beq_iff_eq] at indents
    rcases indents with rfl | rfl <;> exact absurd rfl shows

theorem Unmarked.not_append_mark {front wide : List Char} (h : Unmarked wide) {mark : Char}
    (marks : isFenceMark mark = true) (long : front.length < wide.length) (x y : List Char) :
    front ++ mark :: x ≠ wide ++ y := by
  intro same
  have left : front ++ [mark] <+: wide ++ y := ⟨x, by rw [← same]; simp⟩
  have within := List.prefix_of_prefix_length_le left (List.prefix_append wide y) (by simpa)
  rw [h mark (within.mem (by simp))] at marks
  cases marks

/-- A split tab leaves spaces that a line does not have, but these cannot hide a mark. -/
theorem tag_ne_kept {pad : Nat} {kept front more : List Char} {mark : Char}
    (marks : isFenceMark mark = true) (clean : Unmarked front)
    (opened : List.replicate pad ' ' ++ kept = front ++ mark :: more) (after x : List Char) :
    kept ++ after ≠ front ++ '<' :: x := by
  intro same
  have padded : Unmarked (List.replicate pad ' ' ++ front ++ ['<']) :=
    ((unmarked_replicate pad).append clean).append (by simp [Unmarked, isFenceMark])
  have long : front.length < (List.replicate pad ' ' ++ front ++ ['<']).length := by
    simp only [List.length_append, List.length_singleton]
    omega
  refine padded.not_append_mark marks long (more ++ after) x ?_
  rw [← List.cons_append, ← List.append_assoc, ← opened, List.append_assoc, same]
  simp

theorem Fence.Proper.isFenceMark {fence : Fence} (proper : fence.Proper) :
    isFenceMark fence.mark = true := by
  rcases proper.1 with mark | mark <;> rw [mark] <;> rfl

theorem Fence.Proper.exists_run {fence : Fence} (proper : fence.Proper) : ∃ more,
    List.replicate fence.length fence.mark = List.replicate 3 fence.mark ++ more :=
  ⟨List.replicate (fence.length - 3) fence.mark, by
    rw [List.replicate_append_replicate, Nat.add_sub_cancel' proper.2]⟩

section

variable {w a b : List Char}

/-- What precedes a word and shares no character with it can be left out of the search. -/
theorem infix_of_infix_append (h : w <:+: a ++ b) (apart : ∀ c ∈ a, c ∉ w) : w <:+: b := by
  induction a with
  | nil => exact h
  | cons c a ih =>
    obtain ⟨first, later⟩ := List.forall_mem_cons.mp apart
    rcases List.infix_cons_iff.mp h with start | inside
    · cases w with
      | nil => exact List.nil_infix
      | cons d w =>
        obtain ⟨same, _⟩ := List.cons_prefix_cons.mp start
        exact absurd (List.mem_cons.mpr (.inl same.symm)) first
    · exact ih inside later

theorem infix_append_cons {c : Char} (h : w <:+: a ++ c :: b) (other : c ∉ w) :
    w <:+: a ∨ w <:+: b := by
  obtain ⟨x, y, whole⟩ := h
  rw [List.append_assoc] at whole
  rcases List.append_eq_append_iff.mp whole with ⟨more, rfl, rest⟩ | ⟨more, rfl, rest⟩
  · rcases List.append_eq_append_iff.mp rest with ⟨later, rfl, _⟩ | ⟨later, rfl, tail⟩
    · exact .inl ⟨x, later, by simp⟩
    · cases later with
      | nil => exact .inl ⟨x, [], by simp⟩
      | cons d later =>
        cases tail
        exact absurd (by simp) other
  · cases more with
    | nil =>
      cases w with
      | nil => exact .inl List.nil_infix
      | cons d w =>
        cases rest
        exact absurd (List.mem_cons_self ..) other
    | cons d more =>
      cases rest
      exact .inr ⟨more, y, by simp⟩

end

section

variable {s : BlockState} {line : Line} {rest : List Line} {found : Block × Nat}

theorem exists_opened {width : Nat} {opening : Opening}
    (opens : Opening.ofText? (splitColumns width line.text).2 = some opening) :
    ∃ pad kept more, line.text = (splitColumns width line.text).1 ++ kept ∧
      List.replicate pad ' ' ++ kept = opening.container ++ opening.indent ++
        (List.replicate 3 opening.fence.mark ++ more) := by
  obtain ⟨pad, kept, whole, split⟩ := splitColumns_source width line.text
  obtain ⟨run, fenced⟩ := (openingFrom_proper opens).exists_run
  have opened := openingFrom_source opens
  rw [List.nil_append, split, fenced, List.append_assoc _ _ opening.info, List.append_assoc _ run]
    at opened
  exact ⟨pad, kept, run ++ opening.info, whole, opened⟩

theorem Starts.unmarked_lead (h : Starts s line rest found) : Unmarked found.1.lead := by
  cases h with
  | indented _ _ _ => exact unmarked_replicate _
  | fenced _ opens =>
    rw [fencedBlock_lead, List.append_assoc]
    exact (unmarked_splitColumnsFrom _ _ _).append (unmarked_opening opens)

theorem Starts.not_tag (h : Starts s line rest found) (after x : List Char) :
    line.text ++ after ≠ found.1.lead ++ '<' :: x := by
  intro same
  cases h with
  | indented nonblank _ wide =>
    have width := congrArg (indentFrom 0) same
    rw [indentFrom_append (Line.any_not_isIndentation nonblank)] at width
    have tag := indentFrom_replicate 0 (s.at line).base (by decide : isIndentation '<' = false) x
    simp only [indentedBlock] at width
    rw [tag] at width
    rw [indentWidth] at wide
    omega
  | @fenced opening _ opens =>
    have proper := openingFrom_proper opens
    obtain ⟨pad, kept, more, whole, opened⟩ := exists_opened opens
    rw [fencedBlock_lead, List.append_assoc _ opening.container, List.append_assoc] at same
    have behind : (splitColumns (s.columns line) line.text).1 ++ (kept ++ after) =
        line.text ++ after := by rw [← List.append_assoc, ← whole]
    exact tag_ne_kept proper.isFenceMark (unmarked_opening opens)
      opened after x (List.append_cancel_left (behind.trans same))

theorem Starts.indented_or_fence (h : Starts s line rest found) : found.1.kind = .indented ∨
    ∃ mark, isFenceMark mark = true ∧ List.replicate 3 mark <:+: line.text := by
  cases h with
  | indented _ _ _ => exact .inl rfl
  | @fenced opening _ opens =>
    have marks := (openingFrom_proper opens).isFenceMark
    obtain ⟨pad, kept, more, whole, opened⟩ := exists_opened opens
    refine .inr ⟨opening.fence.mark, marks, ?_⟩
    have inside : List.replicate 3 opening.fence.mark <:+: List.replicate pad ' ' ++ kept :=
      ⟨opening.container ++ opening.indent, more, by rw [opened, List.append_assoc]⟩
    rw [whole]
    have kept : List.replicate 3 opening.fence.mark <:+: kept := by
      refine infix_of_infix_append inside fun c space mark => ?_
      have clean := unmarked_replicate pad c space
      rw [List.eq_of_mem_replicate mark, marks] at clean
      cases clean
    exact kept.trans (List.suffix_append ..).isInfix

end

def Construct.lead : Construct → List Char
  | .block b => b.lead
  | .span _ => []

theorem exists_starts_at {content : List Char} {block : Block} (h : block ∈ blocks content) :
    ∃ s line rest taken after, Starts s line rest (block, taken) ∧
      content.drop block.start = line.text ++ after := by
  obtain ⟨s, line, rest, taken, inside, starts⟩ := (scans_blocks content).exists_starts block h
  obtain ⟨before, after, whole, start, _⟩ :=
    (lined_lines content).source line (inside.mem (by simp))
  refine ⟨s, line, rest, taken, after, starts, ?_⟩
  rw [starts.covers.start_eq, start, Nat.zero_add, whole, List.append_assoc, List.drop_left' rfl]

section

variable {content : List Char} {c : Construct}

theorem unmarked_lead (h : c ∈ constructs content) : Unmarked c.lead := by
  cases c with
  | span _ => simp [Construct.lead, Unmarked]
  | block block =>
    obtain ⟨_, _, _, _, _, starts, _⟩ := exists_starts_at (mem_constructsFrom_block h)
    exact starts.unmarked_lead

/-- The source of a construct is never a tag behind its lead. -/
theorem source_not_tag (h : c ∈ constructs content) (x : List Char) :
    content.drop c.start ≠ c.lead ++ '<' :: x := by
  cases c with
  | span span =>
    obtain ⟨before, middle, after, width, found⟩ := (laid_blocks content).encloses h
    intro same
    have start : span.start = before.length := by rw [found.start_eq, Nat.zero_add]
    have head := congrArg List.head? same
    rw [Construct.start, found.whole, start, List.drop_left' rfl] at head
    simp [ticks, List.head?_replicate, Nat.ne_of_gt found.positive, Construct.lead] at head
  | block block =>
    obtain ⟨_, _, _, _, after, starts, source⟩ := exists_starts_at (mem_constructsFrom_block h)
    rw [Construct.start, source]
    exact starts.not_tag after x

theorem indented_or_marked (h : c ∈ constructs content) :
    (∃ block, c = .block block ∧ block.kind = .indented) ∨ '`' ∈ content ∨
      List.replicate 3 '~' <:+: content := by
  cases c with
  | span span =>
    obtain ⟨before, middle, after, width, found⟩ := (laid_blocks content).encloses h
    refine .inr (.inl ?_)
    rw [found.whole]
    simp [ticks, Nat.ne_of_gt found.positive]
  | block block =>
    obtain ⟨_, line, _, _, after, starts, source⟩ := exists_starts_at (mem_constructsFrom_block h)
    rcases starts.indented_or_fence with indented | ⟨mark, marks, fence⟩
    · exact .inl ⟨block, rfl, indented⟩
    · have inside : List.replicate 3 mark <:+: content := by
        refine (fence.trans (List.prefix_append line.text after).isInfix).trans ?_
        rw [← source]
        exact (List.drop_suffix _ _).isInfix
      simp only [isFenceMark, Bool.or_eq_true, beq_iff_eq] at marks
      rcases marks with rfl | rfl
      · exact .inr (.inl (inside.mem (by simp)))
      · exact .inr (.inr inside)

end

end BookHighlight.Markdown
