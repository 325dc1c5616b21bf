import BookHighlight.Proofs.Markdown.Mark

namespace BookHighlight.Markdown

def IsLineEnd (s : List Char) : Prop := s = ['\n'] ∨ s = ['\r'] ∨ s = ['\r', '\n']

structure LineWithin (text above line below : List Char) : Prop where
  inside : above ++ line ++ below <:+: text
  above_ends : IsLineEnd above
  below_ends : IsLineEnd below
  /-- the two characters of a CRLF are not parted -/
  apart : above = ['\r'] → (line ++ below).head? ≠ some '\n'
  one : '\n' ∉ line ∧ '\r' ∉ line

section

variable {text blank : List Char}

theorem head?_dropWhile_of_prefix (indents : blank.all isIndentation = true)
    (front : blank ++ ['\n'] <+: text) :
    (text.dropWhile fun c => c == ' ' || c == '\t').head? = some '\n' := by
  obtain ⟨more, rfl⟩ := front
  have each : ∀ c ∈ blank, (c == ' ' || c == '\t') = true := List.all_eq_true.mp indents
  rw [List.append_assoc, List.dropWhile_append_of_pos each]
  rfl

theorem prefix_beforeBlankLine (text : List Char) : beforeBlankLine text <+: text := by
  obtain ⟨later, whole, _⟩ := exists_append_beforeBlankLine text
  exact ⟨later, whole⟩

theorem not_infix_beforeBlankLine (indents : blank.all isIndentation = true) :
    ¬ '\n' :: (blank ++ ['\n']) <:+: beforeBlankLine text := by
  induction text with
  | nil =>
    intro inside
    simp [beforeBlankLine] at inside
  | cons c rest ih =>
    intro inside
    unfold beforeBlankLine at inside
    split at inside
    · simp at inside
    · rename_i other
      rcases List.infix_cons_iff.mp inside with front | later
      · obtain ⟨same, front⟩ := List.cons_prefix_cons.mp front
        have next := head?_dropWhile_of_prefix indents (front.trans (prefix_beforeBlankLine rest))
        exact other ⟨same.symm, next⟩
      · exact ih later

end

/-- The source of a span is its code between two delimiters, and no blank line lies before its
    end. -/
theorem exists_source {content : List Char} {span : Span}
    (h : .span span ∈ constructs content) : ∃ width middle after,
      slice content span.start span.stop = ticks width ++ (middle ++ ticks width) ∧
      middle ++ ticks width <+: beforeBlankLine (middle ++ ticks width ++ after) := by
  obtain ⟨stretch, inside, member⟩ := mem_constructsFrom_span.mp h
  have fits := ((laid_blocks content).stretches.1 stretch inside).2
  have walk : Walks stretch.start (stretch.text content) _ := walks_spansFrom 0 stretch.start _
  obtain ⟨before, middle, after, width, found, unbroken⟩ := walk.encloses_unbroken span member
  refine ⟨width, middle, after, ?_, unbroken⟩
  have split : content.drop stretch.start = before ++ (ticks width ++ (middle ++ ticks width)) ++
      (after ++ content.drop stretch.stop) := by
    rw [← slice_append_drop fits.ordered, ← Stretch.text, found.whole]
    simp
  have length : span.stop - span.start = (ticks width ++ (middle ++ ticks width)).length := by
    rw [found.stop_eq]
    simp only [List.length_append, ticks, List.length_replicate]
    omega
  rw [slice, found.start_eq, ← List.drop_drop, split, List.append_assoc, List.drop_left' rfl,
    ← found.start_eq, length, List.take_left' rfl]

namespace LineWithin

variable {text above line below : List Char}

/-- A line without a CR beside it stands between two LFs. -/
theorem infix_feeds (h : LineWithin text above line below) (other : above ≠ ['\r'])
    (next : below.head? ≠ some '\r') : '\n' :: (line ++ ['\n']) <:+: text := by
  have below_eq : below = ['\n'] := by
    rcases h.below_ends with lf | cr | crlf
    · exact lf
    · exact absurd (by rw [cr]; rfl) next
    · exact absurd (by rw [crlf]; rfl) next
  have feeds : '\n' :: (line ++ ['\n']) <:+: above ++ line ++ below := by
    rw [below_eq, List.append_assoc]
    rcases h.above_ends with lf | cr | crlf
    · rw [lf]
      exact List.infix_refl _
    · exact absurd cr other
    · rw [crlf]
      exact List.infix_cons (List.infix_refl _)
  exact feeds.trans h.inside

theorem cr_mem (h : LineWithin text above line below)
    (beside : above = ['\r'] ∨ below.head? = some '\r') : '\r' ∈ text := by
  apply h.inside.mem
  rcases beside with cr | cr
  · simp [cr]
  · simp [List.mem_of_mem_head? cr]

end LineWithin

theorem not_infix_source {width : Nat} {middle after line : List Char}
    (unbroken : middle ++ ticks width <+: beforeBlankLine (middle ++ ticks width ++ after))
    (indents : line.all isIndentation = true) :
    ¬ '\n' :: (line ++ ['\n']) <:+: ticks width ++ (middle ++ ticks width) := by
  intro inside
  -- no tick is in the blank line, so all of it lies behind the opening delimiter
  have behind : '\n' :: (line ++ ['\n']) <:+: middle ++ ticks width := by
    refine infix_of_infix_append inside fun c tick member => ?_
    rw [List.eq_of_mem_replicate tick, List.mem_cons, List.mem_append, List.mem_singleton]
      at member
    have indent : '`' ∈ line := by simpa using member
    exact absurd (List.all_eq_true.mp indents '`' indent) (by decide)
  exact not_infix_beforeBlankLine indents (behind.trans unbroken.isInfix)

/-- A blank line inside a span has a CR beside it: a span ends before any blank line that stands
    between two LFs. -/
theorem span_blank_lines {content : List Char} {span : Span}
    (h : .span span ∈ constructs content) :
    (∀ above line below, LineWithin (slice content span.start span.stop) above line below →
      line.all isIndentation = true → above = ['\r'] ∨ below.head? = some '\r') ∧
    ('\r' ∉ slice content span.start span.stop → ∀ above line below,
      LineWithin (slice content span.start span.stop) above line below →
      line.all isIndentation = false) := by
  obtain ⟨width, middle, after, source, unbroken⟩ := exists_source h
  rw [source]
  have beside : ∀ above line below,
      LineWithin (ticks width ++ (middle ++ ticks width)) above line below →
      line.all isIndentation = true → above = ['\r'] ∨ below.head? = some '\r' := by
    intro above line below within indents
    by_contra none
    obtain ⟨other, next⟩ := not_or.mp none
    exact not_infix_source unbroken indents (within.infix_feeds other next)
  refine ⟨beside, fun clean above line below within => ?_⟩
  rw [Bool.eq_false_iff]
  intro indents
  exact clean (within.cr_mem (beside above line below within indents))

theorem span_blank_lines_second_paragraph :
    let content := "A `b\n \t\nand `c\n d`.\n".toList
    constructs content = [.span ⟨12, 18, "c  d".toList⟩] ∧
      ∀ above line below, LineWithin "`c\n d`".toList above line below →
        line.all isIndentation = false := by
  intro content
  have found : constructs content = [.span ⟨12, 18, "c  d".toList⟩] := by decide
  have member : .span ⟨12, 18, "c  d".toList⟩ ∈ constructs content := by simp [found]
  exact ⟨found, (span_blank_lines member).2 (by decide)⟩

/-- A blank line that CRLFs enclose does not end the paragraph for a span. -/
theorem crlf_blank_line_in_span :
    ¬ ∀ content span, .span span ∈ constructs content → ∀ above line below,
      LineWithin (slice content span.start span.stop) above line below →
      line.all isIndentation = false := by
  intro never
  have within : LineWithin "`a\r\n\r\nb`".toList ['\r', '\n'] [] ['\r', '\n'] := by
    refine ⟨⟨"`a".toList, "b`".toList, rfl⟩, .inr (.inr rfl), .inr (.inr rfl), ?_, by simp⟩
    simp
  have member : .span ⟨0, 8, "a  b".toList⟩ ∈ constructs "`a\r\n\r\nb`".toList := by decide
  have free := never _ _ member _ _ _ within
  cases free

end BookHighlight.Markdown
