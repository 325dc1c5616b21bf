import BookHighlight.Proofs.Markdown.Move

namespace BookHighlight

namespace Text

def withReturns (s : List Char) : List Char :=
  s.flatMap fun c => if c = '\n' then ['\r', '\n'] else [c]

def BrokenLine.withReturn (line : BrokenLine) : BrokenLine :=
  if line.ending = ['\n'] then { line with ending := ['\r', '\n'] } else line

theorem withReturns_lf (s : List Char) :
    withReturns ('\n' :: s) = '\r' :: '\n' :: withReturns s := rfl

theorem withReturns_cons {c : Char} (other : c ≠ '\n') (s : List Char) :
    withReturns (c :: s) = c :: withReturns s := by
  rw [withReturns, List.flatMap_cons, if_neg other]
  rfl

theorem brokenLines_break {c : Char} (ends : isLineBreak c = true) (other : c ≠ '\r')
    (s : List Char) : brokenLines (c :: s) = ⟨[], [c]⟩ :: brokenLines s := by
  rw [brokenLines]
  · exact if_pos ends
  · intro more cr
    exact absurd cr other

theorem brokenLines_withReturns {s : List Char} (plain : '\r' ∉ s) :
    brokenLines (withReturns s) = (brokenLines s).map BrokenLine.withReturn := by
  induction s with
  | nil => rfl
  | cons c s ih =>
    obtain ⟨other, later⟩ := not_or.mp (mt List.mem_cons.mpr plain)
    by_cases lf : c = '\n'
    · rw [lf, withReturns_lf, brokenLines, ih later, brokenLines_break (by decide) (by decide)]
      rfl
    · rw [withReturns_cons lf]
      by_cases ends : isLineBreak c = true
      · have kept : BrokenLine.withReturn ⟨[], [c]⟩ = ⟨[], [c]⟩ := if_neg (by simpa using lf)
        rw [brokenLines_break ends (Ne.symm other), brokenLines_break ends (Ne.symm other),
          ih later, List.map_cons, kept]
      · have inner : isLineBreak c = false := eq_false_of_ne_true ends
        rw [brokenLines_cons inner, brokenLines_cons inner, ih later]
        cases brokenLines s with
        | nil => rfl
        | cons line lines =>
          by_cases fed : line.ending = ['\n'] <;> simp [BrokenLine.withReturn, fed]

end Text

namespace Markdown

open Text (BrokenLine brokenLines withReturns)

def pastReturns (content : List Char) (offset : Nat) : Nat :=
  offset + (content.take offset).count '\n'

theorem pastReturns_append (front text after : List Char) :
    pastReturns (front ++ (text ++ after)) (front.length + text.length) =
      pastReturns (front ++ (text ++ after)) front.length + text.length + text.count '\n' := by
  unfold pastReturns
  rw [List.take_length_add_append, List.take_left, List.take_left, List.count_append]
  omega

theorem lineText_withReturn (line : BrokenLine) : lineText line.withReturn = lineText line := by
  unfold BrokenLine.withReturn
  split
  · rename_i lf
    rw [lineText, lineText, if_pos (.inr (.inr rfl)), if_pos (.inl lf)]
  · rfl

theorem length_withReturn {line : BrokenLine} (inner : '\n' ∉ line.body)
    (single : line.ending.length ≤ 1) :
    line.withReturn.body.length + line.withReturn.ending.length =
      (line.body ++ line.ending).length + (line.body ++ line.ending).count '\n' := by
  rw [List.length_append, List.count_append, List.count_eq_zero.mpr inner]
  unfold BrokenLine.withReturn
  split
  · rename_i lf
    rw [lf]
    rfl
  · rename_i other
    have none : line.ending.count '\n' = 0 := by
      refine List.count_eq_zero.mpr fun member => other ?_
      match kept : line.ending with
      | [] => simp [kept] at member
      | [c] =>
        rw [kept, List.mem_singleton] at member
        rw [member]
      | c :: d :: more => simp [kept] at single
    omega

theorem linesFrom_withReturn (front : List Char) {broken : List BrokenLine}
    (cut : Text.Cut broken) (plain : ∀ line ∈ broken, '\r' ∉ line.ending) :
    let content := front ++ broken.flatMap fun line => line.body ++ line.ending
    linesFrom (pastReturns content front.length) (broken.map BrokenLine.withReturn) =
      (linesFrom front.length broken).map (·.move (pastReturns content)) := by
  induction broken generalizing front with
  | nil => rfl
  | cons line rest ih =>
    intro content
    obtain ⟨body, ending, later⟩ := cut
    obtain ⟨noReturn, laterPlain⟩ := List.forall_mem_cons.mp plain
    have single : line.ending.length ≤ 1 := by
      rcases ending with crlf | ⟨c, _, one⟩ | ⟨none, _⟩
      · simp [crlf] at noReturn
      · simp [one]
      · simp [none]
    have inner : '\n' ∉ lineText line := lf_not_mem_lineText body (.inl single)
    have innerBody : '\n' ∉ line.body := fun member => absurd (body _ member) (by decide)
    let whole := line.body ++ line.ending
    have source : content = front ++ (whole ++ rest.flatMap fun line => line.body ++ line.ending) :=
      rfl
    have stop : pastReturns content front.length + (lineText line).length =
        pastReturns content (front.length + (lineText line).length) := by
      have textSource : content = front ++ (lineText line ++
          (gap line ++ rest.flatMap fun line => line.body ++ line.ending)) := by
        rw [source, ← List.append_assoc (lineText line), lineText_append_gap]
      rw [textSource, pastReturns_append, List.count_eq_zero.mpr inner, Nat.add_zero]
    have next : pastReturns content front.length + line.withReturn.body.length +
        line.withReturn.ending.length = pastReturns content (front ++ whole).length := by
      have length := length_withReturn innerBody single
      rw [source, List.length_append, pastReturns_append, Nat.add_assoc, length, Nat.add_assoc]
    have tail := ih (front ++ whole) later laterPlain
    rw [List.append_assoc] at tail
    rw [List.map_cons, linesFrom, linesFrom, List.map_cons, lineText_withReturn, stop, next]
    have offset : front.length + line.body.length + line.ending.length =
        (front ++ whole).length := by simp [whole, Nat.add_assoc]
    rw [offset]
    exact congrArg _ tail

/-- Lines that end in CRLF lie where those that end in LF lie, moved by the LFs in front. -/
theorem lines_withReturns {content : List Char} (plain : '\r' ∉ content) :
    lines (withReturns content) = (lines content).map (·.move (pastReturns content)) := by
  have source := Text.flatMap_brokenLines content
  have noReturn : ∀ line ∈ brokenLines content, '\r' ∉ line.ending := by
    intro line member cr
    apply plain
    rw [← source]
    exact List.mem_flatMap.mpr ⟨line, member, List.mem_append_right _ cr⟩
  have moved := linesFrom_withReturn [] (Text.cut_brokenLines content) noReturn
  rw [List.nil_append, source] at moved
  rw [lines, Text.brokenLines_withReturns plain]
  exact moved

/-- The blocks of a document do not depend on whether its lines end in LF or in CRLF: they are the
    same, each moved by the LFs in front of its two ends. -/
theorem blocks_withReturns {content : List Char} (plain : '\r' ∉ content) :
    blocks (withReturns content) = (blocks content).map (·.move (pastReturns content)) := by
  rw [blocks, lines_withReturns plain]
  exact blocksFrom_move (pastReturns content) 0 .initial (lines content)

theorem blocks_withReturns_mixed :
    let content := "- a\n  ```typ\n  #a\n\n  b\x0b\n  ```\n\n# H\n    c\n\n    d\n".toList
    '\r' ∉ content ∧ (blocks content).length = 2 ∧
      blocks (withReturns content) = (blocks content).map (·.move (pastReturns content)) := by
  intro content
  have plain : '\r' ∉ content := by decide
  exact ⟨plain, by decide, blocks_withReturns plain⟩

end Markdown

end BookHighlight
