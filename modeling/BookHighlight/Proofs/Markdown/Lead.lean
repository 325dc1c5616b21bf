import BookHighlight.Proofs.Markdown.Mark
import BookHighlight.Proofs.Markdown.Opened

namespace BookHighlight.Markdown

structure Block.LeadStands (content : List Char) (block : Block) : Prop where
  text : slice content block.start (block.start + block.lead.length) = block.lead
  fence : ∃ mark, isFenceMark mark = true ∧
    List.replicate 3 mark <+: content.drop (block.start + block.lead.length)

def BlockState.excess (s : BlockState) (line : Line) : Nat :=
  columnFrom 0 (s.split line).1 - s.columns line

theorem exists_marks {pad : Nat} {kept front more : List Char} {mark : Char} (other : mark ≠ ' ')
    (h : List.replicate pad ' ' ++ kept = front ++ mark :: more) : ∃ marks,
      front = List.replicate pad ' ' ++ marks ∧ kept = marks ++ mark :: more := by
  rcases List.append_eq_append_iff.mp h with ⟨marks, whole, rest⟩ | ⟨spaces, whole, rest⟩
  · exact ⟨marks, whole, rest⟩
  · cases spaces with
    | nil => exact ⟨[], by simpa using whole.symm, rest.symm⟩
    | cons c spaces =>
      have space : c = ' ' := List.eq_of_mem_replicate (n := pad) (by rw [whole]; simp)
      cases rest
      exact absurd space other

/-- How the lead of a fenced block comes from the text in front of its fence: the columns that a
    tab has in excess are in it twice, in the tab and as spaces, so that the lead ends as many
    columns to the right of the fence. -/
structure LeadSource (content : List Char) (block : Block) (s : BlockState) (line : Line) :
    Prop where
  source : ∃ marks, block.lead = (s.split line).1 ++ List.replicate (s.excess line) ' ' ++ marks ∧
    (∃ mark, isFenceMark mark = true ∧
      (s.split line).1 ++ marks ++ List.replicate 3 mark <+: content.drop block.start) ∧
    columnFrom 0 block.lead = columnFrom 0 ((s.split line).1 ++ marks) + s.excess line
  tab : 0 < s.excess line → '\t' ∈ block.lead ∧ s.excess line < 4
  stands : block.LeadStands content ↔ s.excess line = 0

namespace Opens

variable {content : List Char} {block : Block} {s : BlockState} {line : Line} {rest : List Line}
  {opening : Opening} (h : Opens content block s line rest opening)

include h

theorem exists_marks_source : ∃ marks more,
    opening.container ++ opening.indent = List.replicate (s.excess line) ' ' ++ marks ∧
      content.drop block.start =
        (s.split line).1 ++ marks ++ opening.fence.mark ::
          (List.replicate 2 opening.fence.mark ++ more) := by
  obtain ⟨after, source⟩ := h.source
  obtain ⟨kept, whole, split⟩ := splitColumnsFrom_excess (s.columns line) 0 line.text
  obtain ⟨run, long⟩ := h.proper.exists_run
  have opened := openingFrom_source h.opens
  change line.text = (s.split line).1 ++ kept at whole
  change (s.split line).2 = List.replicate (s.excess line) ' ' ++ kept at split
  rw [List.nil_append, split, long, List.append_assoc _ _ opening.info,
    List.replicate_succ, List.cons_append, List.cons_append] at opened
  have other : opening.fence.mark ≠ ' ' := by
    rcases h.proper.1 with mark | mark <;> rw [mark] <;> decide
  obtain ⟨marks, front, rest⟩ := exists_marks other opened
  refine ⟨marks, run ++ opening.info ++ after, front, ?_⟩
  rw [source]
  conv_lhs => rw [whole, rest]
  simp

theorem unmarked_lead : Unmarked block.lead := by
  rw [h.lead_eq, List.append_assoc]
  exact (unmarked_splitColumnsFrom _ _ _).append (unmarked_opening h.opens)

theorem leadSource : LeadSource content block s line := by
  obtain ⟨marks, more, front, source⟩ := h.exists_marks_source
  have mark := h.proper.isFenceMark
  have lead := h.lead_eq
  rw [List.append_assoc, front, ← List.append_assoc] at lead
  constructor
  · refine ⟨marks, lead, ⟨_, mark, more, by rw [source]; simp⟩, ?_⟩
    -- a fence's container and indent hold no tab, so behind the split columns are characters
    have noTab : '\t' ∉ List.replicate (s.excess line) ' ' ++ marks := by
      intro tab
      rw [← front] at tab
      exact absurd (openingFrom_chars h.opens (by simp) _ tab) (by decide)
    have after : '\t' ∉ marks := fun tab => noTab (List.mem_append_right _ tab)
    rw [lead, List.append_assoc, columnFrom_append, columnFrom_of_no_tab noTab, columnFrom_append,
      columnFrom_of_no_tab after, List.length_append, List.length_replicate]
    omega
  · intro beyond
    obtain ⟨last, near⟩ := splitColumnsFrom_tab (Nat.zero_le (s.columns line)) line.text
      (Nat.lt_of_sub_pos beyond)
    refine ⟨?_, Nat.sub_lt_left_of_lt_add (Nat.le_of_lt (Nat.lt_of_sub_pos beyond)) near⟩
    rw [lead]
    exact List.mem_append_left _ (List.mem_append_left _ (List.mem_of_getLast? last))
  · constructor
    · intro stands
      by_contra positive
      -- a lead with spaces in excess reaches over the fence, but holds no fence mark
      have long : ((s.split line).1 ++ marks).length < block.lead.length := by
        rw [lead]
        simp only [List.length_append, List.length_replicate]
        omega
      have within := List.take_append_drop block.lead.length (content.drop block.start)
      have start := stands.text
      rw [slice, Nat.add_sub_cancel_left] at start
      rw [start, source] at within
      exact h.unmarked_lead.not_append_mark mark long _ _ within.symm
    · intro none
      rw [none, List.replicate_zero, List.append_nil] at lead
      rw [← lead] at source
      constructor
      · rw [slice, Nat.add_sub_cancel_left, source, List.take_left' rfl]
      · refine ⟨_, mark, more, ?_⟩
        rw [← List.drop_drop, source, List.drop_left' rfl]
        rfl

end Opens

/-- The lead of a fenced block is the text in front of its fence, but for the columns that a split
    tab has in excess. So a lead without tabs always stands in the document. -/
theorem fence_leadSource {content : List Char} {block : Block} {info : List Char}
    {tag : Option Tag} (member : .block block ∈ constructs content)
    (fenced : block.kind = .fenced info tag) :
    (∃ s line rest opening, Opens content block s line rest opening ∧
      LeadSource content block s line) ∧
    ('\t' ∉ block.lead → block.LeadStands content) := by
  obtain ⟨s, line, rest, opening, opens⟩ := exists_opens member fenced
  have lead := opens.leadSource
  refine ⟨⟨s, line, rest, opening, opens, lead⟩, fun noTab => ?_⟩
  rw [lead.stands]
  by_contra positive
  exact noTab (lead.tab (Nat.pos_of_ne_zero positive)).1

theorem fence_leadSource_quoted :
    let content := "10. a\n\n\t> ~~~typ\n".toList
    let block : Block :=
      ⟨.fenced "typ".toList (Tag.ofInfo? "typ".toList), 7, 16, [], "\t> ".toList⟩
    .block block ∈ constructs content ∧
      block.kind = .fenced "typ".toList (Tag.ofInfo? "typ".toList) ∧
      (∃ s line rest opening, Opens content block s line rest opening ∧
        LeadSource content block s line) ∧
      ('\t' ∉ block.lead → block.LeadStands content) := by
  intro content block
  have member : .block block ∈ constructs content := by decide
  exact ⟨member, rfl, fence_leadSource member rfl⟩

/-- The content of the list item starts at the third column, in the middle of the tab, and the two
    columns of the tab behind it are added to the lead. -/
theorem split_tab_in_lead : ¬ ∀ content block info tag, .block block ∈ constructs content →
    block.kind = .fenced info tag → block.LeadStands content := by
  intro always
  let tag := Tag.ofInfo? "typ".toList
  let block : Block := ⟨.fenced "typ".toList tag, 5, 12, [], "\t  ".toList⟩
  have member : .block block ∈ constructs "- a\n\n\t```typ\n".toList := by decide
  have stands := (always _ block _ _ member rfl).text
  exact absurd stands (by decide)

end BookHighlight.Markdown
