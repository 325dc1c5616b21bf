import BookHighlight.Proofs.Markdown.Margin

namespace BookHighlight.Markdown

def heading : List Char := "# H\n\n".toList

def headingLine (offset : Nat) : Line := ⟨offset, offset + 3, "# H".toList⟩

theorem linesFrom_move (offset shift : Nat) (broken : List Text.BrokenLine) :
    linesFrom (offset + shift) broken =
      (linesFrom offset broken).map (·.move (· + shift)) := by
  induction broken generalizing offset with
  | nil => rfl
  | cons line rest ih =>
    have next : offset + shift + line.body.length + line.ending.length =
        offset + line.body.length + line.ending.length + shift := by omega
    have stop : offset + shift + (lineText line).length =
        offset + (lineText line).length + shift := by omega
    rw [linesFrom, linesFrom, next, ih, stop]
    rfl

theorem lines_heading {above : List Char} (fed : Text.Fed above) (below : List Char) :
    lines (above ++ (heading ++ below)) = lines above ++ headingLine above.length ::
      ⟨above.length + 4, above.length + 4, []⟩ ::
        (lines below).map (·.move (· + (above.length + 5))) := by
  have first : Text.brokenLines (heading ++ below) =
      ⟨"# H".toList, ['\n']⟩ :: ⟨[], ['\n']⟩ :: Text.brokenLines below := by
    have heading_eq : heading ++ below = "# H".toList ++ '\n' :: ([] ++ '\n' :: below) := rfl
    have unbroken : Text.Unbroken "# H".toList := by decide
    have empty : Text.Unbroken [] := by decide
    rw [heading_eq, unbroken.brokenLines_lf, empty.brokenLines_lf]
  have moved := linesFrom_move 0 (above.length + 5) (Text.brokenLines below)
  rw [Nat.zero_add] at moved
  rw [lines, fed.brokenLines_append, linesFrom_append, Text.flatMap_brokenLines, Nat.zero_add,
    first]
  simp only [linesFrom]
  rw [lines, lines, ← moved]
  rfl

theorem stops_headingLine (offset : Nat) : (headingLine offset).Stops := by
  refine ⟨rfl, rfl, fun lead fence proper => ?_⟩
  rw [Bool.eq_false_iff]
  intro closes
  have mark : fence.mark ∈ "# H".toList :=
    (stripContainer_suffix lead _).mem (proper.mark_mem closes)
  rcases proper.1 with tick | tilde
  · rw [tick] at mark
    exact absurd mark (by decide)
  · rw [tilde] at mark
    exact absurd mark (by decide)

/-- The list items that a heading leaves open: all when it comes right under a line of a paragraph,
    and none otherwise. -/
def leftOpen (above : List Char) : List Nat :=
  if (stateAfter above).paragraph = true then (stateAfter above).items else []

theorem leftOpen_wide (above : List Char) : ∀ item ∈ leftOpen above, 2 ≤ item := by
  unfold leftOpen
  split
  · exact (reads_stateAfter above).items_wide
  · simp

theorem paragraph_stateFrom {skip : Nat} {s : BlockState} {ls : List Line} {last : Line}
    (ends : ls.getLast? = some last) (blank : last.isBlank = true) (inside : skip < ls.length) :
    (stateFrom skip s ls).paragraph = false := by
  fun_induction stateFrom skip s ls with
  | case1 => cases ends
  | case2 s skip line rest ih =>
    have few := Nat.lt_of_succ_lt_succ inside
    cases rest with
    | nil => cases few
    | cons next rest => exact ih (by rwa [List.getLast?_cons_cons] at ends) few
  | case3 s line rest s' block taken step ih =>
    have starts := step_starts step
    cases rest with
    | nil =>
      obtain rfl : line = last := by simpa using ends
      exact absurd (starts.nonblank.symm.trans blank) Bool.false_ne_true
    | cons next rest =>
      rw [List.getLast?_cons_cons] at ends
      apply ih ends
      apply Nat.lt_of_le_of_ne starts.taken_le
      -- a block ends with a line that is not blank, so it leaves the last one
      intro all
      have shown := starts.covers.last
      simp only at all shown
      rw [lastLine, all, List.take_length, List.getLastD_eq_getLast?, ends, Option.getD_some]
        at shown
      exact absurd (shown.symm.trans blank) Bool.false_ne_true
  | case4 s line rest s' step ih =>
    cases rest with
    | nil =>
      obtain rfl : line = last := by simpa using ends
      rw [BlockState.step_blank blank] at step
      cases step
      rfl
    | cons next rest =>
      rw [List.getLast?_cons_cons] at ends
      exact ih ends (Nat.zero_lt_succ _)

theorem leftOpen_of_blank {above : List Char}
    (blank : ∀ last ∈ (lines above).getLast?, last.isBlank = true) : leftOpen above = [] := by
  apply if_neg
  rw [Bool.not_eq_true]
  cases ends : (lines above).getLast? with
  | none =>
    rw [stateAfter, List.getLast?_eq_none_iff.mp ends]
    rfl
  | some last =>
    have some : 0 < (lines above).length := by
      apply List.length_pos_of_mem
      exact List.mem_of_getLast? ends
    exact paragraph_stateFrom ends (blank last ends) some

def blocksIn (items : List Nat) (content : List Char) : List Block :=
  blocksFrom 0 ⟨items, false, true⟩ (lines content)

def blocksBehind (offset : Nat) (content : List Char) : List Block :=
  (blocks content).filter (offset < ·.start)

theorem dropWhile_positive {items : List Nat} (wide : ∀ item ∈ items, 2 ≤ item) :
    items.dropWhile (0 < ·) = [] := by
  rw [List.dropWhile_eq_nil_iff]
  intro item member
  have := wide item member
  rw [decide_eq_true_eq]
  omega

theorem at_headingLine {s : BlockState} (wide : ∀ item ∈ s.items, 2 ≤ item)
    (idle : s.afterBlank = true → s.paragraph = false) (offset : Nat) :
    s.at (headingLine offset) =
      ⟨if s.paragraph = true then s.items else [], s.paragraph, false⟩ := by
  change (⟨if (s.paragraph && !s.afterBlank) = true then s.items else s.items.dropWhile (0 < ·),
    s.paragraph, false⟩ : BlockState) = _
  rw [dropWhile_positive wide]
  cases paragraph : s.paragraph with
  | false => rfl
  | true =>
    have behind : s.afterBlank = false := by
      rw [Bool.eq_false_iff]
      intro blank
      rw [idle blank] at paragraph
      cases paragraph
    rw [behind]
    rfl

theorem step_headingLine {s : BlockState} (wide : ∀ item ∈ s.items, 2 ≤ item)
    (idle : s.afterBlank = true → s.paragraph = false) (offset : Nat) (rest : List Line) :
    s.step (headingLine offset) rest =
      (⟨if s.paragraph = true then s.items else [], false, false⟩, none) := by
  have closed : Opening.ofText? (headingLine offset).text = none := by
    show Opening.ofText? "# H".toList = none
    decide
  have opened : s.opened (headingLine offset) = s.at (headingLine offset) := by
    rw [BlockState.opened, BlockState.split_of_flush rfl]
    rfl
  have step := @BlockState.step_flush s (headingLine offset) rfl rfl closed rest
  rw [step, opened, at_headingLine wide idle]
  rfl

theorem blocksFrom_heading {s : BlockState} (wide : ∀ item ∈ s.items, 2 ≤ item)
    (idle : s.afterBlank = true → s.paragraph = false) (offset : Nat) (rest : List Line) :
    blocksFrom 0 s (headingLine offset :: ⟨offset + 4, offset + 4, []⟩ :: rest) =
      blocksFrom 0 ⟨if s.paragraph = true then s.items else [], false, true⟩ rest := by
  rw [blocksFrom, step_headingLine wide idle]
  dsimp only
  rw [blocksFrom, BlockState.step_blank rfl]

/-- The blocks behind a heading are those of a document of its own, moved to where they lie, that
    is scanned inside the list items which the heading leaves open. -/
theorem blocks_heading {above : List Char} (fed : Text.Fed above) :
    (∀ below, ∃ block ∈ blocks (above ++ (heading ++ below)),
      block.Holds (headingLine above.length)) ∨
    ∀ below, blocks (above ++ (heading ++ below)) = blocks above ++
      (blocksIn (leftOpen above) below).map (·.move (· + (above.length + 5))) := by
  have reads := reads_stateAfter above
  rcases blocksFrom_cut (stops_headingLine above.length) .initial (Nat.zero_le (lines above).length)
    with holds | apart
  · left
    intro below
    have row := inRow_lines (above ++ (heading ++ below))
    rw [lines_heading fed] at row
    rw [blocks, lines_heading fed]
    exact holds _ row
  · right
    intro below
    have resumed := blocksFrom_heading reads.items_wide reads.idle above.length
      ((lines below).map (·.move (· + (above.length + 5))))
    rw [blocksFrom_move] at resumed
    rw [blocks, lines_heading fed, apart]
    exact congrArg (blocks above ++ ·) resumed

theorem blocksBehind_of_split {above below : List Char}
    (split : blocks (above ++ (heading ++ below)) = blocks above ++
      (blocksIn (leftOpen above) below).map (·.move (· + (above.length + 5)))) :
    blocksBehind above.length (above ++ (heading ++ below)) =
      (blocksIn (leftOpen above) below).map (·.move (· + (above.length + 5))) := by
  have before : (blocks above).filter (above.length < ·.start) = [] := by
    rw [List.filter_eq_nil_iff]
    intro block member
    have fits := blocks_fit above block member
    have nonempty := fits.nonempty
    have inside := fits.inside
    rw [decide_eq_true_eq]
    omega
  rw [blocksBehind, split, List.filter_append, before, List.nil_append, List.filter_eq_self]
  intro block member
  obtain ⟨source, _, rfl⟩ := List.mem_map.mp member
  rw [decide_eq_true_eq]
  change above.length < source.start + (above.length + 5)
  omega

theorem map_lead_blocksIn (items : List Nat) {width : Nat} (wide : items.headD 0 + 4 ≤ width) :
    (blocksIn items (List.replicate width ' ' ++ ['x', '\n'])).map (·.lead) =
      [List.replicate (items.headD 0) ' '] := by
  let text := List.replicate width ' ' ++ ['x']
  let line : Line := ⟨0, text.length, text⟩
  have unbroken : Text.Unbroken text := (Text.Unbroken.spaces width).append (by decide)
  have whole : lines (List.replicate width ' ' ++ ['x', '\n']) = [line] := by
    have content : List.replicate width ' ' ++ ['x', '\n'] = text ++ '\n' :: [] := by simp [text]
    rw [content, lines, unbroken.brokenLines_lf, Text.brokenLines, linesFrom]
    simp [linesFrom, lineText, line]
  have nonblank : line.isBlank = false :=
    List.all_eq_false.mpr ⟨'x', by simp [line, text], by decide⟩
  have indent : width ≤ indentWidth line.text := le_indentWidth_spaces width ['x']
  have step := BlockState.step_indented (s := ⟨items, false, true⟩) nonblank rfl
    (wide.trans indent) []
  rw [blocksIn, whole, blocksFrom, step]
  rfl

/-- What a document holds behind a heading is what it would hold on its own, but for the list items
    that the heading leaves open: the text in front of the heading makes no difference if and only
    if there are none, in particular if a blank line is above the heading. -/
theorem blocks_behind_heading {above below : List Char} (fed : Text.Fed above)
    (free : ∀ block ∈ blocks (above ++ (heading ++ below)),
      ¬ (block.start ≤ above.length ∧ above.length < block.stop)) :
    (∀ below, blocksBehind above.length (above ++ (heading ++ below)) =
      (blocksIn (leftOpen above) below).map (·.move (· + (above.length + 5)))) ∧
    ((∀ below, blocksBehind above.length (above ++ (heading ++ below)) =
      (blocks below).map (·.move (· + (above.length + 5)))) ↔ leftOpen above = []) ∧
    ((∀ last ∈ (lines above).getLast?, last.isBlank = true) → leftOpen above = []) := by
  have split : ∀ below, blocks (above ++ (heading ++ below)) = blocks above ++
      (blocksIn (leftOpen above) below).map (·.move (· + (above.length + 5))) := by
    rcases blocks_heading fed with holds | split
    · obtain ⟨block, member, start, stop⟩ := holds below
      have long : above.length < above.length + 3 := by omega
      exact absurd ⟨start, long.trans_le stop⟩ (free block member)
    · exact split
  have behind := fun below => blocksBehind_of_split (split below)
  refine ⟨behind, ⟨fun same => ?_, fun none below => ?_⟩, leftOpen_of_blank⟩
  · cases left : leftOpen above with
    | nil => rfl
    | cons item outer =>
      -- a line of code in the innermost item keeps its lead only inside the item
      have wide := leftOpen_wide above item (by simp [left])
      have code := same (List.replicate (item + 4) ' ' ++ ['x', '\n'])
      rw [behind, left] at code
      have leads := congrArg (List.map (·.lead)) code
      rw [List.map_map, List.map_map] at leads
      have inside := map_lead_blocksIn (item :: outer) (Nat.le_refl (item + 4))
      have outside := map_lead_blocksIn [] (Nat.le_add_left 4 item)
      have width := congrArg List.length (List.singleton_inj.mp
        ((inside.symm.trans leads).trans outside))
      simp only [List.headD_cons, List.headD_nil, List.length_replicate] at width
      omega
  · rw [behind, none]
    rfl

theorem blocks_behind_heading_fence :
    let above := "- a\n\n  ~~~\n  x\n".toList
    Text.Fed above ∧
      (∀ block ∈ blocks (above ++ (heading ++ "    y\n".toList)),
        ¬ (block.start ≤ above.length ∧ above.length < block.stop)) ∧
      leftOpen above = [] ∧
      ∀ below, blocksBehind above.length (above ++ (heading ++ below)) =
        (blocks below).map (·.move (· + (above.length + 5))) := by
  intro above
  have fed : Text.Fed above := .inr (by decide)
  have free : ∀ block ∈ blocks (above ++ (heading ++ "    y\n".toList)),
      ¬ (block.start ≤ above.length ∧ above.length < block.stop) := by decide
  have closed : leftOpen above = [] := by decide
  exact ⟨fed, free, closed, (blocks_behind_heading fed free).2.1.mpr closed⟩

/-- A heading right under the text of a list item leaves the item open. -/
theorem heading_under_item_text : ¬ ∀ above below, Text.Fed above →
    (∀ block ∈ blocks (above ++ (heading ++ below)),
      ¬ (block.start ≤ above.length ∧ above.length < block.stop)) →
    blocksBehind above.length (above ++ (heading ++ below)) =
      (blocks below).map (·.move (· + (above.length + 5))) := by
  intro always
  have same := always "- a\n".toList "    x\n".toList (.inr (by decide)) (by decide)
  exact absurd same (by decide)

end BookHighlight.Markdown
