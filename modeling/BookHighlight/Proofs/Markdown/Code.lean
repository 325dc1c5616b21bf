import BookHighlight.Proofs.Markdown.Opened
import BookHighlight.Proofs.Text.Feed

namespace BookHighlight.Markdown

open Text (BrokenLine brokenLines brokenLines_split withFeeds normalizeBreaks isOddBreak)

theorem linesFrom_append (offset : Nat) (a b : List BrokenLine) :
    linesFrom offset (a ++ b) = linesFrom offset a ++
      linesFrom (offset + (a.flatMap fun line => line.body ++ line.ending).length) b := by
  induction a generalizing offset with
  | nil => rfl
  | cons line a ih =>
    rw [List.cons_append, linesFrom, linesFrom, ih, List.flatMap_cons, List.length_append,
      List.length_append, List.cons_append, Nat.add_assoc, Nat.add_assoc, Nat.add_assoc]

theorem start_of_linesFrom {offset : Nat} {ls : List BrokenLine} {first : Line} {rest : List Line}
    (h : linesFrom offset ls = first :: rest) : first.start = offset := by
  cases ls with
  | nil => cases h
  | cons line ls =>
    cases h
    rfl

theorem linesFrom_split {offset : Nat} {s : List Char} {front back : List Line}
    (h : linesFrom offset (brokenLines s) = front ++ back) :
    ∃ a b, s = a ++ b ∧ brokenLines s = brokenLines a ++ brokenLines b ∧
      linesFrom offset (brokenLines a) = front ∧
      linesFrom (offset + a.length) (brokenLines b) = back := by
  have count := congrArg List.length h
  rw [length_linesFrom, List.length_append] at count
  have parted := List.take_append_drop front.length (brokenLines s)
  obtain ⟨a, b, rfl, first, second⟩ := brokenLines_split parted.symm
  have broken : brokenLines (a ++ b) = brokenLines a ++ brokenLines b := by
    rw [first, second, parted]
  rw [broken, linesFrom_append, Text.flatMap_brokenLines] at h
  have length : (linesFrom offset (brokenLines a)).length = front.length := by
    rw [length_linesFrom, first, List.length_take]
    omega
  obtain ⟨before, behind⟩ := List.append_inj h length
  exact ⟨a, b, rfl, broken, before, behind⟩

theorem map_text_linesFrom (offset : Nat) (ls : List BrokenLine) :
    (linesFrom offset ls).map (·.text) = ls.map lineText := by
  induction ls generalizing offset with
  | nil => rfl
  | cons line ls ih => rw [linesFrom, List.map_cons, List.map_cons, ih]

theorem ending_ne_nil {front back : List BrokenLine} (cut : Text.Cut (front ++ back))
    (some : back ≠ []) : ∀ line ∈ front, line.ending ≠ [] := by
  induction front with
  | nil => simp
  | cons line front ih =>
    obtain ⟨_, ending, later⟩ := cut
    refine List.forall_mem_cons.mpr ⟨?_, ih later⟩
    rcases ending with crlf | ⟨c, _, single⟩ | ⟨_, _, last⟩
    · simp [crlf]
    · simp [single]
    · exact absurd (List.append_eq_nil_iff.mp last).2 some

theorem lineText_cons (c : Char) (line : BrokenLine) :
    lineText { line with body := c :: line.body } = c :: lineText line := by
  unfold lineText
  split <;> rfl

theorem lineText_odd {c : Char} (odd : isOddBreak c = true) : lineText ⟨[], [c]⟩ = [c] := by
  simp only [isOddBreak, Bool.and_eq_true, bne_iff_ne] at odd
  simp [lineText, odd]

theorem joinLines_brokenLines {s : List Char} (ended : ∀ line ∈ brokenLines s, line.ending ≠ []) :
    joinLines ((brokenLines s).map lineText) = withFeeds s := by
  fun_induction brokenLines s with
  | case1 => rfl
  | case2 rest ih =>
    rw [withFeeds, ← ih (List.forall_mem_cons.mp ended).2]
    rfl
  | case3 c rest apart ends ih =>
    rw [withFeeds, ← ih (List.forall_mem_cons.mp ended).2, List.map_cons]
    · split
      · rename_i odd
        rw [lineText_odd odd]
        rfl
      · rename_i even
        rcases Text.isOddBreak_false_iff.mp (eq_false_of_ne_true even) ends with rfl | rfl <;> rfl
    · exact apart
  | case4 => exact absurd rfl (ended _ (List.mem_singleton.mpr rfl))
  | case5 c rest apart inner line lines more ih =>
    rw [more] at ih
    have later := ih (by simpa using ended)
    have even : isOddBreak c = false := Text.isOddBreak_false_iff.mpr fun ends => absurd ends inner
    have other : c ≠ '\r' := by
      rintro rfl
      exact inner rfl
    rw [withFeeds, ← later, even, List.map_cons, lineText_cons]
    · simp [joinLines, other]
    · exact apart

theorem joinLines_slice {content : List Char} {front more body after : List Line}
    {second last : Line} (whole : lines content = front ++ second :: more)
    (parted : second :: more = body ++ last :: after) :
    joinLines (body.map (·.text)) = withFeeds (slice content second.start last.start) := by
  obtain ⟨x, y, rfl, _, _, later⟩ := linesFrom_split whole
  have start := start_of_linesFrom later
  rw [parted] at later
  obtain ⟨p, q, rfl, broken, rfl, rest⟩ := linesFrom_split later
  have stop := start_of_linesFrom rest
  have source : slice (x ++ (p ++ q)) second.start last.start = p := by
    rw [slice, start, stop, Nat.add_sub_cancel_left, Nat.zero_add, List.drop_left, List.take_left]
  rw [source, map_text_linesFrom]
  apply joinLines_brokenLines
  -- the lines joined are followed by the last one, so each of them has its break
  have cut := Text.cut_brokenLines (p ++ q)
  rw [broken] at cut
  refine ending_ne_nil cut fun none => ?_
  rw [none] at rest
  cases rest

/-- Outside all containers the lines of a fenced block stand as they are. -/
theorem fencedLines_bare {fence : Fence} {rest : List Line} {closing : Line}
    (member : closing ∈ rest) (closes : fence.closedBy closing.text = true) :
    ∃ body last after, rest = body ++ last :: after ∧ fence.closedBy last.text = true ∧
      fencedLines [] [] fence rest = (body.map fun line => (line, line.text), some last) := by
  induction rest with
  | nil => cases member
  | cons line rest ih =>
    have continues : line.continues [] = true := by simp [Line.continues]
    have step : fencedLines [] [] fence (line :: rest) =
        if fence.closedBy line.text = true then ([], some line)
        else ((line, line.text) :: (fencedLines [] [] fence rest).1,
          (fencedLines [] [] fence rest).2) := if_pos continues
    by_cases here : fence.closedBy line.text = true
    · exact ⟨[], line, rest, rfl, here, by rw [step, if_pos here]; rfl⟩
    · have later : closing ∈ rest := by
        refine (List.mem_cons.mp member).resolve_left ?_
        rintro rfl
        exact here closes
      obtain ⟨body, last, after, rfl, ends, found⟩ := ih later
      refine ⟨line :: body, last, after, rfl, ends, ?_⟩
      rw [step, if_neg here, found]
      rfl

/-- A fenced block outside all containers with the line after its first, where its code starts, and
    the line that closes its fence. -/
structure Block.ClosedBy (content : List Char) (block : Block) (fence : Fence)
    (first second closing : Line) : Prop where
  top : block.lead = []
  adjacent : [first, second] <:+: lines content
  closing_mem : closing ∈ lines content
  after : first.start < closing.start
  start_eq : block.start = first.start
  stop_eq : block.stop = closing.stop
  opens : ∃ info, Fence.ofText? first.text = some (fence, info)
  closes : fence.closedBy closing.text = true

theorem Fence.Proper.closing_ne_nil {fence : Fence} (proper : fence.Proper) {text : List Char}
    (closes : fence.closedBy text = true) : text ≠ [] :=
  List.ne_nil_of_mem (proper.mark_mem closes)

section

variable {content : List Char} {block : Block} {s : BlockState} {line : Line} {rest : List Line}
  {opening : Opening}

theorem Opens.bare (h : Opens content block s line rest opening) (top : block.lead = []) :
    (s.split line).1 = [] ∧ opening.container = [] ∧ opening.indent = [] ∧
      Fence.ofText? line.text = some (opening.fence, opening.info) := by
  rw [h.lead_eq] at top
  obtain ⟨top, indent⟩ := List.append_eq_nil_iff.mp top
  obtain ⟨split, container⟩ := List.append_eq_nil_iff.mp top
  have reached : s.columns line ≤ columnFrom 0 (s.split line).1 :=
    splitColumnsFrom_reaches line.text (Nat.min_le_right ..)
  rw [split] at reached
  have whole : (s.split line).2 = line.text := by
    rw [BlockState.split, Nat.le_zero.mp reached, splitColumns_zero]
  have opens := h.opens
  rw [whole] at opens
  exact ⟨split, container, indent, (openingFrom_container opens).2 container indent⟩

theorem Opens.exists_body (h : Opens content block s line rest opening) {fence : Fence}
    {second closing : Line} (closed : block.ClosedBy content fence line second closing) :
    ∃ body after, rest = body ++ closing :: after ∧
      block.code = joinLines (body.map (·.text)) := by
  obtain ⟨split, container, indent, fenced⟩ := h.bare closed.top
  have same : fence = opening.fence := by
    obtain ⟨info, opens⟩ := closed.opens
    cases opens.symm.trans fenced
    rfl
  subst same
  obtain ⟨body, last, after, parted, ends, found⟩ :=
    fencedLines_bare (h.mem_rest closed.closing_mem closed.after) closed.closes
  have read : readLines (s.split line).1 opening rest =
      (body.map fun line => (line, line.text), some last) := by
    rw [readLines, containerOf, split, container, indent]
    exact found
  have block_eq := h.block_eq
  rw [fencedBlock_closed read] at block_eq
  -- the fence is closed by the first line that can, and no other line ends where the block does
  have same : last = closing := by
    have member : last ∈ line :: rest := by rw [parted]; simp
    refine (lined_lines content).eq_of_stop (h.reads.suffix.mem member) closed.closing_mem
      (h.proper.closing_ne_nil ends) (h.proper.closing_ne_nil closed.closes) ?_
    rw [← closed.stop_eq, block_eq]
  subst same
  refine ⟨body, after, parted, ?_⟩
  rw [block_eq]
  change joinLines ((body.map fun line => (line, line.text)).map (·.2)) = _
  rw [List.map_map]
  rfl

theorem Opens.code_eq (h : Opens content block s line rest opening) {fence : Fence}
    {first second closing : Line} (closed : block.ClosedBy content fence first second closing) :
    block.code = withFeeds (slice content second.start closing.start) := by
  have lined := lined_lines content
  have same : first = line :=
    lined.eq_of_start (closed.adjacent.mem (by simp)) h.line_mem
      (closed.start_eq.symm.trans h.start_eq)
  subst same
  obtain ⟨body, after, parted, code⟩ := h.exists_body closed
  obtain ⟨next, more, following⟩ : ∃ next more, rest = next :: more := by
    apply List.exists_cons_of_ne_nil
    simp [parted]
  obtain ⟨front, whole⟩ := h.reads.suffix
  rw [following] at whole
  have same : second = next :=
    lined.next_eq closed.adjacent ⟨front, more, by rw [← whole]; simp⟩
  subst same
  have whole : lines content = (front ++ [first]) ++ second :: more := by rw [← whole]; simp
  rw [code]
  exact joinLines_slice whole (following.symm.trans parted)

end

/-- The code of a closed block outside all containers is what stands between its fences, with its
    lines ended by LFs. It differs from that text with its breaks read as LFs just where this holds
    an odd break, behind which an LF is added. -/
theorem fence_code {content : List Char} {block : Block} {info : List Char} {tag : Option Tag}
    {fence : Fence} {first second closing : Line} (member : .block block ∈ constructs content)
    (fenced : block.kind = .fenced info tag)
    (closed : block.ClosedBy content fence first second closing) :
    let source := slice content second.start closing.start
    block.code = withFeeds source ∧
      block.code.length = (normalizeBreaks source).length + source.countP isOddBreak ∧
      (block.code = normalizeBreaks source ↔ ∀ c ∈ source, isOddBreak c = false) := by
  intro source
  obtain ⟨s, line, rest, opening, opens⟩ := exists_opens member fenced
  have code : block.code = withFeeds source := opens.code_eq closed
  rw [code]
  exact ⟨rfl, Text.length_withFeeds source, Text.withFeeds_eq_normalizeBreaks_iff source⟩

theorem fence_code_crlf :
    let content := "x\r\n\r\n```typ\r\n#a\r  #b\r\n~~~\r\n````\n".toList
    let block : Block := ⟨.fenced "typ".toList (Tag.ofInfo? "typ".toList), 5, 31,
      "#a\n  #b\n~~~\n".toList, []⟩
    let source := slice content 13 27
    .block block ∈ constructs content ∧
      block.kind = .fenced "typ".toList (Tag.ofInfo? "typ".toList) ∧
      block.ClosedBy content ⟨'`', 3⟩ ⟨5, 11, "```typ".toList⟩ ⟨13, 15, "#a".toList⟩
        ⟨27, 31, "````".toList⟩ ∧
      block.code = withFeeds source ∧
      block.code.length = (normalizeBreaks source).length + source.countP isOddBreak ∧
      (block.code = normalizeBreaks source ↔ ∀ c ∈ source, isOddBreak c = false) := by
  intro content block source
  have member : .block block ∈ constructs content := by decide
  have closed : block.ClosedBy content ⟨'`', 3⟩ ⟨5, 11, "```typ".toList⟩ ⟨13, 15, "#a".toList⟩
      ⟨27, 31, "````".toList⟩ :=
    ⟨rfl, ⟨(lines content).take 2, (lines content).drop 4, by decide⟩, by decide, by decide, rfl,
      rfl, ⟨"typ".toList, by decide⟩, by decide⟩
  exact ⟨member, rfl, closed, fence_code member rfl closed⟩

/-- A vertical tab ends a line for the scanner, and stays with an LF added. -/
theorem feed_after_vertical_tab : ¬ ∀ content block info tag fence first second closing,
    .block block ∈ constructs content → block.kind = .fenced info tag →
    block.ClosedBy content fence first second closing →
    block.code = normalizeBreaks (slice content second.start closing.start) := by
  intro always
  let content := "```\na\x0bb\n```".toList
  let block : Block := ⟨.fenced [] none, 0, 11, "a\x0b\nb\n".toList, []⟩
  have member : .block block ∈ constructs content := by decide
  have closed : block.ClosedBy content ⟨'`', 3⟩ ⟨0, 3, "```".toList⟩ ⟨4, 6, "a\x0b".toList⟩
      ⟨8, 11, "```".toList⟩ :=
    ⟨rfl, ⟨[], (lines content).drop 2, by decide⟩, by decide, by decide, rfl, rfl,
      ⟨[], by decide⟩, by decide⟩
  exact absurd (always _ _ _ _ _ _ _ _ member rfl closed) (by decide)

end BookHighlight.Markdown
