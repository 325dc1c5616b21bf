import BookHighlight.Proofs.Markdown.Construct

namespace BookHighlight.Markdown

inductive Reads (content : List Char) : BlockState → List Line → Prop where
  | start : Reads content .initial (lines content)
  | pass {s s' line rest} :
      Reads content s (line :: rest) → s.step line rest = (s', none) → Reads content s' rest
  | found {s s' line rest block taken} : Reads content s (line :: rest) →
      s.step line rest = (s', some (block, taken)) → Reads content s' (rest.drop taken)

theorem Reads.suffix {content : List Char} {s : BlockState} {ls : List Line}
    (h : Reads content s ls) : ls <:+ lines content := by
  induction h with
  | start => exact List.suffix_refl _
  | pass _ _ ih => exact (List.suffix_cons _ _).trans ih
  | found _ _ ih => exact ((List.drop_suffix _ _).trans (List.suffix_cons _ _)).trans ih

theorem Scans.exists_step {content : List Char} {s : BlockState} {ls : List Line}
    {found : List Block} (h : Scans s ls found) (reads : Reads content s ls) :
    ∀ block ∈ found, ∃ s line rest s' taken,
      Reads content s (line :: rest) ∧ s.step line rest = (s', some (block, taken)) := by
  induction h with
  | done => simp
  | pass step _ ih => exact ih (reads.pass step)
  | @found s s' line rest block taken _ step _ ih =>
    exact List.forall_mem_cons.mpr ⟨⟨s, line, rest, s', taken, reads, step⟩, ih (reads.found step)⟩

def BlockState.split (s : BlockState) (line : Line) : List Char × List Char :=
  splitColumns (s.columns line) line.text

structure Opens (content : List Char) (block : Block) (s : BlockState) (line : Line)
    (rest : List Line) (opening : Opening) : Prop where
  reads : Reads content s (line :: rest)
  nonblank : line.isBlank = false
  opens : Opening.ofText? (s.split line).2 = some opening
  block_eq : block = (fencedBlock (s.split line).1 opening line rest).1

theorem exists_opens {content : List Char} {block : Block} {info : List Char} {tag : Option Tag}
    (member : .block block ∈ constructs content) (fenced : block.kind = .fenced info tag) :
    ∃ s line rest opening, Opens content block s line rest opening := by
  obtain ⟨s, line, rest, _, taken, reads, step⟩ :=
    (scans_blocks content).exists_step .start block (mem_constructsFrom_block member)
  have starts := step_starts step
  generalize found : (block, taken) = both at starts
  cases starts with
  | indented =>
    have same := congrArg (·.1.kind) found
    rw [fenced] at same
    cases same
  | @fenced opening nonblank opens =>
    exact ⟨s, line, rest, opening, reads, nonblank, opens, congrArg Prod.fst found⟩

section

variable {lead : List Char} {opening : Opening} {line : Line} {rest : List Line}
  {body : List (Line × List Char)}

def containerOf (lead : List Char) (opening : Opening) : List Char :=
  lead ++ blankMarkers opening.container

def readLines (lead : List Char) (opening : Opening) (rest : List Line) :
    List (Line × List Char) × Option Line :=
  fencedLines (containerOf lead opening) (containerOf lead opening ++ opening.indent) opening.fence
    rest

theorem fencedBlock_closed {closing : Line}
    (h : readLines lead opening rest = (body, some closing)) :
    fencedBlock lead opening line rest = ({
      kind := .fenced (Text.trim opening.info) (Tag.ofInfo? (Text.trim opening.info))
      start := line.start
      stop := closing.stop
      code := joinLines (body.map (·.2))
      lead := lead ++ opening.container ++ opening.indent }, body.length + 1) := by
  unfold readLines containerOf at h
  simp only [fencedBlock, h]

theorem fencedBlock_unclosed (h : readLines lead opening rest = (body, none)) :
    (fencedBlock lead opening line rest).2 = (dropBlankEnd (·.1) body).length := by
  unfold readLines containerOf at h
  simp only [fencedBlock, h]

theorem fencedBlock_taken (lead : List Char) (opening : Opening) (line : Line)
    (rest : List Line) :
    rest.take (fencedBlock lead opening line rest).2 <+:
      (readLines lead opening rest).1.map (·.1) ++ (readLines lead opening rest).2.toList := by
  have inside : (readLines lead opening rest).1.map (·.1) ++
      (readLines lead opening rest).2.toList <+: rest := fencedLines_inside _ _ _ rest
  rw [List.prefix_iff_eq_take.mp inside]
  refine List.take_prefix_take_left ?_
  cases found : readLines lead opening rest with
  | mk body closing =>
    cases closing with
    | some closing => simp [fencedBlock_closed found]
    | none =>
      have kept := (dropBlankEnd_inside (·.1) body).length_le
      simpa [fencedBlock_unclosed found] using kept

end

theorem fencedLines_continues {container lead : List Char} {fence : Fence} {rest : List Line} :
    ∀ line ∈ (fencedLines container lead fence rest).1.map (·.1) ++
      (fencedLines container lead fence rest).2.toList, line.continues container = true := by
  induction rest with
  | nil => simp [fencedLines]
  | cons line rest ih =>
    unfold fencedLines
    split
    · rename_i continues
      dsimp only
      split
      · simpa using continues
      · exact List.forall_mem_cons.mpr ⟨continues, ih⟩
    · simp

structure Block.Later (content : List Char) (block : Block) (line : Line) : Prop where
  mem : line ∈ lines content
  after : block.start < line.start
  before : line.start < block.stop

namespace Opens

variable {content : List Char} {block : Block} {s : BlockState} {line : Line} {rest : List Line}
  {opening : Opening} (h : Opens content block s line rest opening)

include h

theorem line_mem : line ∈ lines content := h.reads.suffix.mem (List.mem_cons_self ..)

theorem proper : opening.fence.Proper := openingFrom_proper h.opens

theorem covers : ∃ taken,
    taken = (fencedBlock (s.split line).1 opening line rest).2 ∧
      Covers line rest (block, taken) := by
  refine ⟨_, rfl, ?_⟩
  rw [h.block_eq]
  exact fencedBlock_covers h.nonblank _ h.proper rest

theorem start_eq : block.start = line.start := h.covers.choose_spec.2.start_eq

theorem source : ∃ after, content.drop block.start = line.text ++ after := by
  obtain ⟨before, after, whole, start, _⟩ := (lined_lines content).source line h.line_mem
  refine ⟨after, ?_⟩
  rw [h.start_eq, start, Nat.zero_add, whole, List.append_assoc, List.drop_left' rfl]

theorem lead_eq : block.lead =
    (s.split line).1 ++ opening.container ++ opening.indent := by
  rw [h.block_eq, fencedBlock_lead]

theorem mem_rest {later : Line} (member : later ∈ lines content)
    (after : line.start < later.start) : later ∈ rest := by
  obtain ⟨front, whole⟩ := h.reads.suffix
  have starts := (lined_lines content).starts_lt.2
  rw [← whole, List.pairwise_append] at starts
  rw [← whole] at member
  rcases List.mem_append.mp member with early | here
  · have := starts.2.2 later early line (List.mem_cons_self ..)
    omega
  · rcases List.mem_cons.mp here with rfl | behind
    · omega
    · exact behind

theorem mem_readLines {later : Line} (isLater : block.Later content later) :
    later ∈ (readLines (s.split line).1 opening rest).1.map (·.1) ++
      (readLines (s.split line).1 opening rest).2.toList := by
  obtain ⟨taken, taken_eq, covers⟩ := h.covers
  have inRest := h.mem_rest isLater.mem (h.start_eq ▸ isLater.after)
  have inside : later ∈ rest.take taken := by
    rw [← List.take_append_drop taken rest] at inRest
    rcases List.mem_append.mp inRest with inside | outside
    · exact inside
    · -- a line that is not taken starts behind the last one that is, so behind the block
      have split : line :: rest = (line :: rest.take taken) ++ rest.drop taken := by simp
      have tail := ((lined_lines content).ordered.2).sublist h.reads.suffix.sublist
      rw [split, List.pairwise_append] at tail
      have gap := tail.2.2 _ (lastLine_mem line rest taken) later outside
      have stop := covers.stop_eq
      have before := isLater.before
      simp only at stop
      omega
  rw [taken_eq] at inside
  exact (fencedBlock_taken ..).mem inside

theorem continues {later : Line} (isLater : block.Later content later) :
    later.continues (containerOf (s.split line).1 opening) = true :=
  fencedLines_continues later (h.mem_readLines isLater)

end Opens

end BookHighlight.Markdown
