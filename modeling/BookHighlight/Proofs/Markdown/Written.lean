import BookHighlight.Proofs.Markdown.Container
import BookHighlight.Proofs.Markdown.Construct
import BookHighlight.Proofs.Text.Blank

namespace BookHighlight

theorem Tag.ofInfo?_trim (info : List Char) : Tag.ofInfo? (Text.trim info) = Tag.ofInfo? info := by
  unfold Tag.ofInfo? Tag.word
  rw [Text.trim_trim]

namespace Markdown

open Text (Unbroken)

def Fence.text (fence : Fence) : List Char := List.replicate fence.length fence.mark

structure Fence.Takes (fence : Fence) (info : List Char) : Prop where
  apart : info.head? ≠ some fence.mark
  ticks : fence.mark = '`' → '`' ∉ info

def writtenFence (markers : List Marker) (fence : Fence) (info : List Char)
    (code : List (List Char)) : List Char :=
  joinLines ((markersText markers ++ (fence.text ++ info)) ::
    code.map (markersIndent markers ++ ·)) ++ (markersIndent markers ++ fence.text)

theorem Fence.takeWhile_text {fence : Fence} {rest : List Char}
    (apart : rest.head? ≠ some fence.mark) :
    (fence.text ++ rest).takeWhile (· == fence.mark) = fence.text := by
  apply takeWhile_append_of_head
  · intro c member
    simp [List.eq_of_mem_replicate member]
  · intro c first
    rw [beq_eq_false_iff_ne]
    rintro rfl
    exact apart first

namespace Fence.Proper

variable {fence : Fence} (proper : fence.Proper)

include proper

theorem exists_text : ∃ more, fence.text = fence.mark :: more := by
  have long := proper.2
  have positive : fence.length = fence.length - 1 + 1 := by omega
  exact ⟨List.replicate (fence.length - 1) fence.mark, by
    rw [text, positive, List.replicate_succ, Nat.add_sub_cancel]⟩

theorem tight_text (rest : List Char) : Tight (fence.text ++ rest) := by
  obtain ⟨more, text⟩ := proper.exists_text
  rw [text]
  rintro c ⟨⟩
  rcases proper.1 with mark | mark <;> rw [mark] <;> decide

theorem ofText?_text {info : List Char} (apart : info.head? ≠ some fence.mark) :
    Fence.ofText? (fence.text ++ info) = some (fence, info) := by
  have run := takeWhile_text apart
  have length : fence.text.length = fence.length := List.length_replicate
  have after : (fence.text ++ info).drop fence.length = info := by rw [← length, List.drop_left]
  obtain ⟨more, text⟩ := proper.exists_text
  have whole : fence.text ++ info = fence.mark :: (more ++ info) := by rw [text]; rfl
  rw [whole] at run after ⊢
  unfold Fence.ofText?
  simp only [if_pos proper.1, run, length, if_pos proper.2, after]

theorem closedBy_text : fence.closedBy fence.text = true := by
  have run : (fence.text ++ []).takeWhile (· == fence.mark) = fence.text :=
    takeWhile_text (by simp)
  have noIndent : spaces fence.text = [] := by
    refine takeWhile_of_head fun c first => ?_
    have tight := proper.tight_text [] c (by rwa [List.append_nil])
    exact (Bool.or_eq_false_iff.mp tight).1
  have length : fence.text.length = fence.length := List.length_replicate
  have nothing : fence.text.drop fence.length = [] := by rw [← length, List.drop_length]
  rw [List.append_nil] at run
  simp [closedBy, noIndent, run, length, nothing, Text.isBlankText]

theorem opening_written (markers : List Marker) {info : List Char} (takes : fence.Takes info) :
    Opening.ofText? (markersText markers ++ (fence.text ++ info)) =
      some ⟨markersText markers, [], fence, info⟩ := by
  have tight := proper.tight_text info
  have long := proper.2
  have enough : markers.length < (markersText markers ++ (fence.text ++ info)).length := by
    have front := length_le_markersText markers
    have length : fence.text.length = fence.length := List.length_replicate
    simp only [List.length_append]
    omega
  obtain ⟨left, some, same⟩ := openingFrom_markers markers tight [] _ enough
  obtain ⟨b, left, rfl⟩ := List.exists_cons_of_ne_nil some
  have noIndent : spaces (fence.text ++ info) = [] :=
    takeWhile_of_head fun c first => (Bool.or_eq_false_iff.mp (tight c first)).1
  have noTick : ¬ (fence.mark = '`' ∧ '`' ∈ info) := fun both => takes.ticks both.1 both.2
  rw [Opening.ofText?, same, openingFrom]
  simp only [noIndent, List.length_nil, List.drop_zero, proper.ofText?_text takes.apart,
    if_neg noTick, List.nil_append]
  exact if_neg (by decide)

end Fence.Proper

section

variable {container : List Char} (chars : ∀ c ∈ container, c = ' ' ∨ c = '>')

include chars

theorem head?_dropWhile_spaces (quoted : '>' ∈ container) (text : List Char) :
    ((container ++ text).dropWhile (· == ' ')).head? = some '>' := by
  induction container with
  | nil => cases quoted
  | cons c container ih =>
    obtain ⟨first, later⟩ := List.forall_mem_cons.mp chars
    rcases first with rfl | rfl
    · rw [List.cons_append, List.dropWhile_cons_of_pos (by decide)]
      exact ih later (by simpa using quoted)
    · rw [List.cons_append, List.dropWhile_cons_of_neg (by decide), List.head?_cons]

/-- Blanked markers keep a line in its container, whatever follows them. -/
theorem continues_of_front (line : Line) {text : List Char}
    (front : line.text = container ++ text) : line.continues container = true := by
  unfold Line.continues
  rw [front]
  split
  · rename_i quoted
    simp [head?_dropWhile_spaces chars quoted text]
  · rename_i bare
    -- without a quote the container is all spaces, and what follows only indents further
    have spaces : container = List.replicate container.length ' ' := by
      apply List.eq_replicate_of_mem
      intro c member
      rcases chars c member with space | quote
      · exact space
      · rw [quote] at member
        exact absurd member bare
    have wide : container.length ≤ indentWidth (container ++ text) := by
      have column := indentFrom_spaces 0 container.length text
      have inside := le_indentFrom (0 + container.length) text
      rw [← spaces] at column
      rw [indentWidth, column]
      omega
    simp [wide]

end

theorem stripContainer_append (container text : List Char) :
    stripContainer container (container ++ text) = text := by
  induction container with
  | nil => rfl
  | cons c container ih => simpa [stripContainer] using ih

theorem linesFrom_lf (offset : Nat) (text : List Char) (rest : List Text.BrokenLine) :
    linesFrom offset (⟨text, ['\n']⟩ :: rest) =
      ⟨offset, offset + text.length, text⟩ :: linesFrom (offset + (text.length + 1)) rest := by
  simp [linesFrom, lineText, Nat.add_assoc]

theorem linesFrom_last (offset : Nat) (text : List Char) :
    linesFrom offset [⟨text, []⟩] = [⟨offset, offset + text.length, text⟩] := by
  simp [linesFrom, lineText]

theorem brokenLines_joinLines {texts : List (List Char)} (unbroken : ∀ text ∈ texts, Unbroken text)
    (rest : List Char) : Text.brokenLines (joinLines texts ++ rest) =
      texts.map (⟨·, ['\n']⟩) ++ Text.brokenLines rest := by
  induction texts with
  | nil => rfl
  | cons text texts ih =>
    obtain ⟨first, later⟩ := List.forall_mem_cons.mp unbroken
    have whole : joinLines (text :: texts) ++ rest = text ++ '\n' :: (joinLines texts ++ rest) := by
      simp [joinLines]
    rw [whole, first.brokenLines_lf, ih later, List.map_cons, List.cons_append]

def laterLines (container : List Char) (fence : Fence) (code : List (List Char)) (offset : Nat) :
    List Line :=
  linesFrom offset
    (code.map (fun text => ⟨container ++ text, ['\n']⟩) ++ [⟨container ++ fence.text, []⟩])

/-- The lines of a written block are read as they were written, up to the closing fence. -/
theorem fencedLines_written {container : List Char} (chars : ∀ c ∈ container, c = ' ' ∨ c = '>')
    {fence : Fence} (proper : fence.Proper) {code : List (List Char)}
    (inner : ∀ text ∈ code, fence.closedBy text = false) (offset : Nat) :
    ∃ body closing,
      fencedLines container container fence (laterLines container fence code offset) =
        (body, some closing) ∧
      body.map (·.2) = code ∧ closing.stop =
        offset + (joinLines (code.map (container ++ ·)) ++ (container ++ fence.text)).length := by
  unfold laterLines
  induction code generalizing offset with
  | nil =>
    have stays : ∀ line : Line, line.text = container ++ fence.text →
        line.continues container = true := fun line => continues_of_front chars line
    let last : Line := ⟨offset, offset + (container ++ fence.text).length, container ++ fence.text⟩
    refine ⟨[], last, ?_, rfl, rfl⟩
    rw [List.map_nil, List.nil_append, linesFrom_last]
    simp [fencedLines, stays, stripContainer_append, proper.closedBy_text, last]
  | cons text code ih =>
    obtain ⟨first, later⟩ := List.forall_mem_cons.mp inner
    have stays : ∀ line : Line, line.text = container ++ text →
        line.continues container = true := fun line => continues_of_front chars line
    obtain ⟨body, closing, found, texts, stop⟩ :=
      ih later (offset + ((container ++ text).length + 1))
    refine ⟨(⟨offset, offset + (container ++ text).length, container ++ text⟩, text) :: body,
      closing, ?_, by simp [texts], ?_⟩
    · -- the line stays in the container and does not close, so reading goes on behind it
      rw [List.map_cons, List.cons_append, linesFrom_lf]
      simp only [fencedLines, stays, stripContainer_append, first, found]
      simp
    · rw [stop]
      simp [joinLines]
      omega

theorem isLineBreak_of_isMarkChar {c : Char} (h : isMarkChar c = true) :
    Text.isLineBreak c = false := by
  simp only [isMarkChar, Bool.or_eq_true, beq_iff_eq, or_assoc] at h
  rcases h with rfl | rfl | rfl | rfl | rfl | digit
  iterate 5 decide
  have bounds := isDigit_toNat digit
  simp [Text.isLineBreak]
  omega

theorem unbroken_markersText (markers : List Marker) : Unbroken (markersText markers) := by
  intro c member
  obtain ⟨marker, _, inside⟩ := List.mem_flatMap.mp member
  cases marker with
  | quote =>
    have two : c = '>' ∨ c = ' ' := by simpa [Marker.text] using inside
    rcases two with rfl | rfl <;> decide
  | item mark isMark =>
    rcases List.mem_append.mp inside with marks | space
    · exact isLineBreak_of_isMarkChar (isMark.isMarkChar c marks)
    · rw [List.mem_singleton.mp space]
      decide

theorem unbroken_markersIndent (markers : List Marker) : Unbroken (markersIndent markers) := by
  intro c member
  rcases markersIndent_chars markers c member with rfl | rfl <;> decide

theorem Fence.Proper.unbroken_text {fence : Fence} (proper : fence.Proper) :
    Unbroken fence.text := by
  intro c member
  rw [List.eq_of_mem_replicate member]
  rcases proper.1 with mark | mark <;> rw [mark] <;> decide

theorem step_initial {line : Line} {opening : Opening} (nonblank : line.isBlank = false)
    (flush : indentWidth line.text = 0) (opens : Opening.ofText? line.text = some opening)
    (rest : List Line) : ∃ s,
      BlockState.initial.step line rest = (s, some (fencedBlock [] opening line rest)) := by
  simp only [BlockState.step, nonblank, flush, BlockState.initial, BlockState.atIndent,
    BlockState.base]
  simp [splitColumns_zero, opens]

theorem blocksFrom_length (s : BlockState) (ls : List Line) : blocksFrom ls.length s ls = [] := by
  induction ls with
  | nil => rfl
  | cons line rest ih => exact ih

theorem constructsFrom_whole {content : List Char} {block : Block} (start : block.start = 0)
    (stop : block.stop = content.length) : constructsFrom content 0 [block] = [.block block] := by
  have before : slice content 0 block.start = [] := by rw [start]; rfl
  have after : content.drop block.stop = [] := by rw [stop, List.drop_length]
  simp [constructsFrom, before, after, spansFrom]

section

variable (markers : List Marker) {fence : Fence} (proper : fence.Proper) {info : List Char}
  {code : List (List Char)}

include proper

theorem lines_writtenFence (oneLine : Unbroken info) (unbroken : ∀ text ∈ code, Unbroken text) :
    let first := markersText markers ++ (fence.text ++ info)
    lines (writtenFence markers fence info code) = ⟨0, first.length, first⟩ ::
      laterLines (markersIndent markers) fence code (first.length + 1) := by
  intro first
  have indent := unbroken_markersIndent markers
  have run := proper.unbroken_text
  have opening : Unbroken first := (unbroken_markersText markers).append (run.append oneLine)
  have each : ∀ text ∈ first :: code.map (markersIndent markers ++ ·), Unbroken text := by
    refine List.forall_mem_cons.mpr ⟨opening, fun text member => ?_⟩
    obtain ⟨source, inCode, rfl⟩ := List.mem_map.mp member
    exact indent.append (unbroken source inCode)
  have some : markersIndent markers ++ fence.text ≠ [] := by
    obtain ⟨more, text⟩ := proper.exists_text
    simp [text]
  rw [lines, writtenFence, brokenLines_joinLines each, (indent.append run).brokenLines_last some,
    List.map_cons, List.map_map, List.cons_append, linesFrom_lf, Nat.zero_add, Nat.zero_add]
  rfl

theorem fencedBlock_written (inner : ∀ text ∈ code, fence.closedBy text = false) (line : Line) :
    let rest := laterLines (markersIndent markers) fence code
      ((markersText markers ++ (fence.text ++ info)).length + 1)
    fencedBlock [] ⟨markersText markers, [], fence, info⟩ line rest = ({
      kind := .fenced (Text.trim info) (Tag.ofInfo? info)
      start := line.start
      stop := (writtenFence markers fence info code).length
      code := joinLines code
      lead := markersText markers }, rest.length) := by
  intro rest
  obtain ⟨body, closing, found, texts, stop⟩ := fencedLines_written (markersIndent_chars markers)
    proper inner ((markersText markers ++ (fence.text ++ info)).length + 1)
  have taken : body.length + 1 = rest.length := by
    have length := congrArg List.length texts
    rw [List.length_map] at length
    simp [rest, laterLines, length_linesFrom, length]
  have ends : closing.stop = (writtenFence markers fence info code).length := by
    rw [stop]
    simp only [writtenFence, joinLines, List.flatMap_cons, List.length_append,
      List.length_singleton]
    omega
  have found : fencedLines (markersIndent markers) (markersIndent markers) fence rest = _ := found
  unfold fencedBlock
  simp only [List.nil_append, List.append_nil, blankMarkers_markersText, found, texts, ends, taken,
    Tag.ofInfo?_trim]

/-- A fenced block that is written inside any containers is found as the one construct of its
    text, with the code that was written. -/
theorem constructs_writtenFence (takes : fence.Takes info) (oneLine : Unbroken info)
    (unbroken : ∀ text ∈ code, Unbroken text)
    (inner : ∀ text ∈ code, fence.closedBy text = false) :
    constructs (writtenFence markers fence info code) = [.block {
      kind := .fenced (Text.trim info) (Tag.ofInfo? info)
      start := 0
      stop := (writtenFence markers fence info code).length
      code := joinLines code
      lead := markersText markers }] := by
  let first := markersText markers ++ (fence.text ++ info)
  let line : Line := ⟨0, first.length, first⟩
  have tight : Tight first := tight_markersText markers (proper.tight_text info)
  have flush : indentWidth line.text = 0 := indentFrom_of_head tight 0
  have nonblank : line.isBlank = false := by
    obtain ⟨more, run⟩ := proper.exists_text
    refine List.all_eq_false.mpr ⟨fence.mark, by simp [line, first, run], ?_⟩
    simp [proper.not_isBlank]
  obtain ⟨s, step⟩ := step_initial nonblank flush (proper.opening_written markers takes)
    (laterLines (markersIndent markers) fence code (first.length + 1))
  rw [fencedBlock_written markers proper inner] at step
  rw [constructs, blocks, lines_writtenFence markers proper oneLine unbroken, blocksFrom, step]
  simp only [blocksFrom_length]
  exact constructsFrom_whole rfl rfl

end

theorem constructs_writtenFence_nested :
    let markers : List Marker := [
      .item (['1', '0'] ++ ['.']) (.ordered (by decide) (by decide)
        (List.all_eq_true.mp (by decide)) (.inl rfl)),
      .quote, .item ['-'] (.bullet (.inl rfl))]
    let fence : Fence := ⟨'`', 4⟩
    let code := ["> - 1) x".toList, [], "\t```".toList, "```` typ".toList]
    fence.Proper ∧ fence.Takes " typ x".toList ∧ Unbroken " typ x".toList ∧
      (∀ text ∈ code, Unbroken text) ∧ (∀ text ∈ code, fence.closedBy text = false) ∧
      writtenFence markers fence " typ x".toList code =
        ("10. > - ```` typ x\n    >   > - 1) x\n    >   \n    >   \t```\n    >   ```` typ\n" ++
          "    >   ````").toList ∧
      constructs (writtenFence markers fence " typ x".toList code) = [.block {
        kind := .fenced "typ x".toList (Tag.ofInfo? " typ x".toList)
        start := 0
        stop := 87
        code := "> - 1) x\n\n\t```\n```` typ\n".toList
        lead := "10. > - ".toList }] := by
  intro markers fence code
  have proper : fence.Proper := ⟨.inl rfl, by decide⟩
  have takes : fence.Takes " typ x".toList := ⟨by decide, fun _ => by decide⟩
  have oneLine : Unbroken " typ x".toList := by decide
  have unbroken : ∀ text ∈ code, Unbroken text := by decide
  have inner : ∀ text ∈ code, fence.closedBy text = false := by decide
  exact ⟨proper, takes, oneLine, unbroken, inner, by decide,
    (constructs_writtenFence markers proper takes oneLine unbroken inner).trans (by decide)⟩

end Markdown

end BookHighlight
