import BookHighlight.Proofs.Markdown.Code
import BookHighlight.Proofs.Markdown.State
import BookHighlight.Proofs.Markdown.Written

namespace BookHighlight.Markdown

open Text (Unbroken Fed)

inductive Setting where
  | top
  | item (mark : List Char) (isMark : IsListMark mark)

namespace Setting

def text : Setting → List Char
  | top => []
  | item mark _ => mark ++ " item\n\n".toList

def width : Setting → Nat
  | top => 0
  | item mark _ => mark.length + 1

def items : Setting → List Nat
  | top => []
  | item mark _ => [mark.length + 1]

def line (setting : Setting) (code : List Char) : List Char :=
  List.replicate (setting.width + 4) ' ' ++ code

end Setting

def writtenCode (setting : Setting) (code : List (List Char)) : List Char :=
  setting.text ++ joinLines (code.map setting.line)

theorem spansFrom_of_no_tick {text : List Char} (none : '`' ∉ text) (skip position : Nat) :
    spansFrom skip position text = [] := by
  induction text generalizing skip position with
  | nil => cases skip <;> rfl
  | cons c rest ih =>
    obtain ⟨other, later⟩ := not_or.mp (mt List.mem_cons.mpr none)
    cases skip with
    | succ skip => exact ih later skip (position + 1)
    | zero =>
      rw [spansFrom]
      split
      · exact ih later 1 (position + 1)
      · rw [if_neg (Ne.symm other)]
        exact ih later 0 (position + 1)

section

variable {mark : List Char} (isMark : IsListMark mark)

include isMark

theorem markersText_item :
    markersText [.item mark isMark] ++ "item".toList = mark ++ " item".toList := by
  simp [markersText, Marker.text]

theorem tight_item : Tight (mark ++ " item".toList) := by
  rw [← markersText_item isMark]
  apply tight_markersText
  rintro c ⟨⟩
  rfl

theorem unbroken_item : Unbroken (mark ++ " item".toList) := by
  rw [← markersText_item isMark]
  exact (unbroken_markersText _).append (by decide)

theorem IsListMark.ofText?_item :
    ListItem.ofText? (mark ++ " item".toList) = some ⟨0, mark.length, some 1⟩ := by
  have tight := tight_item isMark
  have flush : spaces (mark ++ " item".toList) = [] :=
    takeWhile_of_head fun c first => (Bool.or_eq_false_iff.mp (tight c first)).1
  unfold ListItem.ofText?
  simp only [flush, List.length_nil, List.drop_zero, isMark.listMarker?_append]
  rfl

theorem IsListMark.opening_item : Opening.ofText? (mark ++ " item".toList) = none := by
  have tight : Tight "item".toList := by
    rintro c ⟨⟩
    rfl
  have enough : [Marker.item mark isMark].length < (mark ++ " item".toList).length := by simp
  obtain ⟨left, some, same⟩ := openingFrom_markers [.item mark isMark] tight [] _ enough
  obtain ⟨b, left, rfl⟩ := List.exists_cons_of_ne_nil some
  rw [markersText_item] at same
  rw [Opening.ofText?, same]
  rfl

theorem step_item (start stop : Nat) (rest : List Line) : ∃ paragraph,
    BlockState.initial.step ⟨start, stop, mark ++ " item".toList⟩ rest =
      (⟨[mark.length + 1], paragraph, false⟩, none) := by
  let line : Line := ⟨start, stop, mark ++ " item".toList⟩
  have nonblank : line.isBlank = false := List.all_eq_false.mpr ⟨'i', by simp [line], by decide⟩
  have flush : indentWidth line.text = 0 := indentFrom_of_head (tight_item isMark) 0
  have opened : BlockState.initial.opened line = ⟨[mark.length + 1], false, false⟩ := by
    rw [BlockState.opened, BlockState.split_of_flush flush, isMark.ofText?_item,
      BlockState.columns, flush, Nat.min_zero]
    show (⟨[0 + 0 + mark.length + 1], false, false⟩ : BlockState) = _
    rw [Nat.add_zero, Nat.zero_add]
  refine ⟨!isHeading line.text && BlockState.initial.hasText line, ?_⟩
  rw [BlockState.step_flush nonblank flush isMark.opening_item, opened]

theorem lines_item : lines (Setting.item mark isMark).text =
    let width := (mark ++ " item".toList).length
    [⟨0, width, mark ++ " item".toList⟩, ⟨width + 1, width + 1, []⟩] := by
  have whole : (Setting.item mark isMark).text =
      (mark ++ " item".toList) ++ '\n' :: ([] ++ '\n' :: []) := by simp [Setting.text]
  have empty : Unbroken [] := by decide
  rw [lines, whole, (unbroken_item isMark).brokenLines_lf, empty.brokenLines_lf, linesFrom_lf,
    linesFrom_lf]
  simp [Text.brokenLines, linesFrom]

end

theorem blocksFrom_setting (setting : Setting) (ls : List Line) :
    blocksFrom 0 .initial (lines setting.text ++ ls) =
      blocksFrom 0 ⟨setting.items, false, true⟩ ls := by
  cases setting with
  | top => rfl
  | item mark isMark =>
    let width := (mark ++ " item".toList).length
    obtain ⟨paragraph, step⟩ := step_item isMark 0 width (⟨width + 1, width + 1, []⟩ :: ls)
    rw [lines_item, List.cons_append, List.cons_append, List.nil_append, blocksFrom, step]
    dsimp only
    rw [blocksFrom, BlockState.step_blank rfl]
    rfl

theorem indentedBlock_whole {base : Nat} {rest : List Line}
    (inside : ∀ line ∈ rest, base + 4 ≤ indentWidth line.text)
    (ends : ∀ last ∈ rest.getLast?, last.isBlank = false) (line : Line) :
    indentedBlock base line rest = ({
      kind := .indented
      start := line.start
      stop := (rest.getLastD line).stop
      code := joinLines ((line :: rest).map fun line => (splitColumns (base + 4) line.text).2)
      lead := List.replicate base ' ' }, rest.length) := by
  have taken : rest.takeWhile (fun line => line.isBlank || base + 4 ≤ indentWidth line.text) =
      rest := by
    rw [List.takeWhile_eq_self_iff]
    intro line member
    simp [inside line member]
  have kept : dropBlankEnd id rest = rest := by
    change rest.rdropWhile (fun line => line.isBlank) = rest
    rw [List.rdropWhile_eq_self_iff]
    intro some
    have last := ends _ (List.getLast?_eq_some_getLast some)
    rw [last]
    exact Bool.false_ne_true
  unfold indentedBlock
  dsimp only
  rw [taken, kept]

theorem stop_getLastD (offset : Nat) (text : List Char) (texts : List (List Char)) :
    ((linesFrom (offset + (text.length + 1)) (texts.map (⟨·, ['\n']⟩))).getLastD
      ⟨offset, offset + text.length, text⟩).stop + 1 =
        offset + (joinLines (text :: texts)).length := by
  induction texts generalizing offset text with
  | nil => simp [linesFrom, joinLines, Nat.add_assoc]
  | cons next texts ih =>
    have later := ih (offset + (text.length + 1)) next
    rw [List.map_cons, linesFrom_lf, List.getLastD_cons, later]
    simp [joinLines]
    omega

theorem map_text_fed (offset : Nat) (texts : List (List Char)) :
    (linesFrom offset (texts.map (⟨·, ['\n']⟩))).map (·.text) = texts := by
  rw [map_text_linesFrom, List.map_map]
  calc texts.map (lineText ∘ (⟨·, ['\n']⟩)) = texts.map id := List.map_congr_left fun _ _ => rfl
    _ = texts := List.map_id texts

/-- Lines that are indented far enough are scanned as one block, from the first to the last. -/
theorem blocksFrom_code {s : BlockState} (idle : s.paragraph = false) {texts : List (List Char)}
    (some : texts ≠ []) (inside : ∀ text ∈ texts, s.base + 4 ≤ indentWidth text)
    (starts : ∀ text ∈ texts.head?, Text.isBlankText text = false)
    (ends : ∀ text ∈ texts.getLast?, Text.isBlankText text = false) (offset : Nat) :
    blocksFrom 0 s (linesFrom offset (texts.map (⟨·, ['\n']⟩))) = [{
      kind := .indented
      start := offset
      stop := offset + (joinLines texts).length - 1
      code := joinLines (texts.map fun text => (splitColumns (s.base + 4) text).2)
      lead := List.replicate s.base ' ' }] := by
  obtain ⟨first, more, rfl⟩ := List.exists_cons_of_ne_nil some
  obtain ⟨firstInside, moreInside⟩ := List.forall_mem_cons.mp inside
  let line : Line := ⟨offset, offset + first.length, first⟩
  let rest := linesFrom (offset + (first.length + 1)) (more.map (⟨·, ['\n']⟩))
  have texts : rest.map (·.text) = more := map_text_fed _ more
  have restInside : ∀ line ∈ rest, s.base + 4 ≤ indentWidth line.text := by
    intro line member
    apply moreInside
    rw [← texts]
    exact List.mem_map_of_mem member
  have restEnds : ∀ last ∈ rest.getLast?, last.isBlank = false := by
    intro last member
    apply ends last.text
    have lastText : more.getLast? = .some last.text := by
      rw [← texts, List.getLast?_map, Option.mem_def.mp member, Option.map_some]
    rw [List.getLast?_cons, lastText]
    rfl
  have nonblank : line.isBlank = false := starts first rfl
  have step := BlockState.step_indented nonblank idle firstInside rest
  have stop := stop_getLastD offset first more
  have code : (line :: rest).map (fun line => (splitColumns (s.base + 4) line.text).2) =
      (first :: more).map fun text => (splitColumns (s.base + 4) text).2 := by
    rw [List.map_cons, List.map_cons, ← texts, List.map_map]
    rfl
  rw [indentedBlock_whole restInside restEnds] at step
  rw [List.map_cons, linesFrom_lf, blocksFrom, step]
  dsimp only
  rw [blocksFrom_length, code, ← stop]
  rfl

theorem constructsFrom_single {content : List Char} {block : Block}
    (before : '`' ∉ content.take block.start) (after : '`' ∉ content.drop block.stop) :
    constructsFrom content 0 [block] = [.block block] := by
  have front : spansFrom 0 0 (slice content 0 block.start) = [] := spansFrom_of_no_tick before 0 0
  have back := spansFrom_of_no_tick after 0 block.stop
  rw [constructsFrom, constructsFrom, front, back]
  rfl

namespace Setting

variable (setting : Setting)

theorem tick_not_mem_text : '`' ∉ setting.text := by
  cases setting with
  | top => simp [text]
  | item mark isMark =>
    rw [text, List.mem_append, not_or]
    refine ⟨fun tick => ?_, by decide⟩
    exact absurd (isMark.isMarkChar '`' tick) (by decide)

theorem fed_text : Fed setting.text := by
  cases setting with
  | top => exact .inl rfl
  | item mark isMark =>
    right
    simp [text]

theorem base_items : (⟨setting.items, false, true⟩ : BlockState).base = setting.width := by
  cases setting <;> rfl

end Setting

theorem Setting.isBlankText_line (setting : Setting) {text : List Char}
    (shown : Text.isBlankText text = false) : Text.isBlankText (setting.line text) = false := by
  rw [Text.isBlankText, Setting.line, List.all_append]
  rw [Text.isBlankText] at shown
  rw [shown, Bool.and_false]

theorem exists_joinLines {texts : List (List Char)} (some : texts ≠ []) :
    ∃ body, joinLines texts = body ++ ['\n'] := by
  rcases texts.eq_nil_or_concat with none | ⟨front, last, concat⟩
  · exact absurd none some
  · refine ⟨joinLines front ++ last, ?_⟩
    rw [concat]
    simp [joinLines]

section

variable (setting : Setting) {code : List (List Char)} (some : code ≠ [])
  (unbroken : ∀ text ∈ code, Unbroken text)
  (starts : ∀ text ∈ code.head?, Text.isBlankText text = false)
  (ends : ∀ text ∈ code.getLast?, Text.isBlankText text = false)

include unbroken in
theorem lines_writtenCode : lines (writtenCode setting code) = lines setting.text ++
    linesFrom setting.text.length ((code.map setting.line).map (⟨·, ['\n']⟩)) := by
  have each : ∀ text ∈ code.map setting.line, Unbroken text := by
    intro text member
    obtain ⟨source, inCode, rfl⟩ := List.mem_map.mp member
    exact (Unbroken.spaces _).append (unbroken source inCode)
  have cut := brokenLines_joinLines each []
  rw [List.append_nil, Text.brokenLines, List.append_nil] at cut
  rw [lines, writtenCode, setting.fed_text.brokenLines_append, linesFrom_append,
    Text.flatMap_brokenLines, Nat.zero_add, cut]
  rfl

include some unbroken starts ends

theorem blocks_writtenCode : blocks (writtenCode setting code) = [{
    kind := .indented
    start := setting.text.length
    stop := (writtenCode setting code).length - 1
    code := joinLines code
    lead := List.replicate setting.width ' ' }] := by
  have base := setting.base_items
  have written : code.map setting.line ≠ [] := by simpa using some
  have inside : ∀ text ∈ code.map setting.line,
      (⟨setting.items, false, true⟩ : BlockState).base + 4 ≤ indentWidth text := by
    intro text member
    obtain ⟨source, _, rfl⟩ := List.mem_map.mp member
    rw [base]
    exact le_indentWidth_spaces _ source
  have first : ∀ text ∈ (code.map setting.line).head?, Text.isBlankText text = false := by
    intro text member
    rw [List.head?_map] at member
    obtain ⟨source, inCode, rfl⟩ := Option.map_eq_some_iff.mp member
    exact setting.isBlankText_line (starts source inCode)
  have last : ∀ text ∈ (code.map setting.line).getLast?, Text.isBlankText text = false := by
    intro text member
    rw [List.getLast?_map] at member
    obtain ⟨source, inCode, rfl⟩ := Option.map_eq_some_iff.mp member
    exact setting.isBlankText_line (ends source inCode)
  let strip := fun text => (splitColumns (setting.width + 4) text).2
  have stripped : (code.map setting.line).map strip = code := by
    have back : strip ∘ setting.line = id := by
      funext text
      exact congrArg Prod.snd (splitColumns_spaces (setting.width + 4) text)
    rw [List.map_map, back, List.map_id]
  have found := blocksFrom_code (s := ⟨setting.items, false, true⟩) rfl written inside first last
    setting.text.length
  rw [base, stripped] at found
  rw [blocks, lines_writtenCode setting unbroken, blocksFrom_setting, found, writtenCode,
    List.length_append]

/-- Indented code that is written outside all lists or in a list item is found as the one construct
    of its text, with the code that was written. -/
theorem constructs_writtenCode :
    constructs (writtenCode setting code) = [.block {
      kind := .indented
      start := setting.text.length
      stop := (writtenCode setting code).length - 1
      code := joinLines code
      lead := List.replicate setting.width ' ' }] := by
  obtain ⟨body, ended⟩ : ∃ body, joinLines (code.map setting.line) = body ++ ['\n'] :=
    exists_joinLines (by simpa using some)
  have whole : writtenCode setting code = (setting.text ++ body) ++ ['\n'] := by
    rw [writtenCode, List.append_assoc, ← ended]
  rw [constructs, blocks_writtenCode setting some unbroken starts ends]
  apply constructsFrom_single
  · show '`' ∉ (writtenCode setting code).take setting.text.length
    rw [writtenCode, List.take_left]
    exact setting.tick_not_mem_text
  · show '`' ∉ (writtenCode setting code).drop ((writtenCode setting code).length - 1)
    rw [whole, List.length_append, List.length_singleton, Nat.add_sub_cancel, List.drop_left]
    decide

end

theorem constructs_writtenCode_numbered :
    let setting : Setting := .item (['1', '0'] ++ [')']) (.ordered (by decide) (by decide)
      (List.all_eq_true.mp (by decide)) (.inr rfl))
    let code := ["\t```".toList, [], " \t".toList, "- `x`".toList]
    code ≠ [] ∧ (∀ text ∈ code, Unbroken text) ∧
      (∀ text ∈ code.head?, Text.isBlankText text = false) ∧
      (∀ text ∈ code.getLast?, Text.isBlankText text = false) ∧
      writtenCode setting code =
        "10) item\n\n        \t```\n        \n         \t\n        - `x`\n".toList ∧
      constructs (writtenCode setting code) = [.block {
        kind := .indented
        start := 10
        stop := 56
        code := "\t```\n\n \t\n- `x`\n".toList
        lead := List.replicate 4 ' ' }] := by
  intro setting code
  have some : code ≠ [] := by decide
  have unbroken : ∀ text ∈ code, Unbroken text := by decide
  have starts : ∀ text ∈ code.head?, Text.isBlankText text = false := by decide
  have ends : ∀ text ∈ code.getLast?, Text.isBlankText text = false := by decide
  exact ⟨some, unbroken, starts, ends, by decide,
    (constructs_writtenCode setting some unbroken starts ends).trans (by decide)⟩

end BookHighlight.Markdown
