import BookHighlight.Proofs.Markdown.Opened
import Mathlib.Data.List.DropRight

namespace BookHighlight.Markdown

/-- The column behind the first `quotes` quote marks of a text that starts at `column`, and the
    rest of the text. Only spaces may stand before the marks. -/
def afterQuotes? : (quotes column : Nat) → List Char → Option (Nat × List Char)
  | 0, column, text => some (column, text)
  | quotes + 1, column, text =>
    match text.dropWhile (· == ' ') with
    | '>' :: rest => afterQuotes? quotes (column + (spaces text).length + 1) rest
    | _ => none

/-- The containers that a line can stand in: quotes, and behind the mark of the innermost one the
    columns up to the content of a list item, none if there is no such item. -/
structure Nest where
  quotes : Nat
  width : Nat

def Nest.Holds (nest : Nest) (line : Line) : Prop :=
  ∃ column rest, afterQuotes? nest.quotes 0 line.text = some (column, rest) ∧
    (Text.isBlankText rest = true ∨ column + nest.width ≤ indentFrom column rest)

def Opening.nest (opening : Opening) (column : Nat) : Nest where
  quotes := opening.container.count '>'
  width :=
    let behind := opening.container.rtakeWhile (· != '>')
    if '>' ∉ opening.container then column + opening.container.length
    else if behind.all (· == ' ') then 0 else behind.length

/-- What the test for the further lines of a block asks of them, in a container of this length: one
    quote mark stands for all quotes and what is behind them. -/
def Nest.asked (nest : Nest) (length : Nat) : Nest :=
  if nest.quotes = 0 then ⟨0, length⟩ else ⟨1, 0⟩

def Nest.Simple (nest : Nest) (length : Nat) : Prop :=
  nest.quotes = 0 ∧ nest.width ≤ length ∨ nest.quotes = 1 ∧ nest.width = 0

section

variable {line : Line}

theorem holds_indent {width : Nat} :
    Nest.Holds ⟨0, width⟩ line ↔ line.isBlank = true ∨ width ≤ indentWidth line.text := by
  simp [Nest.Holds, afterQuotes?, Line.isBlank, indentWidth]

theorem holds_quote :
    Nest.Holds ⟨1, 0⟩ line ↔ (line.text.dropWhile (· == ' ')).head? = some '>' := by
  unfold Nest.Holds afterQuotes?
  constructor
  · rintro ⟨column, rest, after, _⟩
    dsimp only at after
    split at after
    · rename_i rest front
      rw [front]
      rfl
    · cases after
  · intro front
    obtain ⟨rest, front⟩ := List.head?_eq_some_iff.mp front
    refine ⟨(spaces line.text).length + 1, rest, ?_, .inr (le_indentFrom _ rest)⟩
    simp [front, afterQuotes?]

theorem continues_iff {container : List Char} {nest : Nest}
    (same : nest.quotes = container.count '>') :
    line.continues container = true ↔ (nest.asked container.length).Holds line := by
  unfold Line.continues Nest.asked
  rw [same]
  by_cases quoted : '>' ∈ container
  · have some := Nat.ne_of_gt (List.count_pos_iff.mpr quoted)
    rw [if_pos quoted, if_neg some, holds_quote, beq_iff_eq]
  · rw [if_neg quoted, if_pos (List.count_eq_zero.mpr quoted), holds_indent]
    simp

end

section

variable {nest : Nest} {length : Nat}

theorem Nest.Simple.holds (simple : nest.Simple length) {line : Line}
    (h : (nest.asked length).Holds line) : nest.Holds line := by
  obtain ⟨quotes, width⟩ := nest
  rcases simple with ⟨none, narrow⟩ | ⟨one, none⟩
  · dsimp only at none narrow
    subst none
    have asked : line.isBlank = true ∨ length ≤ indentWidth line.text := holds_indent.mp h
    exact holds_indent.mpr (asked.imp_right narrow.trans)
  · dsimp only at one none
    subst one none
    exact h

/-- A line that the test takes as one of the block, but that keeps to no containers except simple
    ones. -/
def Nest.stray (nest : Nest) (length : Nat) : Line :=
  let text := if nest.quotes = 0 then List.replicate length ' ' ++ ['x'] else ['>', 'x']
  ⟨0, text.length, text⟩

theorem asked_stray (nest : Nest) (length : Nat) :
    (nest.asked length).Holds (nest.stray length) := by
  unfold Nest.asked Nest.stray
  split
  · refine holds_indent.mpr (.inr ?_)
    rw [indentWidth, indentFrom_replicate _ _ (by decide), Nat.zero_add]
  · exact holds_quote.mpr rfl

theorem simple_of_stray (h : nest.Holds (nest.stray length)) : nest.Simple length := by
  obtain ⟨quotes, width⟩ := nest
  match quotes with
  | 0 =>
    refine .inl ⟨rfl, ?_⟩
    have shown : Text.isBlankText (List.replicate length ' ' ++ ['x']) = false := by
      simp [Text.isBlankText, Text.isBlank]
    rcases holds_indent.mp h with blank | wide
    · exact absurd (shown.symm.trans blank) (by decide)
    · have indent := indentFrom_replicate 0 length (by decide : isIndentation 'x' = false) []
      rw [Nat.zero_add] at indent
      exact wide.trans (Nat.le_of_eq indent)
  | 1 =>
    refine .inr ⟨rfl, ?_⟩
    obtain ⟨column, rest, after, kept⟩ := h
    cases after
    rcases kept with blank | wide
    · exact absurd blank (by decide)
    · change 1 + width ≤ 1 at wide
      change width = 0
      omega
  | quotes + 2 =>
    obtain ⟨column, rest, after, _⟩ := h
    cases after

end

theorem count_blankMarkers (container : List Char) :
    (blankMarkers container).count '>' = container.count '>' := by
  unfold blankMarkers
  rw [List.count_eq_countP, List.countP_map, List.count_eq_countP]
  refine List.countP_congr fun c _ => ?_
  dsimp only [Function.comp]
  split
  · rename_i marks
    have other : c ≠ '>' := by
      rintro rfl
      revert marks
      decide
    simp [other]
  · rfl

theorem count_containerOf (s : BlockState) (line : Line) (opening : Opening) :
    (containerOf (s.split line).1 opening).count '>' = opening.container.count '>' := by
  have none : (s.split line).1.count '>' = 0 := by
    rw [List.count_eq_zero]
    intro quote
    exact absurd (splitColumnsFrom_indents _ _ _ _ quote) (by decide)
  rw [containerOf, List.count_append, none, Nat.zero_add, count_blankMarkers]

namespace Opens

variable {content : List Char} {block : Block} {s : BlockState} {line : Line} {rest : List Line}
  {opening : Opening} (h : Opens content block s line rest opening)

include h

theorem simple_of_no_tab (none : (opening.nest (s.columns line)).quotes = 0)
    (noTab : '\t' ∉ block.lead) :
    (opening.nest (s.columns line)).Simple (containerOf (s.split line).1 opening).length := by
  have noQuote : '>' ∉ opening.container := List.count_eq_zero.mp none
  have before : '\t' ∉ (s.split line).1 := by
    intro tab
    rw [h.lead_eq] at noTab
    exact noTab (List.mem_append_left _ (List.mem_append_left _ tab))
  -- without tabs the columns in front of the fence are as many as the characters
  have reached : s.columns line ≤ columnFrom 0 (s.split line).1 :=
    splitColumnsFrom_reaches line.text (Nat.min_le_right ..)
  rw [columnFrom_of_no_tab before, Nat.zero_add] at reached
  refine .inl ⟨none, ?_⟩
  simp only [Opening.nest, if_pos noQuote, containerOf, List.length_append, blankMarkers,
    List.length_map]
  omega

end Opens

structure KeepsTo (content : List Char) (block : Block) (nest : Nest) (length : Nat) : Prop where
  /-- every further line meets what the test asks -/
  asked : ∀ later, block.Later content later → (nest.asked length).Holds later
  simple : nest.Simple length → ∀ later, block.Later content later → nest.Holds later
  /-- in other containers the test lets lines pass that have left them -/
  stray : ¬ nest.Simple length → ∃ line, (nest.asked length).Holds line ∧ ¬ nest.Holds line
  tab : nest.quotes = 0 → '\t' ∉ block.lead → nest.Simple length

/-- A fenced block keeps to its containers when these are a list item without tabs in front of the
    fence, or one quote and no list item in it. Of nested quotes and of a list item in a quote it
    keeps to the outermost quote only. -/
theorem fence_keepsTo {content : List Char} {block : Block} {info : List Char}
    {tag : Option Tag} (member : .block block ∈ constructs content)
    (fenced : block.kind = .fenced info tag) :
    ∃ s line rest opening, Opens content block s line rest opening ∧
      KeepsTo content block (opening.nest (s.columns line))
        (containerOf (s.split line).1 opening).length := by
  obtain ⟨s, line, rest, opening, opens⟩ := exists_opens member fenced
  have same : (opening.nest (s.columns line)).quotes =
      (containerOf (s.split line).1 opening).count '>' :=
    (count_containerOf s line opening).symm
  have asked : ∀ later, block.Later content later → Nest.Holds _ later :=
    fun later isLater => (continues_iff same).mp (opens.continues isLater)
  refine ⟨s, line, rest, opening, opens, asked, ?_, ?_, opens.simple_of_no_tab⟩
  · exact fun simple later isLater => simple.holds (asked later isLater)
  · intro nested
    exact ⟨_, asked_stray _ _, fun holds => nested (simple_of_stray holds)⟩

theorem fence_keepsTo_nested :
    let content := "- a\n  - ```typ\n    #x\n\n  b\n".toList
    let block : Block :=
      ⟨.fenced "typ".toList (Tag.ofInfo? "typ".toList), 4, 21, "#x\n".toList, "  - ".toList⟩
    .block block ∈ constructs content ∧
      block.kind = .fenced "typ".toList (Tag.ofInfo? "typ".toList) ∧
      ∃ s line rest opening, Opens content block s line rest opening ∧
        KeepsTo content block (opening.nest (s.columns line))
          (containerOf (s.split line).1 opening).length := by
  intro content block
  have member : .block block ∈ constructs content := by decide
  exact ⟨member, rfl, fence_keepsTo member rfl⟩

/-- The second line has left the inner quote, but is taken as code. -/
theorem later_line_outside_quote : ¬ ∀ content block info tag s line rest opening,
    .block block ∈ constructs content → block.kind = .fenced info tag →
    Opens content block s line rest opening →
    ∀ later, block.Later content later → (opening.nest (s.columns line)).Holds later := by
  intro always
  let content := "> > ```\n> x\n".toList
  let block : Block := ⟨.fenced [] none, 0, 11, "x\n".toList, "> > ".toList⟩
  let first : Line := ⟨0, 7, "> > ```".toList⟩
  let second : Line := ⟨8, 11, "> x".toList⟩
  let opening : Opening := ⟨"> > ".toList, [], ⟨'`', 3⟩, []⟩
  have member : .block block ∈ constructs content := by decide
  have reads : Reads content .initial (lines content) := .start
  have opens : Opens content block .initial first [second] opening := by
    refine ⟨?_, by decide, by decide, by decide⟩
    have whole : lines content = [first, second] := by decide
    rwa [whole] at reads
  have later : block.Later content second := ⟨by decide, by decide, by decide⟩
  obtain ⟨column, rest, after, _⟩ := always _ _ _ _ _ _ _ _ member rfl opens second later
  cases after

end BookHighlight.Markdown
