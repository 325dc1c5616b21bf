import BookHighlight.Markdown.Fence
import BookHighlight.Tag

namespace BookHighlight.Markdown

inductive BlockKind where
  | fenced (info : List Char) (tag : Option Tag)
  | indented
  deriving DecidableEq, Repr

structure Block where
  kind : BlockKind
  start : Nat
  stop : Nat
  code : List Char
  lead : List Char
  deriving DecidableEq, Repr

/-- What the lines so far leave behind: the content columns of the open list items, innermost
    first, and whether the last line belongs to a paragraph or is blank. -/
structure BlockState where
  items : List Nat
  paragraph : Bool
  afterBlank : Bool
  deriving DecidableEq, Repr

namespace BlockState

def initial : BlockState := ⟨[], false, true⟩

def base (s : BlockState) : Nat := s.items.headD 0

/-- Closes the list items that a line indented by `indent` is not inside; a line that continues a
    paragraph closes none. -/
def atIndent (s : BlockState) (indent : Nat) : BlockState :=
  let lazy := s.paragraph && !s.afterBlank
  { s with
    items := if lazy then s.items else s.items.dropWhile (indent < ·)
    afterBlank := false }

def openItem (s : BlockState) (column : Nat) (item : ListItem) : BlockState :=
  let marker := column + item.lead
  let content := marker + item.marker + item.gap.getD 1
  { s with items := content :: s.items.dropWhile (marker < ·) }

end BlockState

def fencedLines (container lead : List Char) (fence : Fence) :
    List Line → List (Line × List Char) × Option Line
  | [] => ([], none)
  | line :: rest =>
    if line.continues container then
      let text := stripContainer lead line.text
      if fence.closedBy text then ([], some line)
      else
        let (body, closing) := fencedLines container lead fence rest
        ((line, text) :: body, closing)
    else ([], none)

def joinLines (texts : List (List Char)) : List Char := texts.flatMap (· ++ ['\n'])

def dropBlankEnd {α : Type} (line : α → Line) (items : List α) : List α :=
  (items.reverse.dropWhile fun item => (line item).isBlank).reverse

/-- The block that an opening fence starts, and the number of lines that it takes after its first.
    Blank lines before the end of the container are not part of a block that nothing closes. -/
def fencedBlock (lead : List Char) (opening : Opening) (line : Line) (rest : List Line) :
    Block × Nat :=
  let container := lead ++ blankMarkers opening.container
  let (body, closing) := fencedLines container (container ++ opening.indent) opening.fence rest
  let info := Text.trim opening.info
  let block := fun (stop : Nat) (body : List (Line × List Char)) => ({
    kind := .fenced info (Tag.ofInfo? info)
    start := line.start
    stop
    code := joinLines (body.map (·.2))
    lead := lead ++ opening.container ++ opening.indent } : Block)
  match closing with
  | some closing => (block closing.stop body, body.length + 1)
  | none =>
    let body := dropBlankEnd (·.1) body
    (block ((body.map (·.1)).getLastD line).stop body, body.length)

def indentedBlock (base : Nat) (line : Line) (rest : List Line) : Block × Nat :=
  let width := base + 4
  let body := dropBlankEnd id
    (rest.takeWhile fun line => line.isBlank || width ≤ indentWidth line.text)
  let block : Block := {
    kind := .indented
    start := line.start
    stop := (body.getLastD line).stop
    code := joinLines ((line :: body).map fun line => (splitColumns width line.text).2)
    lead := List.replicate base ' ' }
  (block, body.length)

def BlockState.step (s : BlockState) (line : Line) (rest : List Line) :
    BlockState × Option (Block × Nat) :=
  if line.isBlank then ({ s with paragraph := false, afterBlank := true }, none)
  else
    let indent := indentWidth line.text
    let s := s.atIndent indent
    if !s.paragraph && s.base + 4 ≤ indent then
      ({ s with paragraph := false }, some (indentedBlock s.base line rest))
    else
      let column := min s.base indent
      let (lead, text) := splitColumns column line.text
      let item := ListItem.ofText? text
      let s := match item with
        | some item => s.openItem column item
        | none => s
      match Opening.ofText? text with
      | some opening => ({ s with paragraph := false }, some (fencedBlock lead opening line rest))
      | none =>
        let hasText := match item with
          | some item => decide (item.width < text.length)
          | none => true
        ({ s with paragraph := !isHeading line.text && hasText }, none)

/-- The blocks that start at the lines after the first `skip`, which belong to a block already
    found. -/
def blocksFrom : (skip : Nat) → BlockState → List Line → List Block
  | _, _, [] => []
  | skip + 1, s, _ :: rest => blocksFrom skip s rest
  | 0, s, line :: rest =>
    match s.step line rest with
    | (s, some (block, taken)) => block :: blocksFrom taken s rest
    | (s, none) => blocksFrom 0 s rest

def blocks (content : List Char) : List Block := blocksFrom 0 .initial (lines content)

end BookHighlight.Markdown
