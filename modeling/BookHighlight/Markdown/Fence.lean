import BookHighlight.Markdown.Column
import BookHighlight.Markdown.Line
import BookHighlight.Text.Digit

namespace BookHighlight.Markdown

def listMarker? : List Char → Option (List Char × List Char)
  | [] => none
  | c :: rest =>
    if c = '-' ∨ c = '+' ∨ c = '*' then some ([c], rest)
    else
      let digits := (c :: rest).takeWhile Text.isDecimal
      match (c :: rest).drop digits.length with
      | d :: rest =>
        if 1 ≤ digits.length ∧ digits.length ≤ 9 ∧ (d = '.' ∨ d = ')') then
          some (digits ++ [d], rest)
        else none
      | [] => none

def spaces (s : List Char) : List Char := s.takeWhile (· == ' ')

structure ListItem where
  lead : Nat
  marker : Nat
  gap : Option Nat
  deriving DecidableEq, Repr

def ListItem.width (item : ListItem) : Nat := item.lead + item.marker + item.gap.getD 0

def ListItem.ofText? (s : List Char) : Option ListItem :=
  let lead := (spaces s).length
  if 3 < lead then none
  else
    match listMarker? (s.drop lead) with
    | none => none
    | some (marker, rest) =>
      let gap := (spaces rest).length
      if 0 < gap then some ⟨lead, marker.length, some (min gap 4)⟩
      else if rest.isEmpty then some ⟨lead, marker.length, none⟩
      else none

def containerMarker? (s : List Char) : Option (List Char × List Char) :=
  match s with
  | '>' :: rest =>
    match rest with
    | ' ' :: rest => some (['>', ' '], rest)
    | rest => some (['>'], rest)
  | _ =>
    match listMarker? s with
    | some (marker, rest) =>
      let gap := (spaces rest).take 4
      if gap.isEmpty then none else some (marker ++ gap, rest.drop gap.length)
    | none => none

structure Fence where
  mark : Char
  length : Nat
  deriving DecidableEq, Repr

def Fence.ofText? (s : List Char) : Option (Fence × List Char) :=
  match s with
  | c :: _ =>
    if c = '`' ∨ c = '~' then
      let run := s.takeWhile (· == c)
      if 3 ≤ run.length then some (⟨c, run.length⟩, s.drop run.length) else none
    else none
  | [] => none

def Fence.closedBy (fence : Fence) (text : List Char) : Bool :=
  let lead := (spaces text).length
  let text := text.drop lead
  let run := (text.takeWhile (· == fence.mark)).length
  lead ≤ 3 && fence.length ≤ run && Text.isBlankText (text.drop run)

structure Opening where
  container : List Char
  indent : List Char
  fence : Fence
  info : List Char
  deriving DecidableEq, Repr

/-- Reads markers, of which those in `container` are read already, and then a fence. Each marker
    takes a character, so the text is budget enough. -/
def openingFrom : (budget container : List Char) → List Char → Option Opening
  | [], _, _ => none
  | _ :: budget, container, s =>
    let indent := spaces s
    let rest := s.drop indent.length
    if 3 < indent.length then none
    else
      match Fence.ofText? rest with
      | some (fence, info) =>
        if fence.mark = '`' ∧ '`' ∈ info then none else some ⟨container, indent, fence, info⟩
      | none =>
        match containerMarker? rest with
        | some (marker, rest) => openingFrom budget (container ++ indent ++ marker) rest
        | none => none

def Opening.ofText? (s : List Char) : Option Opening := openingFrom s [] s

/-- Container markers with every character of a list marker as a space: lines inside a list item
    are indented past its marker. -/
def blankMarkers (container : List Char) : List Char :=
  container.map fun c =>
    if c = '-' ∨ c = '+' ∨ c = '*' ∨ c = '.' ∨ c = ')' ∨ Text.isDecimal c = true then ' ' else c

/-- Removes the container's part from a line of a fenced block. Quote marks must match; of the
    spaces as many as there are. -/
def stripContainer : (container : List Char) → List Char → List Char
  | [], text => text
  | _ :: _, [] => []
  | p :: container, c :: text =>
    if c = p then stripContainer container text
    else if p = ' ' then stripContainer container (c :: text)
    else c :: text

def Line.continues (line : Line) (container : List Char) : Bool :=
  if '>' ∈ container then (line.text.dropWhile (· == ' ')).head? == some '>'
  else line.isBlank || container.length ≤ indentWidth line.text

def isHeading (text : List Char) : Bool :=
  let lead := (spaces text).length
  let text := text.drop lead
  let level := (text.takeWhile (· == '#')).length
  let after := text.drop level
  lead ≤ 3 && 1 ≤ level && level ≤ 6 && after.head?.all isIndentation

end BookHighlight.Markdown
