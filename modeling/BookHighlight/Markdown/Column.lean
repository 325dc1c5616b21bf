namespace BookHighlight.Markdown

def nextColumn (column : Nat) (c : Char) : Nat :=
  if c = '\t' then column + (4 - column % 4) else column + 1

def isIndentation (c : Char) : Bool := c == ' ' || c == '\t'

def indentFrom (column : Nat) : List Char → Nat
  | [] => column
  | c :: rest => if isIndentation c then indentFrom (nextColumn column c) rest else column

def indentWidth (text : List Char) : Nat := indentFrom 0 text

/-- Splits spaces and tabs off a text that starts at `column`, up to the column `width`. Of a tab
    that reaches further the columns in excess stay, as spaces. -/
def splitColumnsFrom (width column : Nat) : List Char → List Char × List Char
  | [] => ([], List.replicate (column - width) ' ')
  | c :: rest =>
    if column < width ∧ isIndentation c = true then
      let (lead, rest) := splitColumnsFrom width (nextColumn column c) rest
      (c :: lead, rest)
    else ([], List.replicate (column - width) ' ' ++ c :: rest)

def splitColumns (width : Nat) (text : List Char) : List Char × List Char :=
  splitColumnsFrom width 0 text

end BookHighlight.Markdown
