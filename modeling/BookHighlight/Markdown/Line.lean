import BookHighlight.Text.Blank
import BookHighlight.Text.Line

namespace BookHighlight.Markdown

/-- A line of a document and where its text lies. The text includes a line break other than LF, CR
    and CRLF. -/
structure Line where
  start : Nat
  stop : Nat
  text : List Char
  deriving DecidableEq, Repr

def Line.isBlank (line : Line) : Bool := Text.isBlankText line.text

def lineText (line : Text.BrokenLine) : List Char :=
  if line.ending = ['\n'] ∨ line.ending = ['\r'] ∨ line.ending = ['\r', '\n'] then line.body
  else line.body ++ line.ending

def linesFrom : (offset : Nat) → List Text.BrokenLine → List Line
  | _, [] => []
  | offset, line :: rest =>
    ⟨offset, offset + (lineText line).length, lineText line⟩ ::
      linesFrom (offset + line.body.length + line.ending.length) rest

def lines (content : List Char) : List Line := linesFrom 0 (Text.brokenLines content)

end BookHighlight.Markdown
