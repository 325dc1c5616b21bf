import BookHighlight.Markdown.Construct

namespace BookHighlight

structure Edit where
  start : Nat
  stop : Nat
  replacement : List Char
  deriving DecidableEq, Repr

def spliceFrom (content : List Char) : (cursor : Nat) → List Edit → List Char
  | cursor, [] => content.drop cursor
  | cursor, edit :: rest =>
    Markdown.slice content cursor edit.start ++ edit.replacement ++
      spliceFrom content edit.stop rest

/-- The text with edits made, which are sorted and do not overlap. -/
def splice (content : List Char) (edits : List Edit) : List Char := spliceFrom content 0 edits

@[simp] theorem splice_nil (content : List Char) : splice content [] = content := rfl

end BookHighlight
