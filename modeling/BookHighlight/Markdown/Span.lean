namespace BookHighlight.Markdown

structure Span where
  start : Nat
  stop : Nat
  code : List Char
  deriving DecidableEq, Repr

def beforeBlankLine : List Char → List Char
  | [] => []
  | c :: rest =>
    if c = '\n' ∧ (rest.dropWhile fun d => d == ' ' || d == '\t').head? = some '\n' then []
    else c :: beforeBlankLine rest

/-- Where the first run of exactly `width` backticks starts. `index` characters are read, the last
    `run` of them backticks. -/
def runIndexFrom? (width : Nat) : (index run : Nat) → List Char → Option Nat
  | index, run, [] => if run = width then some (index - run) else none
  | index, run, c :: rest =>
    if c = '`' then runIndexFrom? width (index + 1) (run + 1) rest
    else if run = width then some (index - run)
    else runIndexFrom? width (index + 1) 0 rest

def joinSpanLines : List Char → List Char
  | [] => []
  | '\r' :: '\n' :: rest => ' ' :: joinSpanLines rest
  | c :: rest => (if c = '\n' then ' ' else c) :: joinSpanLines rest

/-- The code between delimiters: line breaks become spaces, and one space goes from each end when
    there is one at both and something else between them. -/
def spanCode (s : List Char) : List Char :=
  let s := joinSpanLines s
  if s.head? = some ' ' ∧ s.getLast? = some ' ' ∧ s.any (· != ' ') = true then s.tail.dropLast
  else s

/-- The spans of a text at `position`, of which `skip` characters are already read. A backslash
    takes the next character with it; a run of backticks opens a span when a run of the same
    length follows before any blank line. -/
def spansFrom : (skip position : Nat) → List Char → List Span
  | _, _, [] => []
  | skip + 1, position, _ :: rest => spansFrom skip (position + 1) rest
  | 0, position, c :: rest =>
    if c = '\\' then spansFrom 1 (position + 1) rest
    else if c = '`' then
      let width := (rest.takeWhile (· == '`')).length + 1
      let after := beforeBlankLine (rest.drop (width - 1))
      match runIndexFrom? width 0 0 after with
      | some index =>
        ⟨position, position + width + index + width, spanCode (after.take index)⟩ ::
          spansFrom (width - 1 + index + width) (position + 1) rest
      | none => spansFrom (width - 1) (position + 1) rest
    else spansFrom 0 (position + 1) rest

end BookHighlight.Markdown
