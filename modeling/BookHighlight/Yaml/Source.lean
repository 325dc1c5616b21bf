namespace BookHighlight.Yaml

structure Source where
  column : Nat
  rest : List Char
  deriving DecidableEq, Repr

def blankAhead : List Char → Bool
  | [] => true
  | c :: _ => c == ' ' || c == '\t' || c == '\n'

def isSeparator (mark : Char) : List Char → Bool
  | a :: b :: c :: rest => a == mark && b == mark && c == mark && blankAhead rest
  | _ => false

namespace Source

def drop (s : Source) (n : Nat) : Source := ⟨s.column + n, s.rest.drop n⟩

def atSeparator (s : Source) : Bool :=
  s.column == 0 && (isSeparator '-' s.rest || isSeparator '.' s.rest)

def atEnd (s : Source) : Bool := s.rest.isEmpty || s.atSeparator

def atMark (s : Source) (mark : Char) : Bool :=
  match s.rest with
  | c :: rest => c == mark && blankAhead rest
  | [] => false

def skipSpaces (flow : Bool) (s : Source) : Source :=
  s.drop (s.rest.takeWhile fun c => c == ' ' || (flow && c == '\t')).length

/-- Skips blanks, line breaks and comments from a column on; also tells whether the place reached
    is the first on its line. Tabs are blanks inside brackets only. -/
def skipFrom (flow : Bool) : (comment fresh : Bool) → (column : Nat) → List Char → Source × Bool
  | _, fresh, column, [] => (⟨column, []⟩, fresh)
  | comment, fresh, column, c :: rest =>
    if c == '\n' then skipFrom flow false true 0 rest
    else if comment || c == ' ' || (flow && c == '\t') then
      skipFrom flow comment fresh (column + 1) rest
    else if c == '#' then skipFrom flow true fresh (column + 1) rest
    else (⟨column, c :: rest⟩, fresh)

def skip (flow : Bool) (s : Source) : Source × Bool := skipFrom flow false false s.column s.rest

end Source

end BookHighlight.Yaml
