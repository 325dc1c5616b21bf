import BookHighlight.Theme.Style

namespace BookHighlight

def pageForeground : String := "var(--fg)"

structure Theme where
  name : String
  default : Style := .colour pageForeground
  styles : List (String × Style) := []

def beforeDots : List Char → List (List Char)
  | [] => []
  | c :: rest => (beforeDots rest).map (c :: ·) ++ if c = '.' then [[]] else []

/-- A dotted name and the names above it, from the name itself to its first segment. -/
def dottedPrefixes (s : List Char) : List (List Char) := s :: beforeDots s

namespace Theme

def styleOfScope? (theme : Theme) (scope : String) : Option Style :=
  (dottedPrefixes scope.toList).findSome? fun selector =>
    theme.styles.lookup (String.ofList selector)

def styleFor (theme : Theme) (scopes : List String) : Style :=
  (scopes.reverse.findSome? theme.styleOfScope?).getD theme.default

end Theme

end BookHighlight
