import BookHighlight.Data.Shown

namespace BookHighlight

open Data

/-- What a run of text looks like. The foreground is a text or null, save in theme files that give
    a value of another type. -/
structure Style where
  foreground : Value := .null
  bold : Bool := false
  italic : Bool := false
  underline : Bool := false

namespace Style

instance : BEq Style where
  beq s t := s.foreground == t.foreground && s.bold == t.bold && s.italic == t.italic &&
    s.underline == t.underline

def colour (name : String) : Style := { foreground := .text name }

def isPlain (s : Style) : Bool := !(s.foreground.isTruthy || s.bold || s.italic || s.underline)

def css (s : Style) : String :=
  (if s.foreground.isTruthy then "color:" ++ s.foreground.plain ++ ";" else "") ++
  (if s.bold then "font-weight:bold;" else "") ++
  (if s.italic then "font-style:italic;" else "") ++
  (if s.underline then "text-decoration:underline;" else "")

end Style

end BookHighlight
