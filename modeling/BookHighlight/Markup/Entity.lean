namespace BookHighlight.Markup

/-- The entity written for a character that HTML or Markdown would take for markup, or that would
    end the line. -/
def entity? : Char → Option String
  | '&' => some "&amp;"
  | '<' => some "&lt;"
  | '>' => some "&gt;"
  | '\\' => some "&#92;"
  | '`' => some "&#96;"
  | '*' => some "&#42;"
  | '_' => some "&#95;"
  | '[' => some "&#91;"
  | ']' => some "&#93;"
  | '|' => some "&#124;"
  | '~' => some "&#126;"
  | '$' => some "&#36;"
  | '\n' => some "&#10;"
  | _ => none

def escapeChar (c : Char) : List Char :=
  match entity? c with
  | some entity => entity.toList
  | none => [c]

def escape (s : List Char) : List Char := s.flatMap escapeChar

theorem escape_append (s t : List Char) : escape (s ++ t) = escape s ++ escape t := by
  simp [escape]

end BookHighlight.Markup
