import BookHighlight.Text.Hexadecimal
import BookHighlight.Text.Printable
import BookHighlight.Text.Surrogate

namespace BookHighlight.Text

/-- One character of a quoted text: the quote and the backslash are escaped, and so is whatever a
    message cannot show, by the shortest of the three hexadecimal forms that holds it. -/
def quotedChar (quote c : Char) : List Char :=
  if c = quote ∨ c = '\\' then ['\\', c]
  else if c = '\n' then ['\\', 'n']
  else if c = '\r' then ['\\', 'r']
  else if c = '\t' then ['\\', 't']
  else if isPrintable c then [c]
  else if let some code := half? c then '\\' :: 'u' :: hexDigits 4 code
  else if c.toNat < 0x100 then '\\' :: 'x' :: hexDigits 2 c.toNat
  else if c.toNat < 0x10000 then '\\' :: 'u' :: hexDigits 4 c.toNat
  else '\\' :: 'U' :: hexDigits 8 c.toNat

def quoted (s : List Char) : List Char :=
  let quote := if '\'' ∈ s ∧ '"' ∉ s then '"' else '\''
  quote :: s.flatMap (quotedChar quote) ++ [quote]

end BookHighlight.Text
