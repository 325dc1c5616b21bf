import BookHighlight.Text.Blank
import BookHighlight.Text.Digit
import BookHighlight.Text.LetterCase
import BookHighlight.Text.Word

namespace BookHighlight

inductive CharItem where
  | range (low high : Char)
  | word
  | nonWord
  | digit
  | nonDigit
  | blank
  | nonBlank
  deriving DecidableEq, Repr

def CharItem.contains : CharItem → Char → Bool
  | .range low high, c => low ≤ c && c ≤ high
  | .word, c => Text.isWord c
  | .nonWord, c => !Text.isWord c
  | .digit, c => Text.isDecimal c
  | .nonDigit, c => !Text.isDecimal c
  | .blank, c => Text.isBlank c
  | .nonBlank, c => !Text.isBlank c

structure CharSet where
  items : List CharItem
  negated : Bool
  anyCase : Bool
  deriving DecidableEq, Repr

namespace CharSet

def single (c : Char) (anyCase : Bool) : CharSet := ⟨[.range c c], false, anyCase⟩

def notLineFeed : CharSet := ⟨[.range '\n' '\n'], true, false⟩

def everything : CharSet := ⟨[], true, false⟩

/-- Whether the set admits `c`. Only intervals disregard case: a class asks for `c` itself. -/
def contains (set : CharSet) (c : Char) : Bool :=
  let candidates := if set.anyCase then Text.caseVariants c else [c]
  set.items.any (fun
    | .range low high => candidates.any (CharItem.range low high).contains
    | item => item.contains c) != set.negated

end CharSet

end BookHighlight
