import BookHighlight.Data.Value
import BookHighlight.Pattern.Basic

namespace BookHighlight

namespace Grammar

structure Rule (size : Nat) where
  source : String
  pattern : Pattern
  scope : Option String
  push : Option (Fin size)
  pop : Bool
  set : Option (Fin size)

structure Context (size : Nat) where
  name : Data.Key
  rules : List (Rule size)
  metaScope : Option String

end Grammar

/-- A lexical grammar. Rules name contexts by number, and every number is that of a context. -/
structure Grammar where
  name : String
  scope : String
  size : Nat
  contexts : List (Grammar.Context size)
  sized : contexts.length = size
  main : Fin size

namespace Grammar

def context (g : Grammar) (i : Fin g.size) : Context g.size := g.contexts.get (i.cast g.sized.symm)

def index? (g : Grammar) (name : String) : Option Nat := g.contexts.findIdx? (·.name == .text name)

end Grammar

end BookHighlight
