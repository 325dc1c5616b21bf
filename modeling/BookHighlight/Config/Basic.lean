import BookHighlight.Number.Binary64

namespace BookHighlight

def standardBinary : String := "typst"

def standardTimeout : Binary64 := .finite false (15 * twoTo 49) (-48)

example : Binary64.ofDecimal false 30 0 = standardTimeout := by decide

def standardPrelude : String := "#set page(width: 120mm, height: auto, margin: 0.5cm)\n"

structure Config where
  disableInline : Bool := false
  typstDefault : Bool := false
  render : Bool := false
  theme : String := "solarized-dark"
  typstBinary : String := standardBinary
  /-- seconds that one compilation may take -/
  timeout : Binary64 := standardTimeout
  /-- how many blocks are processed at once -/
  jobs : Nat
  /-- text put in front of what is compiled -/
  prelude : String := standardPrelude
  deriving DecidableEq, Repr

namespace Config

def defaultJobs (processors : Option Nat) : Nat := max 1 (min 4 (processors.getD 1))

def standard (processors : Option Nat) : Config := { jobs := defaultJobs processors }

end Config

end BookHighlight
