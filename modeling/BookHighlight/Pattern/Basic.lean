import BookHighlight.Pattern.CharSet

namespace BookHighlight

/-- A regular expression over characters. Alternatives and repetitions are tried in order and
    tried again when what follows fails. -/
inductive Pattern where
  | empty
  | one (set : CharSet)
  | seq (first second : Pattern)
  | either (first second : Pattern)
  /-- at least `least` times, at most `most` when that is given; `greedy` prefers more -/
  | times (body : Pattern) (least : Nat) (most : Option Nat) (greedy : Bool)
  /-- the first way in which the body matches, never another -/
  | atomic (body : Pattern)
  | lineStart
  | lineEnd
  | textStart
  | textEnd
  | wordBoundary (negated : Bool)
  | ahead (negated : Bool) (body : Pattern)
  | behind (negated : Bool) (width : Nat) (body : Pattern)
  deriving DecidableEq, Repr, Inhabited

namespace Pattern

def literal (c : Char) : Pattern := .one (CharSet.single c false)

def sequence : List Pattern → Pattern
  | [] => .empty
  | [p] => p
  | p :: rest => .seq p (sequence rest)

def widths : Pattern → Nat × Option Nat
  | .one _ => (1, some 1)
  | .seq p q =>
    let (least, most) := p.widths
    let (least', most') := q.widths
    (least + least', do return (← most) + (← most'))
  | .either p q =>
    let (least, most) := p.widths
    let (least', most') := q.widths
    (min least least', do return max (← most) (← most'))
  | .times p least most _ =>
    let (least', most') := p.widths
    (least * least', if most' = some 0 then some 0 else do return (← most) * (← most'))
  | .atomic p => p.widths
  | _ => (0, some 0)

def width? (p : Pattern) : Option Nat :=
  let (least, most) := p.widths
  if most = some least then some least else none

/-- What compiling the text of a pattern comes to: a pattern, a fault of the text, or an error of
    another kind. -/
inductive Compiled where
  | pattern (p : Pattern)
  | invalid
  | broken

abbrev Dialect := List Char → Compiled

end Pattern

end BookHighlight
