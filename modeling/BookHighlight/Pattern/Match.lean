import BookHighlight.Pattern.Basic
import BookHighlight.Pattern.Cursor

namespace BookHighlight

/-- What is still to be matched: from a place in the text to the place where the match ends. -/
abbrev Continuation := Cursor → Option Cursor

namespace Pattern

def exactly (step : Continuation → Continuation) : Nat → Continuation → Continuation
  | 0, next => next
  | n + 1, next => step (exactly step n next)

/-- `step` run any number of times up to `limit`. A round that reads nothing is the last one, so
    the text ahead is budget enough: each further round takes at least one character of it. -/
def upTo (step : Continuation → Continuation) (greedy : Bool) :
    (budget : List Char) → (limit : Option Nat) → Continuation → Continuation
  | [], _, next, c => next c
  | _ :: budget, limit, next, c =>
    if limit = some 0 then next c
    else
      let again := fun (_ : Unit) => step (fun d =>
        if d.position = c.position then next d
        else upTo step greedy budget (limit.map (· - 1)) next d) c
      if greedy then again () <|> next c else next c <|> again ()

def atWordBoundary (c : Cursor) : Bool :=
  let isWordAt (chars : List Char) : Bool := chars.head?.any Text.isWord
  isWordAt c.before != isWordAt c.after

/-- Matches the pattern at a place and then what follows it, trying the ways in which the pattern
    matches there in order until what follows is met. -/
def run : Pattern → Continuation → Continuation
  | .empty, next, c => next c
  | .one set, next, c =>
    match c.after with
    | [] => none
    | char :: rest => if set.contains char then next (c.advance char rest) else none
  | .seq p q, next, c => run p (run q next) c
  | .either p q, next, c => run p next c <|> run q next c
  | .times p least most greedy, next, c =>
    exactly (run p) least
      (fun d => upTo (run p) greedy d.after (most.map (· - least)) next d) c
  | .atomic p, next, c => (run p some c).bind next
  | .lineStart, next, c => if c.before.head?.all (· == '\n') then next c else none
  | .lineEnd, next, c => if c.after.head?.all (· == '\n') then next c else none
  | .textStart, next, c => if c.before.isEmpty then next c else none
  | .textEnd, next, c => if c.after.isEmpty then next c else none
  | .wordBoundary negated, next, c => if atWordBoundary c != negated then next c else none
  | .ahead negated p, next, c => if (run p some c).isSome != negated then next c else none
  | .behind negated width p, next, c =>
    if ((c.back? width).bind (run p some)).isSome != negated then next c else none

def match? (p : Pattern) (c : Cursor) : Option Cursor := p.run some c

def Forward (next : Continuation) : Prop := ∀ c d, next c = some d → c.Reaches d

theorem either_of_orElse {α : Type} {o p : Option α} {a : α} (h : (o <|> p) = some a) :
    o = some a ∨ p = some a := by
  cases o with
  | none => exact .inr h
  | some _ => exact .inl h

theorem forward_some : Forward some := by
  intro c d h
  cases h
  exact .refl c

theorem exactly_forward {step : Continuation → Continuation}
    (hstep : ∀ next, Forward next → Forward (step next)) (n : Nat) {next : Continuation}
    (h : Forward next) : Forward (exactly step n next) := by
  induction n with
  | zero => exact h
  | succ n ih => exact hstep _ ih

theorem upTo_forward {step : Continuation → Continuation}
    (hstep : ∀ next, Forward next → Forward (step next)) (greedy : Bool) (budget : List Char)
    (limit : Option Nat) {next : Continuation} (h : Forward next) :
    Forward (upTo step greedy budget limit next) := by
  induction budget generalizing limit with
  | nil => exact h
  | cons _ budget ih =>
    intro c d found
    have again : ∀ e, step (fun d => if d.position = c.position then next d
        else upTo step greedy budget (limit.map (· - 1)) next d) c = some e → c.Reaches e := by
      intro e
      refine hstep _ (fun x y hxy => ?_) c e
      split at hxy
      · exact h x y hxy
      · exact ih _ x y hxy
    simp only [upTo] at found
    split at found
    · exact h c d found
    · split at found <;> rcases either_of_orElse found with found | found
      · exact again d found
      · exact h c d found
      · exact h c d found
      · exact again d found

theorem run_forward (p : Pattern) {next : Continuation} (h : Forward next) :
    Forward (run p next) := by
  induction p generalizing next with
  | empty => exact h
  | one set =>
    intro c d found
    simp only [run] at found
    split at found
    · cases found
    · next char rest after =>
      split at found
      · exact (Cursor.Reaches.advance after).trans (h _ _ found)
      · cases found
  | seq p q hp hq => exact hp (hq h)
  | either p q hp hq =>
    intro c d found
    rcases either_of_orElse found with found | found
    · exact hp h c d found
    · exact hq h c d found
  | times p least most greedy hp =>
    exact exactly_forward (fun _ h' => hp h') least
      (fun c d found => upTo_forward (fun _ h' => hp h') greedy c.after _ h c d found)
  | atomic p hp =>
    intro c d found
    obtain ⟨e, first, second⟩ := Option.bind_eq_some_iff.mp found
    exact (hp forward_some c e first).trans (h e d second)
  | lineStart | lineEnd | textStart | textEnd | wordBoundary | ahead | behind =>
    intro c d found
    simp only [run] at found
    split at found
    · exact h c d found
    · cases found

theorem match?_reaches {p : Pattern} {c d : Cursor} (h : p.match? c = some d) : c.Reaches d :=
  run_forward p forward_some c d h

end Pattern

end BookHighlight
