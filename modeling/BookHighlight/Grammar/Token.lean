import BookHighlight.Grammar.Basic
import BookHighlight.Pattern.Match

namespace BookHighlight

structure Token where
  text : List Char
  start : Nat
  stop : Nat
  scopes : List String
  deriving DecidableEq, Repr

namespace Grammar

def withScope (scopes : List String) : Option String → List String
  | some scope => if scope.isEmpty then scopes else scopes ++ [scope]
  | none => scopes

structure Frame (size : Nat) where
  context : Fin size
  scopes : List String

/-- The open contexts: the innermost one and those around it, from the inside out. -/
structure Stack (size : Nat) where
  top : Frame size
  below : List (Frame size)

def Stack.depth {size : Nat} (stack : Stack size) : Nat := stack.below.length + 1

def maxDepth : Nat := 64

section

variable (g : Grammar)

def enter (scopes : List String) (target : Fin g.size) : List String :=
  withScope scopes (g.context target).metaScope

def root : Stack g.size := ⟨⟨g.main, g.enter [] g.main⟩, []⟩

def push (stack : Stack g.size) (target : Fin g.size) (scope : Option String) :
    Stack g.size × List String :=
  let scopes := stack.top.scopes
  if maxDepth ≤ stack.depth then (stack, withScope scopes scope)
  else
    let entered := g.enter scopes target
    (⟨⟨target, entered⟩, stack.top :: stack.below⟩, withScope entered scope)

def pop (stack : Stack g.size) : Stack g.size :=
  match stack.below with
  | [] => stack
  | frame :: below => ⟨frame, below⟩

def apply (rule : Rule g.size) (stack : Stack g.size) : Stack g.size × List String :=
  let scopes := withScope stack.top.scopes rule.scope
  match rule.set with
  | some target => g.push (g.pop stack) target rule.scope
  | none =>
    if rule.pop then (g.pop stack, scopes)
    else
      match rule.push with
      | some target => g.push stack target rule.scope
      | none => (stack, scopes)

def Rule.mayBeEmpty {size : Nat} (rule : Rule size) : Bool := rule.pop && rule.set.isNone

/-- The first rule that matches at a place, and where its match ends. Empty matches count only
    where they close a context. -/
def firstMatch {size : Nat} (c : Cursor) (closable : Bool) (rules : List (Rule size)) :
    Option (Rule size × Cursor) :=
  rules.findSome? fun rule =>
    match rule.pattern.match? c with
    | some d =>
      if d.position = c.position && !(closable && rule.mayBeEmpty) then none else some (rule, d)
    | none => none

/-- Closes contexts for as long as the first match is empty. What remains is the stack on which
    the text at this place is read, and the rule that reads it, if any. -/
def settle (c : Cursor) (top : Frame g.size) :
    List (Frame g.size) → Stack g.size × Option (Rule g.size × Cursor)
  | [] => (⟨top, []⟩, firstMatch c false (g.context top.context).rules)
  | frame :: below =>
    match firstMatch c true (g.context top.context).rules with
    | some (rule, d) =>
      if d.position = c.position then settle c frame below
      else (⟨top, frame :: below⟩, some (rule, d))
    | none => (⟨top, frame :: below⟩, none)

def nextToken (stack : Stack g.size) (c : Cursor) (char : Char) (rest : List Char) :
    Token × Stack g.size × Cursor :=
  match g.settle c stack.top stack.below with
  | (stack, none) =>
    (⟨[char], c.position, c.position + 1, stack.top.scopes⟩, stack, c.advance char rest)
  | (stack, some (rule, d)) =>
    let (after, scopes) := g.apply rule stack
    (⟨c.textTo d, c.position, d.position, scopes⟩, after, d)

/-- The tokens from a place on. Each takes at least one character, so the text ahead is budget
    enough. -/
def tokensFrom : (budget : List Char) → Stack g.size → Cursor → List Token
  | [], _, _ => []
  | _ :: budget, stack, c =>
    match c.after with
    | [] => []
    | char :: rest =>
      let (token, stack, c) := g.nextToken stack c char rest
      token :: tokensFrom budget stack c

def tokens (text : List Char) : List Token := g.tokensFrom text g.root (.start text)

end

end Grammar

end BookHighlight
