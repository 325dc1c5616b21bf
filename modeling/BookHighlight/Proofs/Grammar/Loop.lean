import BookHighlight.Grammar.Token

namespace BookHighlight

namespace Cursor.Reaches

variable {c d : Cursor}

theorem position_le (h : c.Reaches d) : c.position ≤ d.position := by
  obtain ⟨read, _, _, position⟩ := h
  omega

theorem length_eq (h : c.Reaches d) :
    c.after.length + c.position = d.after.length + d.position := by
  obtain ⟨read, after, _, position⟩ := h
  rw [after, List.length_append]
  omega

theorem eq_of_position (h : c.Reaches d) (same : d.position = c.position) : d = c := by
  obtain ⟨read, after, before, position⟩ := h
  have empty : read = [] := List.length_eq_zero_iff.mp (by omega)
  subst empty
  cases c
  cases d
  simp_all

end Cursor.Reaches

/-- A way to match patterns, of which nothing is known but that a match ends at or after its
    start, in the same text. -/
structure Engine where
  match? : Pattern → Cursor → Option Cursor
  reaches : ∀ {p c d}, match? p c = some d → c.Reaches d

namespace Engine

def backtracking : Engine := ⟨Pattern.match?, Pattern.match?_reaches⟩

open Grammar

variable {size : Nat}

def firstMatch (e : Engine) (c : Cursor) (closable : Bool) (rules : List (Rule size)) :
    Option (Rule size × Cursor) :=
  rules.findSome? fun rule =>
    match e.match? rule.pattern c with
    | some d =>
      if d.position = c.position && !(closable && rule.mayBeEmpty) then none else some (rule, d)
    | none => none

theorem firstMatch_backtracking (c : Cursor) (closable : Bool) (rules : List (Rule size)) :
    backtracking.firstMatch c closable rules = Grammar.firstMatch c closable rules := rfl

theorem firstMatch_some {e : Engine} {c d : Cursor} {closable : Bool} {rules : List (Rule size)}
    {rule : Rule size} (h : e.firstMatch c closable rules = some (rule, d)) :
    c.Reaches d ∧
      (c.position < d.position ∨ d = c ∧ closable = true ∧ rule.mayBeEmpty = true) := by
  obtain ⟨tried, _, found⟩ := List.exists_of_findSome?_eq_some h
  cases matched : e.match? tried.pattern c <;> simp only [matched] at found
  · cases found
  · rename_i reached
    have forward := e.reaches matched
    split at found
    · cases found
    · rename_i counts
      cases found
      refine ⟨forward, ?_⟩
      by_cases same : d.position = c.position
      · right
        exact ⟨forward.eq_of_position same, by simpa [same] using counts⟩
      · left
        have := forward.position_le
        omega

end Engine

namespace Grammar

structure Progress (size : Nat) where
  stack : Stack size
  cursor : Cursor
  emitted : List Token

def Progress.budget {size : Nat} (p : Progress size) : Nat :=
  2 * p.cursor.after.length + p.stack.below.length

section

variable (e : Engine) (g : Grammar)

def opening (text : List Char) : Progress g.size := ⟨g.root, .start text, []⟩

def round (p : Progress g.size) : Option (Progress g.size) :=
  match p.cursor.after with
  | [] => none
  | char :: rest =>
    let position := p.cursor.position
    match e.firstMatch p.cursor (!p.stack.below.isEmpty) (g.context p.stack.top.context).rules with
    | none => some {
        stack := p.stack
        cursor := p.cursor.advance char rest
        emitted := p.emitted ++ [⟨[char], position, position + 1, p.stack.top.scopes⟩] }
    | some (rule, d) =>
      let (stack, scopes) := g.apply rule p.stack
      if position < d.position then some {
        stack
        cursor := d
        emitted := p.emitted ++ [⟨p.cursor.textTo d, position, d.position, scopes⟩] }
      else some { p with stack }

inductive Finishes : Progress g.size → Nat → Progress g.size → Prop where
  | stop {p} : g.round e p = none → Finishes p 0 p
  | round {p q r n} : g.round e p = some q → Finishes q n r → Finishes p (n + 1) r

end

section

variable {e : Engine} {g : Grammar}

theorem pop_depth (stack : Stack g.size) : (g.pop stack).below.length = stack.below.length - 1 := by
  unfold pop
  split <;> simp_all

theorem push_depth (stack : Stack g.size) (target : Fin g.size) (scope : Option String) :
    (g.push stack target scope).1.below.length ≤ stack.below.length + 1 := by
  unfold push
  split <;> simp

theorem apply_depth (rule : Rule g.size) (stack : Stack g.size) :
    (g.apply rule stack).1.below.length ≤ stack.below.length + 1 := by
  have popped := g.pop_depth stack
  simp only [apply]
  split
  · have pushed := g.push_depth (g.pop stack) ‹_› rule.scope
    omega
  · split
    · simp only
      omega
    · split
      · exact g.push_depth stack _ rule.scope
      · simp

theorem apply_mayBeEmpty {rule : Rule g.size} (h : rule.mayBeEmpty = true) (stack : Stack g.size) :
    (g.apply rule stack).1 = g.pop stack := by
  simp only [Rule.mayBeEmpty, Bool.and_eq_true, Option.isNone_iff_eq_none] at h
  simp [apply, h.1, h.2]

/-- What a round does: it reads text and emits the token that covers it, or it closes a context. -/
theorem round_cases {p q : Progress g.size} (h : g.round e p = some q) :
    (p.cursor.Reaches q.cursor ∧ p.cursor.position < q.cursor.position ∧
      q.stack.below.length ≤ p.stack.below.length + 1 ∧
      ∃ scopes, q.emitted = p.emitted ++
        [⟨p.cursor.textTo q.cursor, p.cursor.position, q.cursor.position, scopes⟩]) ∨
    ∃ top frame below, p.stack = ⟨top, frame :: below⟩ ∧
      q = ⟨⟨frame, below⟩, p.cursor, p.emitted⟩ := by
  simp only [round] at h
  split at h
  · cases h
  · rename_i char rest ahead
    split at h
    · cases h
      have reached := Cursor.Reaches.advance ahead
      refine .inl ⟨reached, Nat.lt_succ_self _, Nat.le_succ _, p.stack.top.scopes, ?_⟩
      simp [Cursor.textTo, Cursor.advance, ahead]
    · rename_i rule d found
      obtain ⟨forward, further | ⟨rfl, closable, mayBeEmpty⟩⟩ := Engine.firstMatch_some found
      · simp only [further, ↓reduceIte] at h
        cases h
        exact .inl ⟨forward, further, g.apply_depth rule p.stack, _, rfl⟩
      · simp only [Nat.lt_irrefl, ↓reduceIte, apply_mayBeEmpty mayBeEmpty] at h
        cases h
        right
        obtain ⟨⟨top, below⟩, cursor, emitted⟩ := p
        cases below with
        | nil => simp at closable
        | cons frame below => exact ⟨top, frame, below, rfl, rfl⟩

theorem round_budget {p q : Progress g.size} (h : g.round e p = some q) : q.budget < p.budget := by
  rcases round_cases h with ⟨reached, further, depth, _⟩ | ⟨top, frame, below, stack, rfl⟩
  · have length := reached.length_eq
    simp only [Progress.budget]
    omega
  · simp [Progress.budget, stack]

theorem round_eq_none {p : Progress g.size} : g.round e p = none ↔ p.cursor.after = [] := by
  simp only [round]
  split
  · simp_all
  · rename_i char rest ahead
    simp only [ahead, reduceCtorEq, iff_false]
    split
    · simp
    · split <;> simp

theorem exists_finishes (p : Progress g.size) : ∃ n q, Finishes e g p n q ∧ n ≤ p.budget := by
  cases next : g.round e p with
  | none => exact ⟨0, p, .stop next, Nat.zero_le _⟩
  | some q =>
    have smaller := round_budget next
    obtain ⟨n, r, finishes, bound⟩ := exists_finishes q
    exact ⟨n + 1, r, .round next finishes, by omega⟩
termination_by p.budget

theorem Finishes.after_eq_nil {p q : Progress g.size} {n : Nat} (h : Finishes e g p n q) :
    q.cursor.after = [] := by
  induction h with
  | stop done => exact round_eq_none.mp done
  | round _ _ ih => exact ih

theorem Finishes.keeps {Inv : Progress g.size → Prop}
    (step : ∀ p q, g.round e p = some q → Inv p → Inv q) {p q : Progress g.size} {n : Nat}
    (h : Finishes e g p n q) (start : Inv p) : Inv q := by
  induction h with
  | stop _ => exact start
  | round next _ ih => exact ih (step _ _ next start)

theorem settle_unmatched {c : Cursor} {top : Frame g.size} {below : List (Frame g.size)}
    (h : Grammar.firstMatch c (!below.isEmpty) (g.context top.context).rules = none) :
    g.settle c top below = (⟨top, below⟩, none) := by
  cases below with
  | nil => exact congrArg (Prod.mk (⟨top, []⟩ : Stack g.size)) h
  | cons frame below =>
    simp only [List.isEmpty_cons, Bool.not_false] at h
    simp only [settle, h]

theorem settle_further {c d : Cursor} {top : Frame g.size} {below : List (Frame g.size)}
    {rule : Rule g.size}
    (h : Grammar.firstMatch c (!below.isEmpty) (g.context top.context).rules = some (rule, d))
    (further : c.position < d.position) :
    g.settle c top below = (⟨top, below⟩, some (rule, d)) := by
  cases below with
  | nil => exact congrArg (Prod.mk (⟨top, []⟩ : Stack g.size)) h
  | cons frame below =>
    simp only [List.isEmpty_cons, Bool.not_false] at h
    have elsewhere : d.position ≠ c.position := by omega
    simp only [settle, h, elsewhere, ↓reduceIte]

/-- A round emits the next token, or it is the first of the closings that the next token takes. -/
theorem nextToken_round {p q : Progress g.size} {char : Char} {rest : List Char}
    (ahead : p.cursor.after = char :: rest) (h : g.round .backtracking p = some q) :
    (∃ token, g.nextToken p.stack p.cursor char rest = (token, q.stack, q.cursor) ∧
      q.emitted = p.emitted ++ [token]) ∨
    q.cursor = p.cursor ∧ q.emitted = p.emitted ∧
      g.nextToken p.stack p.cursor char rest = g.nextToken q.stack p.cursor char rest := by
  obtain ⟨⟨top, below⟩, c, emitted⟩ := p
  simp only at ahead
  simp only [round, ahead, Engine.firstMatch_backtracking] at h
  split at h
  · rename_i found
    cases h
    exact .inl ⟨_, by simp only [nextToken, settle_unmatched found], rfl⟩
  · rename_i rule d found
    obtain ⟨_, further | ⟨rfl, closable, mayBeEmpty⟩⟩ :=
      Engine.firstMatch_some (e := .backtracking) found
    · simp only [further, ↓reduceIte] at h
      cases h
      exact .inl ⟨_, by simp only [nextToken, settle_further found further], rfl⟩
    · simp only [Nat.lt_irrefl, ↓reduceIte, apply_mayBeEmpty mayBeEmpty] at h
      cases h
      cases below with
      | nil => simp at closable
      | cons frame below =>
        simp only [List.isEmpty_cons, Bool.not_false] at found
        exact .inr ⟨rfl, rfl, by simp only [nextToken, settle, found, ↓reduceIte, pop]⟩

theorem Finishes.emitted_eq {p q : Progress g.size} {n : Nat}
    (h : Finishes .backtracking g p n q) (budget : List Char)
    (enough : p.cursor.after.length ≤ budget.length) :
    q.emitted = p.emitted ++ g.tokensFrom budget p.stack p.cursor := by
  induction h generalizing budget with
  | @stop p done =>
    have ended := round_eq_none.mp done
    cases budget <;> simp [tokensFrom, ended]
  | @round p q r n next _ ih =>
    obtain ⟨char, rest, ahead⟩ : ∃ char rest, p.cursor.after = char :: rest := by
      cases ahead : p.cursor.after with
      | nil => simp [round_eq_none.mpr ahead] at next
      | cons char rest => exact ⟨char, rest, rfl⟩
    obtain ⟨b, budget, rfl⟩ : ∃ b more, budget = b :: more := by
      cases budget with
      | nil => simp [ahead] at enough
      | cons b more => exact ⟨b, more, rfl⟩
    rcases nextToken_round ahead next with ⟨token, taken, emitted⟩ | ⟨cursor, emitted, same⟩
    · have less : q.cursor.after.length ≤ budget.length := by
        rcases round_cases next with ⟨reached, further, _⟩ | ⟨top, frame, below, stack, rfl⟩
        · have length := reached.length_eq
          simp only [List.length_cons] at enough
          omega
        · simp at emitted
      rw [ih budget less, emitted]
      simp [tokensFrom, ahead, taken]
    · rw [ih (b :: budget) (by rw [cursor]; exact enough), emitted, cursor]
      simp [tokensFrom, ahead, same]

end

end Grammar

end BookHighlight
