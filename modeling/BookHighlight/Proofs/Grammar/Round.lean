import BookHighlight.Proofs.Grammar.Stack
import BookHighlight.Proofs.Pattern.Repetition

namespace BookHighlight.Grammar

section

variable {size : Nat} {c : Cursor} {closable : Bool} {rule : Rule size} {rules : List (Rule size)}

theorem firstMatch_skip (unmatched : rule.pattern.match? c = none) :
    firstMatch c closable (rule :: rules) = firstMatch c closable rules := by
  simp only [firstMatch, List.findSome?_cons, unmatched]

theorem firstMatch_take {read : List Char} (found : rule.pattern.match? c = some (c.past read))
    (some : read ≠ []) :
    firstMatch c closable (rule :: rules) = Option.some (rule, c.past read) := by
  have elsewhere : (c.past read).position ≠ c.position := Nat.ne_of_gt (Cursor.lt_past some c)
  simp [firstMatch, found, elsewhere]

/-- Rules that the first characters ahead rule out have no part in what is found. -/
theorem firstMatch_of_outlook {s rest : List Char} (ahead : c.after = s ++ rest)
    {front : List (Rule size)} (fail : ∀ rule ∈ front, rule.pattern.outlook s = .fails)
    (back : List (Rule size)) :
    firstMatch c closable (front ++ back) = firstMatch c closable back := by
  induction front with
  | nil => rfl
  | cons rule front ih =>
    obtain ⟨first, later⟩ := List.forall_mem_cons.mp fail
    exact (firstMatch_skip (Pattern.match?_of_outlook ahead first)).trans (ih later)

end

def Progress.took {size : Nat} (p : Progress size) (read : List Char) (stack : Stack size)
    (scopes : List String) : Progress size where
  stack := stack
  cursor := p.cursor.past read
  emitted := p.emitted ++
    [⟨read, p.cursor.position, p.cursor.position + read.length, scopes⟩]

namespace Progress

variable {size : Nat} {p : Progress size} {read rest : List Char} {stack : Stack size}
  {scopes : List String}

theorem after_took (ahead : p.cursor.after = read ++ rest) :
    (p.took read stack scopes).cursor.after = rest := Cursor.after_past ahead

theorem took_lt (ahead : p.cursor.after = read ++ rest) (some : read ≠ []) :
    (p.took read stack scopes).cursor.after.length < p.cursor.after.length := by
  have length := List.length_pos_iff.mpr some
  rw [after_took ahead, ahead, List.length_append]
  omega

end Progress

section

variable {e : Engine} {g : Grammar} {text : List Char} {p : Progress g.size}

theorem round_of_matched {rule : Rule g.size} {read rest : List Char}
    (found : g.matched e p = some (rule, p.cursor.past read))
    (ahead : p.cursor.after = read ++ rest) (some : read ≠ []) : g.round e p =
      Option.some (p.took read (g.apply rule p.stack).1 (g.apply rule p.stack).2) := by
  have further := Cursor.lt_past some p.cursor
  have covered : p.cursor.textTo (p.cursor.past read) = read := by
    simp [Cursor.textTo, Cursor.past, ahead]
  have same : e.firstMatch p.cursor (!p.stack.below.isEmpty)
      (g.context p.stack.top.context).rules = Option.some (rule, p.cursor.past read) := found
  obtain ⟨char, more, rfl⟩ := List.exists_cons_of_ne_nil some
  rw [List.cons_append] at ahead
  simp only [round, ahead, same, further, ↓reduceIte, covered]
  rfl

theorem round_of_unmatched {char : Char} {rest : List Char} (nothing : g.matched e p = none)
    (ahead : p.cursor.after = char :: rest) :
    g.round e p = some (p.took [char] p.stack p.stack.top.scopes) := by
  have same : e.firstMatch p.cursor (!p.stack.below.isEmpty)
      (g.context p.stack.top.context).rules = none := nothing
  have next : p.cursor.advance char rest = p.cursor.past [char] :=
    Cursor.advance_past ahead []
  simp only [round, ahead, same, next]
  rfl

theorem Leads.tiled (h : Leads e g (g.opening text) p) : p.Tiled text := by
  induction h with
  | refl => exact opening_tiled
  | tail _ next ih => exact round_tiled next ih

theorem Leads.finishes {q last : Progress g.size} {n : Nat} (h : Leads e g p q)
    (finishes : Finishes e g q n last) : ∃ m, Finishes e g p m last := by
  induction h using Relation.ReflTransGen.head_induction_on with
  | refl => exact ⟨n, finishes⟩
  | head next _ ih =>
    obtain ⟨m, later⟩ := ih
    exact ⟨m + 1, .round next later⟩

/-- What the loop has emitted stands at the front of the tokens of the text. -/
theorem Leads.prefix_tokens (h : Leads .backtracking g (g.opening text) p) :
    p.emitted <+: g.tokens text := by
  obtain ⟨_, last, finishes, _⟩ := exists_finishes (e := .backtracking) p
  obtain ⟨_, whole⟩ := h.finishes finishes
  rw [← whole.tokens_eq, finishes.emitted_eq p.cursor.after (Nat.le_refl _)]
  exact List.prefix_append ..

variable (g text) in
/-- The tokenizer comes to an offset of a text, and what it has emitted is the part of the tokens
    that covers the text up to there. -/
structure Arrives (offset : Nat) (p : Progress g.size) : Prop where
  leads : Leads .backtracking g (g.opening text) p
  position : p.cursor.position = offset
  front : p.emitted <+: g.tokens text
  tiles : Tiles text 0 p.emitted offset

theorem Arrives.eq_at_end {q : Progress g.size} (hp : Arrives g text text.length p)
    (hq : Arrives g text text.length q) : p = q := by
  have stuck : ∀ {r}, Arrives g text text.length r → g.round .backtracking r = none := by
    intro r arrives
    have length := arrives.leads.tiled.reached.length_eq
    have position := arrives.position
    refine round_eq_none.mpr (List.length_eq_zero_iff.mp ?_)
    change text.length + 0 = _ at length
    omega
  have stays : ∀ {r s}, Arrives g text text.length r → Leads .backtracking g r s → r = s := by
    intro r s arrives leads
    rcases leads.cases_head with same | ⟨_, next, _⟩
    · exact same
    · rw [stuck arrives] at next
      cases next
  have unique : Relator.RightUnique fun p q : Progress g.size =>
      g.round .backtracking p = some q := by
    intro _ _ _ left right
    exact Option.some.inj (left.symm.trans right)
  rcases Relation.ReflTransGen.total_of_right_unique unique hp.leads hq.leads with ahead | behind
  · exact stays hp ahead
  · exact (stays hq behind).symm

theorem Leads.arrives (h : Leads .backtracking g (g.opening text) p) :
    Arrives g text p.cursor.position p :=
  ⟨h, rfl, h.prefix_tokens, h.tiled.tiles⟩

end

end BookHighlight.Grammar
