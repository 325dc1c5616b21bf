import BookHighlight.Proofs.Grammar.Partition
import Mathlib.Logic.Relation

namespace BookHighlight.Grammar

section

variable (g : Grammar)

def metaScopes (contexts : List (Fin g.size)) : List String :=
  contexts.filterMap fun context => (g.context context).metaScope.filter (!·.isEmpty)

def Scoped : List (Frame g.size) → Prop
  | [] => True
  | frame :: below =>
    frame.scopes = g.metaScopes ((frame :: below).reverse.map (·.context)) ∧ Scoped below

structure Nested (stack : Stack g.size) : Prop where
  some_frame : 1 ≤ stack.depth
  bounded : stack.depth ≤ maxDepth
  bottom : (stack.top :: stack.below).getLast?.map (·.context) = some g.main
  scopes : g.Scoped (stack.top :: stack.below)

def entered (stack : Stack g.size) (target : Fin g.size) : Stack g.size :=
  ⟨⟨target, g.enter stack.top.scopes target⟩, stack.top :: stack.below⟩

def matched (e : Engine) (p : Progress g.size) : Option (Rule g.size × Cursor) :=
  e.firstMatch p.cursor (!p.stack.below.isEmpty) (g.context p.stack.top.context).rules

/-- What a rule, or no rule, makes of a stack, and the stack whose scopes the text that is read
    carries. -/
inductive Reading (stack : Stack g.size) :
    Option (Rule g.size) → (after carried : Stack g.size) → Prop where
  | unmatched : Reading stack none stack stack
  | plain {rule} : rule.set = none → rule.pop = false → rule.push = none →
      Reading stack (some rule) stack stack
  | pop {rule} : rule.set = none → rule.pop = true →
      Reading stack (some rule) (g.pop stack) stack
  | push {rule target} : rule.set = none → rule.pop = false → rule.push = some target →
      stack.depth < maxDepth →
      Reading stack (some rule) (g.entered stack target) (g.entered stack target)
  | refused {rule target} : rule.set = none → rule.pop = false → rule.push = some target →
      stack.depth = maxDepth → Reading stack (some rule) stack stack
  | set {rule target} : rule.set = some target → (g.pop stack).depth < maxDepth →
      Reading stack (some rule) (g.entered (g.pop stack) target) (g.entered (g.pop stack) target)

theorem enter_metaScopes (contexts : List (Fin g.size)) (target : Fin g.size) :
    g.enter (g.metaScopes contexts) target = g.metaScopes (contexts ++ [target]) := by
  unfold enter metaScopes
  rw [List.filterMap_append, List.filterMap_cons, List.filterMap_nil]
  cases own : (g.context target).metaScope with
  | none => simp [withScope]
  | some scope => by_cases empty : scope = "" <;> simp [withScope, empty, Option.filter]

theorem length_metaScopes_le (contexts : List (Fin g.size)) :
    (g.metaScopes contexts).length ≤ contexts.length := List.length_filterMap_le _ _

end

theorem length_withScope_le (scopes : List String) (scope : Option String) :
    (withScope scopes scope).length ≤ scopes.length + 1 := by
  unfold withScope
  split
  · split <;> simp
  · exact Nat.le_succ _

namespace Nested

variable {g : Grammar} {stack : Stack g.size}

theorem root : g.Nested g.root where
  some_frame := Nat.le_refl _
  bounded := Nat.le_of_ble_eq_true rfl
  bottom := rfl
  scopes := ⟨g.enter_metaScopes [] g.main, trivial⟩

theorem pop (h : g.Nested stack) : g.Nested (g.pop stack) := by
  obtain ⟨top, below⟩ := stack
  cases below with
  | nil => exact h
  | cons frame below =>
    refine ⟨Nat.le_add_left .., ?_, ?_, h.scopes.2⟩
    · exact Nat.le_of_succ_le h.bounded
    · have bottom := h.bottom
      rwa [List.getLast?_cons_cons] at bottom

theorem entered (h : g.Nested stack) (target : Fin g.size) (room : stack.depth < maxDepth) :
    g.Nested (g.entered stack target) where
  some_frame := Nat.le_add_left ..
  bounded := room
  bottom := by
    change (_ :: stack.top :: stack.below).getLast?.map (·.context) = _
    rw [List.getLast?_cons_cons, h.bottom]
  scopes := by
    have contexts : ((g.entered stack target).top :: (g.entered stack target).below).reverse.map
        (·.context) = (stack.top :: stack.below).reverse.map (·.context) ++ [target] := by
      simp [Grammar.entered]
    refine ⟨?_, h.scopes⟩
    change g.enter stack.top.scopes target = g.metaScopes (List.map _ (List.reverse (_ :: _)))
    rw [contexts, h.scopes.1, enter_metaScopes]

theorem length_scopes_le (h : g.Nested stack) : stack.top.scopes.length ≤ maxDepth := by
  rw [h.scopes.1]
  apply (g.length_metaScopes_le _).trans
  rw [List.length_map, List.length_reverse, List.length_cons]
  exact h.bounded

/-- What stays when a context is left has room for another one, also at the root, which cannot be
    left. -/
theorem depth_pop_lt (h : g.Nested stack) : (g.pop stack).depth < maxDepth := by
  obtain ⟨top, below⟩ := stack
  cases below with
  | nil => exact Nat.le_of_ble_eq_true rfl
  | cons frame below => exact h.bounded

theorem reading (h : g.Nested stack) {rule : Option (Rule g.size)} {after carried : Stack g.size}
    (reading : g.Reading stack rule after carried) : g.Nested after ∧ g.Nested carried := by
  cases reading with
  | unmatched => exact ⟨h, h⟩
  | plain _ _ _ => exact ⟨h, h⟩
  | pop _ _ => exact ⟨h.pop, h⟩
  | push _ _ _ room => exact ⟨h.entered _ room, h.entered _ room⟩
  | refused _ _ _ _ => exact ⟨h, h⟩
  | set _ room => exact ⟨h.pop.entered _ room, h.pop.entered _ room⟩

end Nested

section

variable {e : Engine} {g : Grammar} {stack : Stack g.size} {p q : Progress g.size}

theorem push_entered {target : Fin g.size} {scope : Option String}
    (room : stack.depth < maxDepth) : g.push stack target scope =
      (g.entered stack target, withScope (g.entered stack target).top.scopes scope) :=
  if_neg (Nat.not_le_of_lt room)

theorem apply_reading (nested : g.Nested stack) (rule : Rule g.size) :
    ∃ carried, g.Reading stack (some rule) (g.apply rule stack).1 carried ∧
      (g.apply rule stack).2 = withScope carried.top.scopes rule.scope := by
  unfold apply
  dsimp only
  split
  · rename_i target sets
    rw [push_entered nested.depth_pop_lt]
    exact ⟨_, .set sets nested.depth_pop_lt, rfl⟩
  · rename_i stays
    split
    · rename_i pops
      exact ⟨stack, .pop stays pops, rfl⟩
    · rename_i remains
      rw [Bool.not_eq_true] at remains
      split
      · rename_i target pushes
        by_cases room : stack.depth < maxDepth
        · rw [push_entered room]
          exact ⟨_, .push stays remains pushes room, rfl⟩
        · have full : stack.depth = maxDepth :=
            Nat.le_antisymm nested.bounded (Nat.le_of_not_lt room)
          have refused : g.push stack target rule.scope =
            (stack, withScope stack.top.scopes rule.scope) := if_pos (Nat.le_of_eq full.symm)
          rw [refused]
          exact ⟨stack, .refused stays remains pushes full, rfl⟩
      · rename_i plain
        exact ⟨stack, .plain stays remains plain, rfl⟩

/-- A round reads as its rule says, and what it emits has the scopes that come with that. -/
theorem round_reading (nested : g.Nested p.stack) (h : g.round e p = some q) :
    ∃ carried, g.Reading p.stack ((g.matched e p).map (·.1)) q.stack carried ∧
      (q.emitted = p.emitted ∨ ∃ token, q.emitted = p.emitted ++ [token] ∧
        token.scopes = withScope carried.top.scopes ((g.matched e p).bind (·.1.scope))) := by
  unfold round at h
  split at h
  · cases h
  · dsimp only at h
    split at h
    · rename_i unmatched
      have none : g.matched e p = none := unmatched
      cases h
      rw [none]
      exact ⟨p.stack, .unmatched, .inr ⟨_, rfl, rfl⟩⟩
    · rename_i rule d found
      have some : g.matched e p = some (rule, d) := found
      obtain ⟨carried, reading, scopes⟩ := apply_reading nested rule
      rw [some]
      split at h
      · cases h
        exact ⟨carried, reading, .inr ⟨_, rfl, scopes⟩⟩
      · cases h
        exact ⟨carried, reading, .inl rfl⟩

variable (e g)

abbrev Leads : Progress g.size → Progress g.size → Prop :=
  Relation.ReflTransGen fun p q => g.round e p = some q

/-- A round that the loop comes to on a text emits the token. The text is read as a rule of the
    innermost context says, or as text that none matches; the scopes are those of a stack, with the
    scope of the rule. -/
structure Emits (text : List Char) (p q : Progress g.size) (carried : Stack g.size)
    (token : Token) : Prop where
  visited : Leads e g (g.opening text) p
  round : g.round e p = some q
  emitted : q.emitted = p.emitted ++ [token]
  reading : g.Reading p.stack ((g.matched e p).map (·.1)) q.stack carried
  scopes : token.scopes = withScope carried.top.scopes ((g.matched e p).bind (·.1.scope))

end

section

variable {e : Engine} {g : Grammar} {text : List Char} {p q : Progress g.size}

theorem Leads.nested (h : Leads e g p q) (nested : g.Nested p.stack) : g.Nested q.stack := by
  induction h with
  | refl => exact nested
  | tail _ next ih =>
    obtain ⟨carried, reading, _⟩ := round_reading ih next
    exact (ih.reading reading).1

theorem Leads.emits (h : Leads e g (g.opening text) p) :
    ∀ token ∈ p.emitted, ∃ r q carried, Emits e g text r q carried token ∧ g.Nested carried := by
  induction h with
  | refl => exact fun _ member => nomatch member
  | @tail r q visited next ih =>
    have nested := Leads.nested visited Nested.root
    obtain ⟨carried, reading, same | ⟨token, emitted, scopes⟩⟩ := round_reading nested next
    · rwa [same]
    · intro other member
      rw [emitted] at member
      rcases List.mem_append.mp member with before | new
      · exact ih other before
      · rw [List.mem_singleton.mp new]
        exact ⟨r, q, carried, ⟨visited, next, emitted, reading, scopes⟩, (nested.reading reading).2⟩

theorem Finishes.leads {n : Nat} (h : Finishes e g p n q) : Leads e g p q := by
  induction h with
  | stop _ => exact .refl
  | round next _ ih => exact .head next ih

/-- Whatever engine matches the patterns, whenever the loop looks for a rule its stack has from one
    to 64 frames, the main context at the bottom, and each frame the meta scopes up to it. Every
    token has the scopes of such a stack, with the scope of its rule, so 65 at most. The tokens of
    a grammar are what the loop has emitted at its end. -/
theorem scopes_of_stack (e : Engine) (g : Grammar) (text : List Char) :
    (∀ p, Leads e g (g.opening text) p → g.Nested p.stack ∧
      ∀ token ∈ p.emitted, token.scopes.length ≤ 65 ∧
        ∃ r q carried, Emits e g text r q carried token ∧ g.Nested carried) ∧
    ∃ last, Leads .backtracking g (g.opening text) last ∧ g.round .backtracking last = none ∧
      last.emitted = g.tokens text := by
  constructor
  · intro p visited
    refine ⟨Leads.nested visited Nested.root, fun token member => ?_⟩
    obtain ⟨r, q, carried, emits, nested⟩ := Leads.emits visited token member
    refine ⟨?_, r, q, carried, emits, nested⟩
    rw [emits.scopes]
    exact (length_withScope_le _ _).trans (Nat.succ_le_succ nested.length_scopes_le)
  · obtain ⟨rounds, last, finishes, _⟩ := exists_finishes (e := .backtracking) (g.opening text)
    exact ⟨last, finishes.leads, round_eq_none.mpr finishes.after_eq_nil, finishes.tokens_eq⟩

end

end BookHighlight.Grammar
