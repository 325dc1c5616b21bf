import BookHighlight.Proofs.Grammar.Loop
import Mathlib.Data.List.Chain

namespace BookHighlight

open Grammar

/-- Tokens lie end to end over a text from one offset to another, and none is empty. -/
inductive Tiles (text : List Char) : Nat → List Token → Nat → Prop where
  | nil {start} : Tiles text start [] start
  | cons {start stop} {token : Token} {rest : List Token} :
      token.start = start → token.start < token.stop →
      token.text = text.extract token.start token.stop →
      Tiles text token.stop rest stop → Tiles text start (token :: rest) stop

structure Partition (text : List Char) (tokens : List Token) : Prop where
  nonempty : ∀ token ∈ tokens, token.start < token.stop
  first : ∀ token ∈ tokens.head?, token.start = 0
  adjacent : tokens.IsChain fun left right => left.stop = right.start
  last : ∀ token ∈ tokens.getLast?, token.stop = text.length
  none_iff : tokens = [] ↔ text = []
  text_eq : ∀ token ∈ tokens, token.text = text.extract token.start token.stop

namespace Tiles

variable {text : List Char} {start middle stop : Nat} {left right tokens : List Token}

theorem append (hl : Tiles text start left middle) (hr : Tiles text middle right stop) :
    Tiles text start (left ++ right) stop := by
  induction hl with
  | nil => exact hr
  | cons starts nonempty covered _ ih => exact .cons starts nonempty covered (ih hr)

theorem start_le (h : Tiles text start tokens stop) : start ≤ stop := by
  induction h with
  | nil => exact Nat.le_refl _
  | cons starts nonempty _ _ ih => omega

theorem nonempty (h : Tiles text start tokens stop) :
    ∀ token ∈ tokens, token.start < token.stop := by
  induction h with
  | nil => simp
  | cons _ nonempty _ _ ih => exact List.forall_mem_cons.mpr ⟨nonempty, ih⟩

theorem text_eq (h : Tiles text start tokens stop) :
    ∀ token ∈ tokens, token.text = text.extract token.start token.stop := by
  induction h with
  | nil => simp
  | cons _ _ covered _ ih => exact List.forall_mem_cons.mpr ⟨covered, ih⟩

theorem first (h : Tiles text start tokens stop) : ∀ token ∈ tokens.head?, token.start = start := by
  cases h with
  | nil => simp
  | cons starts _ _ _ => simpa using starts

theorem last (h : Tiles text start tokens stop) :
    ∀ token ∈ tokens.getLast?, token.stop = stop := by
  induction h with
  | nil => simp
  | @cons _ _ token rest _ _ _ tail ih =>
    cases tail with
    | nil => simp
    | cons _ _ _ _ => simpa [List.getLast?_cons_cons] using ih

theorem adjacent (h : Tiles text start tokens stop) :
    tokens.IsChain fun left right => left.stop = right.start := by
  induction h with
  | nil => exact .nil
  | cons _ _ _ tail ih =>
    refine List.isChain_cons.mpr ⟨fun next member => ?_, ih⟩
    exact (tail.first next member).symm

theorem eq_nil_iff (h : Tiles text start tokens stop) : tokens = [] ↔ start = stop := by
  cases h with
  | nil => simp
  | cons starts nonempty _ tail =>
    have := tail.start_le
    simp only [List.cons_ne_nil, false_iff]
    omega

theorem extract_append_extract (left : start ≤ middle) (right : middle ≤ stop) :
    text.extract start middle ++ text.extract middle stop = text.extract start stop := by
  have whole : stop - start = (middle - start) + (stop - middle) := by omega
  have meet : start + (middle - start) = middle := by omega
  simp only [List.extract_eq_take_drop]
  rw [whole, List.take_add, List.drop_drop, meet]

theorem flatMap_text (h : Tiles text start tokens stop) :
    tokens.flatMap (·.text) = text.extract start stop := by
  induction h with
  | nil => simp
  | cons starts nonempty covered tail ih =>
    subst starts
    rw [List.flatMap_cons, ih, covered]
    exact extract_append_extract (Nat.le_of_lt nonempty) tail.start_le

theorem partition (h : Tiles text 0 tokens text.length) : Partition text tokens where
  nonempty := h.nonempty
  first := h.first
  adjacent := h.adjacent
  last := h.last
  none_iff := h.eq_nil_iff.trans (eq_comm.trans List.length_eq_zero_iff)
  text_eq := h.text_eq

end Tiles

namespace Cursor.Reaches

variable {text : List Char} {c d : Cursor}

theorem position_eq (h : (Cursor.start text).Reaches c) :
    c.after = text.drop c.position ∧ c.position + c.after.length = text.length := by
  obtain ⟨read, after, _, position⟩ := h
  simp only [Cursor.start, Nat.zero_add] at after position
  subst after
  simp [position]

theorem textTo_extract (h : (Cursor.start text).Reaches c) :
    c.textTo d = text.extract c.position d.position := by
  simp [Cursor.textTo, h.position_eq.1]

end Cursor.Reaches

namespace Grammar

variable {e : Engine} {g : Grammar} {text : List Char}

structure Progress.Tiled {size : Nat} (text : List Char) (p : Progress size) : Prop where
  reached : (Cursor.start text).Reaches p.cursor
  tiles : Tiles text 0 p.emitted p.cursor.position

theorem opening_tiled : (g.opening text).Tiled text := ⟨.refl _, .nil⟩

theorem round_tiled {p q : Progress g.size} (h : g.round e p = some q) (tiled : p.Tiled text) :
    q.Tiled text := by
  rcases round_cases h with ⟨reached, further, _, scopes, emitted⟩ | ⟨_, _, _, _, rfl⟩
  · refine ⟨tiled.reached.trans reached, ?_⟩
    rw [emitted]
    exact tiled.tiles.append (.cons rfl further tiled.reached.textTo_extract .nil)
  · exact ⟨tiled.reached, tiled.tiles⟩

theorem Finishes.tiles {q : Progress g.size} {n : Nat}
    (h : Finishes e g (g.opening text) n q) : Tiles text 0 q.emitted text.length := by
  have tiled := h.keeps (fun _ _ => round_tiled) opening_tiled
  have ended := tiled.reached.position_eq.2
  rw [h.after_eq_nil, List.length_nil, Nat.add_zero] at ended
  rw [← ended]
  exact tiled.tiles

theorem Finishes.tokens_eq {q : Progress g.size} {n : Nat}
    (h : Finishes .backtracking g (g.opening text) n q) : q.emitted = g.tokens text :=
  h.emitted_eq text (Nat.le_refl _)

theorem Finishes.flatMap_text {q : Progress g.size} {n : Nat}
    (h : Finishes e g (g.opening text) n q) : q.emitted.flatMap (·.text) = text := by
  rw [h.tiles.flatMap_text]
  simp

theorem flatMap_tokens (g : Grammar) (text : List Char) :
    (g.tokens text).flatMap (·.text) = text := by
  obtain ⟨_, last, finishes, _⟩ := exists_finishes (e := .backtracking) (g.opening text)
  rw [← finishes.tokens_eq]
  exact finishes.flatMap_text

/-- Whatever engine matches the patterns, the loop ends after at most two rounds for each
    character, and its tokens partition the text. The tokens of a grammar are those of the loop. -/
theorem loop_partitions_text (g : Grammar) (text : List Char) :
    (∀ e : Engine, ∃ rounds last, Finishes e g (g.opening text) rounds last ∧
      rounds ≤ 2 * text.length ∧ Partition text last.emitted) ∧
    ∃ rounds last, Finishes .backtracking g (g.opening text) rounds last ∧
      last.emitted = g.tokens text := by
  constructor
  · intro e
    obtain ⟨rounds, last, finishes, bound⟩ := exists_finishes (e := e) (g.opening text)
    exact ⟨rounds, last, finishes, bound, finishes.tiles.partition⟩
  · obtain ⟨rounds, last, finishes, _⟩ := exists_finishes (e := .backtracking) (g.opening text)
    exact ⟨rounds, last, finishes, finishes.tokens_eq⟩

end Grammar

end BookHighlight
