namespace BookHighlight

/-- A place in a text: the characters before it, nearest first, and those after it. -/
structure Cursor where
  position : Nat
  before : List Char
  after : List Char
  deriving DecidableEq, Repr

namespace Cursor

def start (text : List Char) : Cursor := ⟨0, [], text⟩

def advance (c : Cursor) (char : Char) (rest : List Char) : Cursor :=
  ⟨c.position + 1, char :: c.before, rest⟩

def back? : Nat → Cursor → Option Cursor
  | 0, c => some c
  | n + 1, c =>
    match c.before with
    | [] => none
    | char :: before => back? n ⟨c.position - 1, before, char :: c.after⟩

def textTo (c d : Cursor) : List Char := c.after.take (d.position - c.position)

def Reaches (c d : Cursor) : Prop :=
  ∃ read : List Char, c.after = read ++ d.after ∧ d.before = read.reverse ++ c.before ∧
    d.position = c.position + read.length

theorem Reaches.refl (c : Cursor) : c.Reaches c := ⟨[], by simp⟩

theorem Reaches.trans {c d e : Cursor} (h : c.Reaches d) (h' : d.Reaches e) : c.Reaches e := by
  obtain ⟨read, after, before, position⟩ := h
  obtain ⟨read', after', before', position'⟩ := h'
  refine ⟨read ++ read', ?_, ?_, ?_⟩
  · rw [after, after', List.append_assoc]
  · rw [before', before, List.reverse_append, List.append_assoc]
  · rw [position', position, List.length_append, Nat.add_assoc]

theorem Reaches.advance {c : Cursor} {char : Char} {rest : List Char}
    (h : c.after = char :: rest) : c.Reaches (c.advance char rest) :=
  ⟨[char], by simp [Cursor.advance, h]⟩

end Cursor

end BookHighlight
