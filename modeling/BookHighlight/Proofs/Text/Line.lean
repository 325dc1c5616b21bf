import BookHighlight.Text.Line

namespace BookHighlight.Text

/-- Lines as a text is cut into them: bodies without breaks, each with the break that ends it, but
    for a last line that no break ends. -/
def Cut : List BrokenLine → Prop
  | [] => True
  | line :: rest =>
    (∀ c ∈ line.body, isLineBreak c = false) ∧
    (line.ending = ['\r', '\n'] ∨ (∃ c, isLineBreak c = true ∧ line.ending = [c]) ∨
      line.ending = [] ∧ line.body ≠ [] ∧ rest = []) ∧
    Cut rest

theorem cut_brokenLines (s : List Char) : Cut (brokenLines s) := by
  fun_induction brokenLines s with
  | case1 => trivial
  | case2 rest ih => exact ⟨by simp, .inl rfl, ih⟩
  | case3 c rest _ ends ih => exact ⟨by simp, .inr (.inl ⟨c, ends, rfl⟩), ih⟩
  | case4 c rest _ inner none _ =>
    exact ⟨by simpa using inner, .inr (.inr ⟨rfl, by simp, rfl⟩), trivial⟩
  | case5 c rest _ inner line lines more ih =>
    rw [more] at ih
    obtain ⟨body, ending, later⟩ := ih
    refine ⟨List.forall_mem_cons.mpr ⟨by simpa using inner, body⟩, ?_, later⟩
    rcases ending with ending | ending | ⟨ending, _, last⟩
    · exact .inl ending
    · exact .inr (.inl ending)
    · exact .inr (.inr ⟨ending, by simp, last⟩)

def Unbroken (s : List Char) : Prop := ∀ c ∈ s, isLineBreak c = false

instance (s : List Char) : Decidable (Unbroken s) :=
  List.decidableBAll (isLineBreak · = false) s

theorem brokenLines_cons {c : Char} (unbroken : isLineBreak c = false) (rest : List Char) :
    brokenLines (c :: rest) =
      match brokenLines rest with
      | [] => [⟨[c], []⟩]
      | line :: lines => { line with body := c :: line.body } :: lines := by
  have other : c ≠ '\r' := by
    rintro rfl
    exact absurd unbroken (by decide)
  rw [brokenLines]
  · exact if_neg (by simp [unbroken])
  · intro more cr
    exact absurd cr other

def Fed (s : List Char) : Prop := s = [] ∨ s.getLast? = some '\n'

theorem Fed.tail {c : Char} {s : List Char} (h : Fed (c :: s)) : Fed s := by
  rcases h with none | last
  · cases none
  · cases s with
    | nil => exact .inl rfl
    | cons d s => exact .inr (by rwa [List.getLast?_cons_cons] at last)

/-- A text whose last line is ended by an LF is cut into lines in the same way whatever follows. -/
theorem Fed.brokenLines_append {s : List Char} (h : Fed s) (rest : List Char) :
    brokenLines (s ++ rest) = brokenLines s ++ brokenLines rest := by
  fun_induction brokenLines s with
  | case1 => rfl
  | case2 later ih =>
    rw [List.cons_append, List.cons_append, brokenLines, ih h.tail.tail]
    rfl
  | case3 c later apart ends ih =>
    rw [List.cons_append, brokenLines, if_pos ends, ih h.tail]
    · rfl
    · rintro more rfl lf
      cases later with
      | nil =>
        rcases h with none | last
        · cases none
        · cases last
      | cons d later =>
        cases lf
        exact apart later rfl rfl
  | case4 c later apart inner none ih =>
    have single : later = [] := by
      have whole := flatMap_brokenLines later
      rw [none] at whole
      exact whole.symm
    rw [single] at h
    rcases h with none | last
    · cases none
    · cases last
      exact absurd rfl inner
  | case5 c later apart inner line lines more ih =>
    have unbroken : isLineBreak c = false := by simpa using inner
    rw [List.cons_append, brokenLines_cons unbroken, ih h.tail, more]
    rfl

namespace Unbroken

variable {s t : List Char}

theorem append (hs : Unbroken s) (ht : Unbroken t) : Unbroken (s ++ t) := by
  intro c member
  rcases List.mem_append.mp member with left | right
  · exact hs c left
  · exact ht c right

theorem spaces (width : Nat) : Unbroken (List.replicate width ' ') := by
  intro c member
  rw [List.eq_of_mem_replicate member]
  decide

theorem brokenLines_lf (h : Unbroken s) (rest : List Char) :
    brokenLines (s ++ '\n' :: rest) = ⟨s, ['\n']⟩ :: brokenLines rest := by
  induction s with
  | nil =>
    rw [List.nil_append, brokenLines]
    · simp [isLineBreak]
    · simp
  | cons c s ih =>
    obtain ⟨first, later⟩ := List.forall_mem_cons.mp h
    rw [List.cons_append, brokenLines_cons first, ih later]

theorem brokenLines_last (h : Unbroken s) (some : s ≠ []) : brokenLines s = [⟨s, []⟩] := by
  induction s with
  | nil => exact absurd rfl some
  | cons c s ih =>
    obtain ⟨first, later⟩ := List.forall_mem_cons.mp h
    rw [brokenLines_cons first]
    cases s with
    | nil => rfl
    | cons d s => rw [ih later (by simp)]

end Unbroken

end BookHighlight.Text
