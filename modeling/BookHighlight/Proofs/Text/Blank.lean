import BookHighlight.Text.Blank
import Mathlib.Data.List.DropRight

namespace BookHighlight

section

variable {p : Char → Bool} {body rest : List Char}

theorem takeWhile_append_of_head (inside : ∀ c ∈ body, p c = true)
    (stop : ∀ c ∈ rest.head?, p c = false) : (body ++ rest).takeWhile p = body := by
  rw [List.takeWhile_append_of_pos inside]
  cases rest with
  | nil => exact List.append_nil body
  | cons c rest => rw [List.takeWhile_cons_of_neg (by simp [stop c rfl]), List.append_nil]

theorem takeWhile_of_head (stop : ∀ c ∈ rest.head?, p c = false) : rest.takeWhile p = [] := by
  have nothing : ∀ c ∈ ([] : List Char), p c = true := by simp
  exact takeWhile_append_of_head nothing stop

end

namespace Text

theorem trimStart_of_head {s : List Char} (h : ∀ c ∈ s.head?, isBlank c = false) :
    trimStart s = s := by
  cases s with
  | nil => rfl
  | cons c s => exact List.dropWhile_cons_of_neg (by simp [h c rfl])

theorem head_trimStart (s : List Char) : ∀ c ∈ (trimStart s).head?, isBlank c = false := by
  induction s with
  | nil => simp [trimStart]
  | cons c s ih =>
    by_cases blank : isBlank c = true
    · have skips : trimStart (c :: s) = trimStart s := List.dropWhile_cons_of_pos blank
      rwa [skips]
    · have stays : trimStart (c :: s) = c :: s := List.dropWhile_cons_of_neg blank
      rw [stays]
      simpa using blank

theorem exists_trimEnd_append {s : List Char} (ends : ∀ h : s ≠ [], isBlank (s.getLast h) = false)
    (rest : List Char) : ∃ front, front <+: rest ∧ trimEnd (s ++ rest) = s ++ front := by
  change ∃ front, front <+: rest ∧ (s ++ rest).rdropWhile isBlank = s ++ front
  induction rest using List.reverseRecOn with
  | nil =>
    refine ⟨[], List.prefix_rfl, ?_⟩
    rw [List.append_nil, List.rdropWhile_eq_self_iff]
    exact fun h => Bool.eq_false_iff.mp (ends h)
  | append_singleton rest c ih =>
    rw [← List.append_assoc]
    by_cases blank : isBlank c = true
    · obtain ⟨front, within, trimmed⟩ := ih
      rw [List.rdropWhile_concat_pos _ _ _ blank]
      exact ⟨front, within.trans (List.prefix_append ..), trimmed⟩
    · rw [List.rdropWhile_concat_neg _ _ _ blank, List.append_assoc]
      exact ⟨rest ++ [c], List.prefix_rfl, rfl⟩

theorem trim_trim (s : List Char) : trim (trim s) = trim s := by
  have started : ∀ c ∈ (trim s).head?, isBlank c = false := by
    intro c first
    have front : trim s <+: trimStart s := List.rdropWhile_prefix isBlank (trimStart s)
    obtain ⟨more, whole⟩ := front
    apply head_trimStart s c
    rw [← whole, List.head?_append, Option.mem_def.mp first]
    rfl
  have ended : trimEnd (trim s) = trim s := List.rdropWhile_idempotent isBlank (trimStart s)
  rw [trim, trimStart_of_head started, ended]

end Text

end BookHighlight
