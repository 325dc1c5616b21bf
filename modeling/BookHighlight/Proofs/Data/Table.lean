import BookHighlight.Proofs.Data.Path

namespace BookHighlight.Data

theorem bind_eq_ok {ε α β : Type} {x : Except ε α} {f : α → Except ε β} {b : β} :
    x >>= f = .ok b ↔ ∃ a, x = .ok a ∧ f a = .ok b := by
  cases x with
  | error e =>
    constructor
    · rintro ⟨⟩
    · rintro ⟨_, ⟨⟩, _⟩
  | ok a =>
    constructor
    · exact fun h => ⟨a, rfl, h⟩
    · rintro ⟨_, ⟨⟩, h⟩
      exact h

namespace Entries

def Distinct (entries : Entries) : Prop :=
  (keys entries).Pairwise fun left right => left.same right = false

instance (entries : Entries) : Decidable entries.Distinct :=
  inferInstanceAs (Decidable (List.Pairwise _ _))

variable {entries : Entries} {name : String} {value other : Value}

theorem mem_of_text? (h : text? entries name = some value) : (.text name, value) ∈ entries := by
  obtain ⟨entry, found, rfl⟩ := Option.map_eq_some_iff.mp h
  have same := List.find?_some found
  rw [← Key.eq_text_of_same same]
  exact List.mem_of_find?_eq_some found

theorem text?_eq_some_iff (distinct : entries.Distinct) :
    text? entries name = some value ↔ (.text name, value) ∈ entries := by
  refine ⟨mem_of_text?, fun member => ?_⟩
  induction entries with
  | nil => cases member
  | cons first rest ih =>
    obtain ⟨differ, others⟩ := List.pairwise_cons.mp distinct
    rw [text?_cons]
    rcases List.mem_cons.mp member with rfl | later
    · exact if_pos (beq_self_eq_true name)
    · have elsewhere := differ _ (List.mem_map_of_mem later)
      rw [if_neg (by rw [elsewhere]; exact Bool.false_ne_true)]
      exact ih others later

theorem text?_put (entries : Entries) (name other : String) (value : Value) :
    text? (put entries (.text name) value) other =
      if other = name then some value else text? entries other := by
  have same : (Key.text name).same (.text other) = (name == other) := rfl
  induction entries with
  | nil =>
    rw [put, text?_cons, same]
    by_cases here : other = name
    · simp [here]
    · simp [here, Ne.symm here]
  | cons entry rest ih =>
    by_cases there : entry.1.same (.text name) = true
    · rw [put, if_pos there, text?_cons, text?_cons, Key.eq_text_of_same there, same]
      by_cases here : other = name
      · simp [here]
      · simp [here, Ne.symm here]
    · rw [put, if_neg there, text?_cons, text?_cons, ih]
      by_cases here : other = name
      · simp [here, there]
      · simp [here]

theorem text?_erase_of_ne {name other : String} (differ : other ≠ name) (entries : Entries) :
    text? (erase entries name) other = text? entries other := by
  induction entries with
  | nil => rfl
  | cons entry rest ih =>
    by_cases there : entry.1.same (.text name) = true
    · have elsewhere : entry.1.same (.text other) = false := by
        rw [Key.eq_text_of_same there]
        exact beq_eq_false_iff_ne.mpr (Ne.symm differ)
      rw [erase, List.filter_cons_of_neg (by simp [there]), text?_cons, elsewhere,
        if_neg Bool.false_ne_true]
      exact ih
    · rw [erase, List.filter_cons_of_pos (by simp [there]), text?_cons, text?_cons]
      exact congrArg _ ih

theorem Distinct.unique (distinct : entries.Distinct) (left : (.text name, value) ∈ entries)
    (right : (.text name, other) ∈ entries) : value = other := by
  rw [← text?_eq_some_iff distinct] at left right
  exact Option.some.inj (left.symm.trans right)

end Entries

def Textual (keys : List Key) : Prop := ∀ key ∈ keys, ∃ name, key = .text name

theorem Textual.exists_texts {keys : List Key} (h : Textual keys) :
    ∃ names : List String, keys = names.map .text := by
  induction keys with
  | nil => exact ⟨[], rfl⟩
  | cons key rest ih =>
    obtain ⟨⟨name, rfl⟩, others⟩ := List.forall_mem_cons.mp h
    obtain ⟨names, rfl⟩ := ih others
    exact ⟨name :: names, rfl⟩

inductive Value.IsJson : Value → Prop where
  | null : IsJson .null
  | bool (b : Bool) : IsJson (.bool b)
  | int (n : Int) : IsJson (.int n)
  | float (x : Binary64) : IsJson (.float x)
  | text (s : String) : IsJson (.text s)
  | list {items : List Value} : (∀ item ∈ items, IsJson item) → IsJson (.list items)
  | table {entries : Entries} : Textual (Entries.keys entries) →
      (∀ entry ∈ entries, IsJson entry.2) → IsJson (.table entries)

end BookHighlight.Data
