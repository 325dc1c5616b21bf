import BookHighlight.Grammar.Error
import Mathlib.Data.List.Nodup
import Mathlib.Logic.Relation

namespace BookHighlight

namespace Data.Key

@[simp] theorem same_text (left right : String) :
    (Key.text left).same (.text right) = (left == right) := rfl

theorem any_same_text {keys : List Key} {name : String} :
    keys.any (Key.text name).same = true ↔ .text name ∈ keys := by
  rw [List.any_eq_true]
  constructor
  · rintro ⟨key, member, same⟩
    cases key with
    | text other => rwa [eq_of_beq same]
    | _ => cases same
  · exact fun member => ⟨.text name, member, beq_self_eq_true name⟩

theorem any_same_texts {names : List String} {name : String} :
    (names.map Key.text).any (Key.text name).same = true ↔ name ∈ names := by
  simp

end Data.Key

namespace Grammar

open Data

theorem mapM_texts {text? : Key → Option String} (texts : ∀ name, text? (.text name) = some name)
    (names : List String) : (names.map Key.text).mapM text? = some names := by
  induction names with
  | nil => rfl
  | cons name rest ih => simp [texts, ih]

theorem cycle_texts (defect : List String → Defect) (names : List String) :
    Error.cycle defect (names.map .text) = .defect (defect names) := by
  unfold Error.cycle
  rw [mapM_texts fun _ => rfl]

/-- A trail of names, none of them twice, and with what is left of the depth room for all. -/
structure Room {α : Type} (names : List α) (depth : Nat) (trail : List α) : Prop where
  nodup : trail.Nodup
  within : trail ⊆ names
  enough : names.length < depth + trail.length

namespace Room

variable {α : Type} {names trail : List α} {depth : Nat} {name : α}

theorem start {β : Type} (f : β → α) (items : List β) :
    Room (items.map f) (items.length + 1) [] where
  nodup := List.nodup_nil
  within := List.nil_subset _
  enough := by
    rw [List.length_map]
    exact Nat.lt_succ_self _

theorem depth_ne_zero (h : Room names depth trail) : depth ≠ 0 := by
  have bound := h.nodup.length_le_of_subset h.within
  have enough := h.enough
  omega

theorem enter (h : Room names (depth + 1) trail) (listed : name ∈ names) (new : name ∉ trail) :
    Room names depth (trail ++ [name]) where
  nodup := by
    rw [← List.concat_eq_append]
    exact h.nodup.concat new
  within := List.append_subset.mpr
    ⟨h.within, List.cons_subset.mpr ⟨listed, List.nil_subset _⟩⟩
  enough := by
    have enough := h.enough
    rw [List.length_append, List.length_singleton]
    omega

end Room

theorem leads_concat {α : Type} {r : α → α → Prop} {trail : List α} {a b : α}
    (leads : ∀ outer ∈ trail, Relation.TransGen r outer a) (next : r a b) :
    ∀ outer ∈ trail ++ [a], Relation.TransGen r outer b := by
  intro outer passed
  rcases List.mem_append.mp passed with earlier | here
  · exact (leads outer earlier).tail next
  · rw [List.mem_singleton.mp here]
    exact .single next

theorem not_self_of_acc {α : Type} {r : α → α → Prop} {a : α} (h : Acc r a) :
    ¬ Relation.TransGen r a a := by
  have settled := h.transGen
  clear h
  induction settled with
  | intro a _ ih => exact fun cycle => ih a cycle cycle

end Grammar

end BookHighlight
