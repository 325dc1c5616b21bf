import BookHighlight.Markup.Fragment
import BookHighlight.Proofs.Markup.Entity
import BookHighlight.Proofs.Theme.Colour

namespace BookHighlight.Markup

/-- Joining neighbours neither loses nor moves any text. -/
theorem flatMap_runs (pieces : List (Style × List Char)) :
    (runs pieces).flatMap (·.2) = pieces.flatMap (·.2) := by
  fun_induction runs pieces with
  | case1 => rfl
  | case2 style text rest alone ih =>
    rw [alone] at ih
    rw [List.flatMap_cons, List.flatMap_cons, ih]
  | case3 style text rest style' text' more joined same ih =>
    rw [joined] at ih
    simp only [List.flatMap_cons] at ih ⊢
    rw [← ih, List.append_assoc]
  | case4 style text rest style' text' more joined other ih =>
    rw [joined] at ih
    rw [List.flatMap_cons, ih, List.flatMap_cons]

theorem forall_runs_style {P : Style → Prop} {pieces : List (Style × List Char)}
    (h : ∀ piece ∈ pieces, P piece.1) : ∀ run ∈ runs pieces, P run.1 := by
  fun_induction runs pieces with
  | case1 => exact h
  | case2 style text rest alone ih => simpa using h (style, text) (by simp)
  | case3 style text rest style' text' more joined same ih =>
    have later := ih fun piece member => h piece (List.mem_cons_of_mem _ member)
    rw [joined] at later
    exact List.forall_mem_cons.mpr ⟨later (style', text') (by simp),
      fun run member => later run (List.mem_cons_of_mem _ member)⟩
  | case4 style text rest style' text' more joined other ih =>
    have later := ih fun piece member => h piece (List.mem_cons_of_mem _ member)
    rw [joined] at later
    exact List.forall_mem_cons.mpr ⟨h (style, text) (by simp), later⟩

theorem lacks_runs {c : Char} {theme : Theme} (h : theme.Lacks c) (tokens : List Token) :
    ∀ run ∈ runs (tokens.map fun token => (theme.styleFor token.scopes, token.text)),
      run.1.Lacks c := by
  apply forall_runs_style
  intro piece member
  obtain ⟨token, _, rfl⟩ := List.mem_map.mp member
  exact h.styleFor token.scopes

def isMarkupChar (c : Char) : Bool := c.isAlphanum || "&<>\"=:;-#/ ".toList.contains c

/-- A character that HTML for code is written without: an entity stands in its place. -/
def Masked (c : Char) : Prop := (entity? c).isSome ∧ isMarkupChar c = false

instance (c : Char) : Decidable (Masked c) := inferInstanceAs (Decidable (_ ∧ _))

namespace Masked

variable {c : Char}

theorem not_mem (masked : Masked c) (text : String)
    (h : text.toList.all isMarkupChar = true) : c ∉ text.toList := by
  intro member
  have markup := List.all_eq_true.mp h c member
  rw [masked.2] at markup
  cases markup

theorem not_mem_escape (masked : Masked c) (s : List Char) : c ∉ escape s := by
  obtain ⟨entity, active⟩ := Option.isSome_iff_exists.mp masked.1
  refine Markup.not_mem_escape active ?_ s
  rintro rfl
  exact absurd masked.2 (by decide)

theorem not_declaration (masked : Masked c) : isDeclarationChar c = false := by
  have other := masked.2
  simp only [isMarkupChar, Char.isAlphanum] at other
  simp_all [isDeclarationChar]

theorem not_mem_fragment (masked : Masked c) {style : Style} (h : style.Lacks c) (s : List Char) :
    c ∉ fragment style s := by
  have inert := masked.not_mem_escape s
  have css := h.css masked.not_declaration
  unfold fragment
  split
  · exact inert
  · simp only [String.toList_append, List.mem_append, not_or]
    exact ⟨⟨⟨⟨masked.not_mem "<span style=\"" (by decide), css⟩, masked.not_mem "\">" (by decide)⟩,
      inert⟩, masked.not_mem "</span>" (by decide)⟩

end Masked

theorem not_mem_highlighted {c : Char} (masked : Masked c) {theme : Theme} (h : theme.Lacks c)
    (tokens : List Token) : c ∉ highlighted theme tokens := by
  intro member
  obtain ⟨piece, inFragments, member⟩ := List.mem_flatten.mp member
  obtain ⟨run, inRuns, rfl⟩ := List.mem_map.mp inFragments
  exact masked.not_mem_fragment (lacks_runs h tokens run inRuns) run.2 member

theorem not_mem_highlight {c : Char} (masked : Masked c) (g : Grammar) {theme : Theme}
    (colours : theme.Lacks c) (inline : Bool) (code : List Char) :
    c ∉ highlight g theme inline code := by
  have inert := not_mem_highlighted masked colours
  unfold highlight wrapped
  cases inline with
  | true =>
    simp only [if_true, List.mem_append, not_or]
    exact ⟨⟨masked.not_mem "<code class=\"hljs\">" (by decide), inert _⟩,
      masked.not_mem "</code>" (by decide)⟩
  | false =>
    simp only [Bool.false_eq_true, if_false, List.mem_append, not_or]
    have opens :=
      masked.not_mem "<pre style=\"margin: 0\"><code class=\"language-typ hljs\">" (by decide)
    exact ⟨⟨opens, inert _⟩, masked.not_mem "</code></pre>" (by decide)⟩

end BookHighlight.Markup
