import BookHighlight.Theme.Basic

namespace BookHighlight

def Style.Lacks (c : Char) (s : Style) : Prop := c ∉ s.foreground.plain.toList

instance (c : Char) (s : Style) : Decidable (s.Lacks c) := inferInstanceAs (Decidable (_ ∉ _))

def Theme.Lacks (c : Char) (theme : Theme) : Prop :=
  theme.default.Lacks c ∧ ∀ entry ∈ theme.styles, entry.2.Lacks c

instance (c : Char) (theme : Theme) : Decidable (theme.Lacks c) :=
  inferInstanceAs (Decidable (_ ∧ ∀ entry ∈ theme.styles, entry.2.Lacks c))

theorem Theme.styleOfScope?_mem {theme : Theme} {scope : String} {style : Style}
    (h : theme.styleOfScope? scope = some style) : ∃ entry ∈ theme.styles, entry.2 = style := by
  obtain ⟨selector, _, found⟩ := List.exists_of_findSome?_eq_some h
  obtain ⟨before, after, whole, _⟩ := List.lookup_eq_some_iff.mp found
  exact ⟨(String.ofList selector, style), by simp [whole], rfl⟩

/-- What holds of every style of a theme holds of the style of any text. -/
theorem Theme.styleFor_forall {theme : Theme} {P : Style → Prop} (default : P theme.default)
    (styles : ∀ entry ∈ theme.styles, P entry.2) (scopes : List String) :
    P (theme.styleFor scopes) := by
  unfold Theme.styleFor
  cases found : scopes.reverse.findSome? theme.styleOfScope? with
  | none => exact default
  | some style =>
    obtain ⟨scope, _, lookup⟩ := List.exists_of_findSome?_eq_some found
    obtain ⟨entry, member, rfl⟩ := Theme.styleOfScope?_mem lookup
    exact styles entry member

theorem Theme.Lacks.styleFor {c : Char} {theme : Theme} (h : theme.Lacks c)
    (scopes : List String) : (theme.styleFor scopes).Lacks c :=
  Theme.styleFor_forall h.1 h.2 scopes

def isDeclarationChar (c : Char) : Bool := c.isAlpha || c == '-' || c == ':' || c == ';'

theorem not_mem_toList_append {c : Char} {left right : String} (hl : c ∉ left.toList)
    (hr : c ∉ right.toList) : c ∉ (left ++ right).toList := by
  rw [String.toList_append, List.mem_append, not_or]
  exact ⟨hl, hr⟩

theorem not_mem_declared {c : Char} {shown : Prop} [Decidable shown] {declaration : String}
    (h : c ∉ declaration.toList) : c ∉ (if shown then declaration else "").toList := by
  split
  · exact h
  · simp

theorem Style.Lacks.css {c : Char} {s : Style} (h : s.Lacks c)
    (other : isDeclarationChar c = false) : c ∉ s.css.toList := by
  have fixed : ∀ text : String, text.toList.all isDeclarationChar = true → c ∉ text.toList := by
    intro text declares member
    have declared := List.all_eq_true.mp declares c member
    rw [other] at declared
    cases declared
  have colour := not_mem_toList_append (not_mem_toList_append (fixed "color:" (by decide)) h)
    (fixed ";" (by decide))
  have bold := fixed "font-weight:bold;" (by decide)
  have italic := fixed "font-style:italic;" (by decide)
  have underline := fixed "text-decoration:underline;" (by decide)
  unfold Style.css
  apply not_mem_toList_append _ (not_mem_declared underline)
  apply not_mem_toList_append _ (not_mem_declared italic)
  exact not_mem_toList_append (not_mem_declared colour) (not_mem_declared bold)

end BookHighlight
