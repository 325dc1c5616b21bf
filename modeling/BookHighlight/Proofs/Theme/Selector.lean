import BookHighlight.Theme.Basic
import Mathlib.Data.List.Basic

namespace BookHighlight

theorem mem_beforeDots {part s : List Char} : part ∈ beforeDots s ↔ part ++ ['.'] <+: s := by
  induction s generalizing part with
  | nil => simp [beforeDots]
  | cons c rest ih =>
    cases part with
    | nil => by_cases dot : c = '.' <;> simp [beforeDots, dot, eq_comm]
    | cons d part =>
      have shorter : d :: part ∈ beforeDots (c :: rest) ↔ c = d ∧ part ∈ beforeDots rest := by
        by_cases dot : c = '.' <;> simp [beforeDots, dot, and_assoc, and_comm]
      rw [shorter, ih, List.cons_append, List.cons_prefix_cons, eq_comm]

theorem mem_dottedPrefixes {part s : List Char} :
    part ∈ dottedPrefixes s ↔ s = part ∨ part ++ ['.'] <+: s := by
  rw [dottedPrefixes, List.mem_cons, mem_beforeDots, eq_comm]

theorem length_lt_of_mem_beforeDots {part s : List Char} (h : part ∈ beforeDots s) :
    part.length < s.length := by
  have bound := (mem_beforeDots.mp h).length_le
  rwa [List.length_append] at bound

theorem beforeDots_longest_first (s : List Char) :
    (beforeDots s).Pairwise fun left right => right.length < left.length := by
  induction s with
  | nil => exact .nil
  | cons c rest ih =>
    have moved : ((beforeDots rest).map (c :: ·)).Pairwise
        fun left right => right.length < left.length := by
      rw [List.pairwise_map]
      exact ih.imp Nat.succ_lt_succ
    unfold beforeDots
    split
    · refine List.pairwise_append.mpr ⟨moved, List.pairwise_singleton .., ?_⟩
      simp
    · rwa [List.append_nil]

theorem dottedPrefixes_longest_first (s : List Char) :
    (dottedPrefixes s).Pairwise fun left right => right.length < left.length :=
  List.pairwise_cons.mpr
    ⟨fun _ member => length_lt_of_mem_beforeDots member, beforeDots_longest_first s⟩

namespace Theme

def selectors (theme : Theme) : List String := theme.styles.map (·.1)

/-- A selector covers a scope that is the selector, or goes on behind it with a dot. -/
def Covers (selector scope : String) : Prop :=
  scope = selector ∨ selector.toList ++ ['.'] <+: scope.toList

def Uncovered (theme : Theme) (scope : String) : Prop :=
  ∀ selector ∈ theme.selectors, ¬ Covers selector scope

def StopsInside (selector scope : String) : Prop :=
  ∃ c rest, scope.toList = selector.toList ++ c :: rest ∧ c ≠ '.'

structure Longest (theme : Theme) (scope selector : String) : Prop where
  member : selector ∈ theme.selectors
  covers : Covers selector scope
  longest : ∀ other ∈ theme.selectors, Covers other scope →
    other.toList.length ≤ selector.toList.length

theorem covers_iff {selector scope : String} :
    Covers selector scope ↔ selector.toList ∈ dottedPrefixes scope.toList := by
  rw [Covers, mem_dottedPrefixes, String.toList_inj]

theorem Covers.isPrefix {selector scope : String} (h : Covers selector scope) :
    selector.toList <+: scope.toList := by
  rcases h with rfl | further
  · exact List.prefix_rfl
  · exact (List.prefix_append _ _).trans further

theorem StopsInside.not_covers {selector scope : String} (h : StopsInside selector scope) :
    ¬ Covers selector scope := by
  obtain ⟨c, rest, whole, other⟩ := h
  rintro (same | further)
  · have lengths := congrArg List.length whole
    rw [same, List.length_append, List.length_cons] at lengths
    omega
  · rw [whole, List.prefix_append_right_inj, List.cons_prefix_cons] at further
    exact other further.1.symm

theorem Longest.unique {theme : Theme} {scope left right : String} (hl : theme.Longest scope left)
    (hr : theme.Longest scope right) : left = right := by
  have lengths := Nat.le_antisymm (hr.longest left hl.member hl.covers)
    (hl.longest right hr.member hr.covers)
  have shorter := List.prefix_of_prefix_length_le hl.covers.isPrefix hr.covers.isPrefix
    (Nat.le_of_eq lengths)
  exact String.toList_inj.mp (shorter.eq_of_length lengths)

theorem lookup_eq_none_iff {theme : Theme} {selector : String} :
    theme.styles.lookup selector = none ↔ selector ∉ theme.selectors := by
  rw [List.lookup_eq_none_iff]
  constructor
  · intro differ listed
    obtain ⟨entry, member, rfl⟩ := List.mem_map.mp listed
    simpa using differ entry member
  · intro absent entry member
    simpa using fun same : selector = entry.1 => absent (same ▸ List.mem_map_of_mem member)

theorem mem_selectors_of_lookup {theme : Theme} {selector : String} {style : Style}
    (h : theme.styles.lookup selector = some style) : selector ∈ theme.selectors := by
  obtain ⟨before, after, listed, _⟩ := List.lookup_eq_some_iff.mp h
  simp [selectors, listed]

section

variable {theme : Theme} {scope : String}

theorem styleOfScope?_eq_none_iff : theme.styleOfScope? scope = none ↔ theme.Uncovered scope := by
  unfold styleOfScope?
  rw [List.findSome?_eq_none_iff]
  constructor
  · intro missing selector member covers
    have absent := missing selector.toList (covers_iff.mp covers)
    rw [String.ofList_toList, lookup_eq_none_iff] at absent
    exact absent member
  · intro uncovered part member
    refine lookup_eq_none_iff.mpr fun listed => uncovered _ listed (covers_iff.mpr ?_)
    rwa [String.toList_ofList]

theorem styleOfScope?_eq_some {style : Style} (found : theme.styleOfScope? scope = some style) :
    ∃ selector, theme.Longest scope selector ∧ theme.styles.lookup selector = some style := by
  obtain ⟨before, part, after, parts, here, missing⟩ := List.findSome?_eq_some_iff.mp found
  have sorted := dottedPrefixes_longest_first scope.toList
  rw [parts, List.pairwise_append, List.pairwise_cons] at sorted
  refine ⟨String.ofList part, ⟨mem_selectors_of_lookup here, covers_iff.mpr (by simp [parts]),
    fun other member covers => ?_⟩, here⟩
  rw [covers_iff, parts, List.mem_append, List.mem_cons] at covers
  rw [String.toList_ofList]
  rcases covers with earlier | same | later
  · have absent := missing _ earlier
    rw [String.ofList_toList, lookup_eq_none_iff] at absent
    exact absurd member absent
  · exact Nat.le_of_eq (congrArg List.length same)
  · exact Nat.le_of_lt (sorted.2.1.1 _ later)

theorem exists_longest (h : ¬ theme.Uncovered scope) :
    ∃ selector, theme.Longest scope selector := by
  obtain ⟨style, found⟩ := Option.ne_none_iff_exists'.mp (mt styleOfScope?_eq_none_iff.mp h)
  obtain ⟨selector, longest, _⟩ := styleOfScope?_eq_some found
  exact ⟨selector, longest⟩

theorem styleOfScope?_longest {selector : String} (h : theme.Longest scope selector) :
    theme.styleOfScope? scope = theme.styles.lookup selector := by
  cases found : theme.styleOfScope? scope with
  | none => exact absurd h.covers (styleOfScope?_eq_none_iff.mp found selector h.member)
  | some style =>
    obtain ⟨other, longest, here⟩ := styleOfScope?_eq_some found
    rw [h.unique longest, here]

theorem styleFor_append_uncovered (outer : List String) {inner : List String}
    (h : ∀ later ∈ inner, theme.Uncovered later) :
    theme.styleFor (outer ++ inner) = theme.styleFor outer := by
  have passed : inner.reverse.findSome? theme.styleOfScope? = none :=
    List.findSome?_eq_none_iff.mpr fun later member =>
      styleOfScope?_eq_none_iff.mpr (h later (List.mem_reverse.mp member))
  rw [styleFor, List.reverse_append, List.findSome?_append, passed, Option.none_or, styleFor]

theorem styleFor_concat_longest {selector : String} (h : theme.Longest scope selector)
    (outer : List String) :
    theme.styles.lookup selector = some (theme.styleFor (outer ++ [scope])) := by
  obtain ⟨style, found⟩ := Option.ne_none_iff_exists'.mp
    (mt lookup_eq_none_iff.mp (not_not_intro h.member))
  rw [styleFor, List.reverse_append, List.findSome?_append]
  simp [styleOfScope?_longest h, found]

theorem exists_innermost {scopes : List String} (h : ∃ scope ∈ scopes, ¬ theme.Uncovered scope) :
    ∃ outer scope inner, scopes = outer ++ scope :: inner ∧ ¬ theme.Uncovered scope ∧
      ∀ later ∈ inner, theme.Uncovered later := by
  induction scopes with
  | nil => simp at h
  | cons first rest ih =>
    by_cases within : ∃ scope ∈ rest, ¬ theme.Uncovered scope
    · obtain ⟨outer, scope, inner, split, covered, uncovered⟩ := ih within
      exact ⟨first :: outer, scope, inner, by simp [split], covered, uncovered⟩
    · have uncovered : ∀ later ∈ rest, theme.Uncovered later := by simpa using within
      obtain ⟨scope, member, covered⟩ := h
      rcases List.mem_cons.mp member with rfl | later
      · exact ⟨[], scope, rest, rfl, covered, uncovered⟩
      · exact absurd (uncovered scope later) covered

end

theorem lookup_without {before after : List (String × Style)} {entry : String × Style}
    {selector : String} (other : entry.1 ≠ selector) :
    (before ++ after).lookup selector = (before ++ entry :: after).lookup selector := by
  have passed : (selector == entry.1) = false := beq_eq_false_iff_ne.mpr other.symm
  rw [List.lookup_append, List.lookup_append, List.lookup_cons, passed]

theorem styleFor_without {theme : Theme} {before after : List (String × Style)}
    {entry : String × Style} (listed : theme.styles = before ++ entry :: after)
    {scopes : List String} (idle : ∀ scope ∈ scopes, ¬ Covers entry.1 scope) :
    ({ theme with styles := before ++ after } : Theme).styleFor scopes = theme.styleFor scopes := by
  have same : ∀ scope ∈ scopes.reverse,
      ({ theme with styles := before ++ after } : Theme).styleOfScope? scope =
        theme.styleOfScope? scope := by
    intro scope member
    unfold styleOfScope?
    rw [listed, ← List.head?_filterMap, ← List.head?_filterMap]
    refine congrArg List.head? (List.filterMap_congr fun part within => ?_)
    refine lookup_without fun same => idle scope (List.mem_reverse.mp member) ?_
    rwa [covers_iff, same, String.toList_ofList]
  unfold styleFor
  rw [← List.head?_filterMap, ← List.head?_filterMap, List.filterMap_congr same]

/-- The style of text is that of the longest selector that covers the innermost scope which any
    selector covers, and without such a scope the default. A scope that no selector covers changes
    nothing where it is entered, nor does a selector that ends inside a segment of each scope it
    begins like. -/
theorem style_of_innermost (theme : Theme) (scopes : List String) :
    (∀ outer scope inner selector, scopes = outer ++ scope :: inner →
      (∀ later ∈ inner, theme.Uncovered later) → theme.Longest scope selector →
        theme.styles.lookup selector = some (theme.styleFor scopes)) ∧
    ((∀ scope ∈ scopes, theme.Uncovered scope) → theme.styleFor scopes = theme.default) ∧
    ((∃ scope ∈ scopes, ¬ theme.Uncovered scope) → ∃ outer scope inner selector,
      scopes = outer ++ scope :: inner ∧ (∀ later ∈ inner, theme.Uncovered later) ∧
        theme.Longest scope selector) ∧
    (∀ scope, theme.Uncovered scope → theme.styleFor (scopes ++ [scope]) = theme.styleFor scopes) ∧
    ∀ before entry after, theme.styles = before ++ entry :: after →
      (∀ scope ∈ scopes, entry.1.toList <+: scope.toList → StopsInside entry.1 scope) →
        ({ theme with styles := before ++ after } : Theme).styleFor scopes =
          theme.styleFor scopes := by
  refine ⟨?_, ?_, ?_, ?_, ?_⟩
  · rintro outer scope inner selector rfl uncovered longest
    rw [List.append_cons, styleFor_append_uncovered _ uncovered]
    exact styleFor_concat_longest longest outer
  · intro uncovered
    exact styleFor_append_uncovered [] uncovered
  · intro covered
    obtain ⟨outer, scope, inner, split, here, uncovered⟩ := exists_innermost covered
    obtain ⟨selector, longest⟩ := exists_longest here
    exact ⟨outer, scope, inner, selector, split, uncovered, longest⟩
  · intro scope uncovered
    exact styleFor_append_uncovered scopes (List.forall_mem_singleton.mpr uncovered)
  · intro before entry after listed stops
    exact styleFor_without listed fun scope member covers =>
      (stops scope member covers.isPrefix).not_covers covers

end Theme

end BookHighlight
