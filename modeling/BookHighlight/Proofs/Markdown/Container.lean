import BookHighlight.Proofs.Markdown.Column
import BookHighlight.Proofs.Markdown.Fence
import BookHighlight.Proofs.Text.Blank

namespace BookHighlight.Markdown

inductive IsListMark : List Char → Prop where
  | bullet {c : Char} : c = '-' ∨ c = '+' ∨ c = '*' → IsListMark [c]
  | ordered {digits : List Char} {d : Char} : 1 ≤ digits.length → digits.length ≤ 9 →
      (∀ c ∈ digits, c.isDigit = true) → d = '.' ∨ d = ')' → IsListMark (digits ++ [d])

inductive Marker where
  | quote
  | item (mark : List Char) (isMark : IsListMark mark)

namespace Marker

def text : Marker → List Char
  | quote => ['>', ' ']
  | item mark _ => mark ++ [' ']

def indent : Marker → List Char
  | quote => ['>', ' ']
  | item mark _ => List.replicate (mark.length + 1) ' '

end Marker

def markersText (markers : List Marker) : List Char := markers.flatMap Marker.text

def markersIndent (markers : List Marker) : List Char := markers.flatMap Marker.indent

theorem isDigit_toNat {c : Char} (h : c.isDigit = true) : 48 ≤ c.toNat ∧ c.toNat ≤ 57 := by
  simpa [Char.isDigit, UInt32.le_iff_toNat_le] using h

theorem isDecimal_digit {c : Char} (h : c.isDigit = true) : Text.isDecimal c = true := by
  have bounds := isDigit_toNat h
  exact Text.isDecimal_of_isDigit (by omega) h

def isMarkChar (c : Char) : Bool :=
  c == '-' || c == '+' || c == '*' || c == '.' || c == ')' || c.isDigit

theorem IsListMark.isMarkChar {mark : List Char} (h : IsListMark mark) :
    ∀ c ∈ mark, isMarkChar c = true := by
  intro c member
  cases h with
  | bullet bullet =>
    rw [List.mem_singleton.mp member]
    rcases bullet with rfl | rfl | rfl <;> rfl
  | ordered _ _ digits delimiter =>
    rcases List.mem_append.mp member with digit | last
    · simp [Markdown.isMarkChar, digits c digit]
    · rw [List.mem_singleton.mp last]
      rcases delimiter with rfl | rfl <;> rfl

theorem IsListMark.ne_nil {mark : List Char} (h : IsListMark mark) : mark ≠ [] := by
  cases h <;> simp

theorem isMarkChar_ne {c d : Char} (h : isMarkChar c = true) (other : isMarkChar d = false) :
    c ≠ d := by
  rintro rfl
  exact Bool.false_ne_true (other.symm.trans h)

theorem IsListMark.listMarker?_append {mark : List Char} (h : IsListMark mark)
    (rest : List Char) : listMarker? (mark ++ rest) = some (mark, rest) := by
  cases h with
  | @bullet c bullet => exact if_pos bullet
  | @ordered digits d some few isDigits delimiter =>
    have all : ∀ c ∈ digits, Text.isDecimal c = true := fun c member =>
      isDecimal_digit (isDigits c member)
    have stop : ∀ c ∈ (d :: rest).head?, Text.isDecimal c = false := by
      rcases delimiter with rfl | rfl <;> simp <;> decide
    have run := takeWhile_append_of_head all stop
    obtain ⟨first, more, rfl⟩ := List.exists_cons_of_length_pos some
    have digit := isDigits first (List.mem_cons_self ..)
    have other : ¬ (first = '-' ∨ first = '+' ∨ first = '*') := by
      rintro (rfl | rfl | rfl) <;> exact absurd digit (by decide)
    rw [List.append_assoc, List.singleton_append]
    unfold listMarker?
    simp only [List.cons_append] at run ⊢
    rw [if_neg other, run]
    simp only [List.length_cons, List.drop_succ_cons, List.drop_left]
    exact if_pos ⟨by omega, few, delimiter⟩

def Tight (s : List Char) : Prop := ∀ c ∈ s.head?, isIndentation c = false

namespace Marker

theorem tight_text (marker : Marker) (rest : List Char) : Tight (marker.text ++ rest) := by
  cases marker with
  | quote =>
    rintro c ⟨⟩
    decide
  | item mark isMark =>
    obtain ⟨first, more, rfl⟩ := List.exists_cons_of_ne_nil isMark.ne_nil
    rintro c ⟨⟩
    have marks := isMark.isMarkChar first (List.mem_cons_self ..)
    simp only [isIndentation, Bool.or_eq_false_iff, beq_eq_false_iff_ne]
    exact ⟨isMarkChar_ne marks (by decide), isMarkChar_ne marks (by decide)⟩

theorem ofText?_text (marker : Marker) (rest : List Char) :
    Fence.ofText? (marker.text ++ rest) = none := by
  cases marker with
  | quote => rfl
  | item mark isMark =>
    obtain ⟨first, more, rfl⟩ := List.exists_cons_of_ne_nil isMark.ne_nil
    have marks := isMark.isMarkChar first (List.mem_cons_self ..)
    refine if_neg ?_
    rintro (tick | tilde)
    · exact isMarkChar_ne marks (by decide) tick
    · exact isMarkChar_ne marks (by decide) tilde

theorem containerMarker?_text (marker : Marker) {rest : List Char} (tight : Tight rest) :
    containerMarker? (marker.text ++ rest) = some (marker.text, rest) := by
  cases marker with
  | quote => rfl
  | item mark isMark =>
    have gap : spaces (' ' :: rest) = [' '] := by
      have one : ∀ c ∈ [' '], (c == ' ') = true := by simp
      exact takeWhile_append_of_head one fun c first =>
        (Bool.or_eq_false_iff.mp (tight c first)).1
    have reads := isMark.listMarker?_append (' ' :: rest)
    obtain ⟨first, more, rfl⟩ := List.exists_cons_of_ne_nil isMark.ne_nil
    have marks := isMark.isMarkChar first (List.mem_cons_self ..)
    have other : first ≠ '>' := isMarkChar_ne marks (by decide)
    simp only [text, List.append_assoc, List.singleton_append]
    unfold containerMarker?
    split
    · rename_i same
      cases same
      exact absurd rfl other
    · rw [reads]
      simp [gap]

theorem blankMarkers_text (marker : Marker) : blankMarkers marker.text = marker.indent := by
  cases marker with
  | quote => decide
  | item mark isMark =>
    change (mark ++ [' ']).map _ = _
    rw [indent, List.map_append, List.replicate_succ']
    congr 1
    rw [List.map_eq_replicate_iff]
    intro c member
    have marks := isMark.isMarkChar c member
    simp only [isMarkChar, Bool.or_eq_true, beq_iff_eq, or_assoc] at marks
    apply if_pos
    rcases marks with rfl | rfl | rfl | rfl | rfl | digit
    iterate 5 decide
    simp [isDecimal_digit digit]

theorem indent_chars (marker : Marker) : ∀ c ∈ marker.indent, c = ' ' ∨ c = '>' := by
  intro c member
  cases marker with
  | quote => simpa [indent, or_comm] using member
  | item mark isMark => exact .inl (List.eq_of_mem_replicate member)

end Marker

section

variable (markers : List Marker)

theorem blankMarkers_markersText :
    blankMarkers (markersText markers) = markersIndent markers := by
  induction markers with
  | nil => rfl
  | cons marker rest ih =>
    change blankMarkers (marker.text ++ markersText rest) = marker.indent ++ markersIndent rest
    rw [← ih, ← marker.blankMarkers_text]
    exact List.map_append

theorem markersIndent_chars : ∀ c ∈ markersIndent markers, c = ' ' ∨ c = '>' := by
  intro c member
  obtain ⟨marker, _, inside⟩ := List.mem_flatMap.mp member
  exact marker.indent_chars c inside

end

theorem length_le_markersText (markers : List Marker) :
    markers.length ≤ (markersText markers).length := by
  induction markers with
  | nil => exact Nat.le_refl _
  | cons marker more ih =>
    have positive : 0 < marker.text.length := by cases marker <;> simp [Marker.text]
    change more.length + 1 ≤ (marker.text ++ markersText more).length
    rw [List.length_append]
    omega

theorem tight_markersText (markers : List Marker) {rest : List Char} (tight : Tight rest) :
    Tight (markersText markers ++ rest) := by
  cases markers with
  | nil => exact tight
  | cons marker more =>
    change Tight (marker.text ++ markersText more ++ rest)
    rw [List.append_assoc]
    exact marker.tight_text _

/-- Each marker is read with its space, and what follows the last one is left to read. -/
theorem openingFrom_markers (markers : List Marker) {rest : List Char} (tight : Tight rest)
    (container budget : List Char) (enough : markers.length < budget.length) :
    ∃ left, left ≠ [] ∧ openingFrom budget container (markersText markers ++ rest) =
      openingFrom left (container ++ markersText markers) rest := by
  induction markers generalizing container budget with
  | nil => exact ⟨budget, List.ne_nil_of_length_pos enough, by simp [markersText]⟩
  | cons marker more ih =>
    obtain ⟨b, budget, rfl⟩ := List.exists_cons_of_length_pos (Nat.zero_lt_of_lt enough)
    have after : Tight (markersText more ++ rest) := tight_markersText more tight
    have whole : markersText (marker :: more) ++ rest =
        marker.text ++ (markersText more ++ rest) := List.append_assoc ..
    have noIndent : spaces (marker.text ++ (markersText more ++ rest)) = [] := by
      refine takeWhile_of_head fun c first => ?_
      exact (Bool.or_eq_false_iff.mp (marker.tight_text _ c first)).1
    obtain ⟨left, some, same⟩ := ih (container ++ marker.text) budget (by simpa using enough)
    refine ⟨left, some, ?_⟩
    rw [whole, openingFrom]
    simp only [noIndent, List.length_nil, List.drop_zero, marker.ofText?_text,
      marker.containerMarker?_text after, List.append_nil, same]
    rw [if_neg (by decide), List.append_assoc]
    rfl

end BookHighlight.Markdown
