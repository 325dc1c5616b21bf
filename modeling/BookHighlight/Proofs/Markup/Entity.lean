import BookHighlight.Markup.Entity

namespace BookHighlight.Markup

def entityAt? : List Char → Option (Char × Nat)
  | '&' :: 'a' :: 'm' :: 'p' :: ';' :: _ => some ('&', 5)
  | '&' :: 'l' :: 't' :: ';' :: _ => some ('<', 4)
  | '&' :: 'g' :: 't' :: ';' :: _ => some ('>', 4)
  | '&' :: '#' :: rest =>
    let digits := rest.takeWhile Char.isDigit
    if digits.isEmpty || (rest.drop digits.length).head? != some ';' then none
    else some (Char.ofNat (Nat.ofDigitChars 10 digits 0), digits.length + 3)
  | _ => none

def decodeFrom : (skip : Nat) → List Char → List Char
  | _, [] => []
  | skip + 1, _ :: rest => decodeFrom skip rest
  | 0, c :: rest =>
    match entityAt? (c :: rest) with
    | some (char, width) => char :: decodeFrom (width - 1) rest
    | none => c :: decodeFrom 0 rest

def decode (s : List Char) : List Char := decodeFrom 0 s

theorem entityAt?_of_ne {c : Char} (h : c ≠ '&') (s : List Char) : entityAt? (c :: s) = none := by
  unfold entityAt?
  split <;> simp_all

theorem entity_chars {c : Char} {entity : String} (h : entity? c = some entity) :
    ∀ d ∈ entity.toList, d = '&' ∨ entity? d = none := by
  have inert : entity.toList.all (fun d => d == '&' || (entity? d).isNone) = true := by
    unfold entity? at h
    split at h <;> cases h <;> rfl
  intro d member
  have either := List.all_eq_true.mp inert d member
  rwa [Bool.or_eq_true, beq_iff_eq, Option.isNone_iff_eq_none] at either

theorem escapeChar_chars (c : Char) : ∀ d ∈ escapeChar c, d = '&' ∨ entity? d = none := by
  cases active : entity? c with
  | none => simp [escapeChar, active]
  | some entity =>
    simp only [escapeChar, active]
    exact entity_chars active

theorem mem_escape {s : List Char} {c : Char} (h : c ∈ escape s) : c = '&' ∨ entity? c = none := by
  obtain ⟨source, _, member⟩ := List.mem_flatMap.mp h
  exact escapeChar_chars source c member

theorem not_mem_escape {c : Char} {entity : String} (active : entity? c = some entity)
    (other : c ≠ '&') (s : List Char) : c ∉ escape s := by
  intro member
  rcases mem_escape member with same | inert
  · exact other same
  · rw [active] at inert
    cases inert

theorem decode_escapeChar (c : Char) (s : List Char) :
    decode (escapeChar c ++ s) = c :: decode s := by
  cases active : entity? c with
  | none =>
    have other : c ≠ '&' := by
      rintro rfl
      cases active
    simp [escapeChar, active, decode, decodeFrom, entityAt?_of_ne other]
  | some entity =>
    simp only [escapeChar, active]
    unfold entity? at active
    split at active <;> cases active <;> rfl

theorem decode_escape (s : List Char) : decode (escape s) = s := by
  induction s with
  | nil => rfl
  | cons c s ih =>
    change decode (escapeChar c ++ escape s) = c :: s
    rw [decode_escapeChar, ih]

end BookHighlight.Markup
