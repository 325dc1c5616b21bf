import BookHighlight.Text.Encoding

namespace BookHighlight.Text

theorem ofCode_toNat (c : Char) : ofCode c.toNat = c := by
  have valid : c.toNat < 0xD800 ∨ 0xDFFF < c.toNat ∧ c.toNat < 0x110000 := c.valid
  have whole : isHalf c.toNat = false := by
    simp only [isHalf, Bool.and_eq_false_iff, decide_eq_false_iff_not]
    omega
  simp only [ofCode, whole, Bool.false_eq_true, if_false, Char.ofNat_toNat]

theorem toNat_byte {n : Nat} (small : n < 256) : (UInt8.ofNat n).toNat = n :=
  UInt8.toNat_ofNat_of_lt' small

theorem utf8Tail_continuation {width value k owed : Nat} {range : Nat × Nat}
    (within : range.1 ≤ 0x80 + k % 0x40 ∧ 0x80 + k % 0x40 ≤ range.2) (rest : List UInt8) :
    utf8Tail width value range (owed + 1) (UInt8.ofNat (0x80 + k % 0x40) :: rest) =
      utf8Tail (width + 1) (value * 0x40 + k % 0x40) (0x80, 0xBF) owed rest := by
  rw [utf8Tail, toNat_byte (by omega), if_pos within, Nat.add_sub_cancel_left]

theorem secondByteRange_holds {n k : Nat} (shortThree : k % 0x40 < 0x20 → n ≠ 0xE0)
    (surrogate : 0x20 ≤ k % 0x40 → n ≠ 0xED) (shortFour : k % 0x40 < 0x10 → n ≠ 0xF0)
    (beyond : 0x10 ≤ k % 0x40 → n ≠ 0xF4) (halves : Bool) :
    (secondByteRange halves n).1 ≤ 0x80 + k % 0x40 ∧
      0x80 + k % 0x40 ≤ (secondByteRange halves n).2 := by
  have bound := Nat.mod_lt k (by decide : 0 < 0x40)
  unfold secondByteRange
  split
  · omega
  · split
    · cases halves <;> simp only [Bool.false_eq_true, if_false, if_true] <;> omega
    · split
      · omega
      · split <;> omega

/-- The bytes of a character are read as that character, whatever follows them. -/
theorem utf8Step_utf8Char (halves : Bool) (c : Char) : ∃ first others,
    utf8Char c = first :: others ∧
      ∀ rest, utf8Step halves first (others ++ rest) = .char c (others.length + 1) := by
  have back : ofCode c.toNat = c := ofCode_toNat c
  have valid : c.toNat < 0xD800 ∨ 0xDFFF < c.toNat ∧ c.toNat < 0x110000 := c.valid
  unfold utf8Char
  generalize c.toNat = n at back valid
  dsimp only
  split
  · rename_i one
    refine ⟨_, [], rfl, fun rest => ?_⟩
    rw [utf8Step, toNat_byte (by omega), if_pos one, back]
    rfl
  split
  · rename_i other two
    have whole : (0xC0 + n / 0x40 - 0xC0) * 0x40 + n % 0x40 = n := by omega
    refine ⟨_, _, rfl, fun rest => ?_⟩
    rw [utf8Step, toNat_byte (by omega), if_neg (by omega), if_neg (by omega),
      if_pos (by omega), List.cons_append, utf8Tail_continuation (by constructor <;> omega),
      whole, utf8Tail, back]
    rfl
  split
  · rename_i other two three
    have whole : ((0xE0 + n / 0x1000 - 0xE0) * 0x40 + n / 0x40 % 0x40) * 0x40 + n % 0x40 = n := by
      omega
    refine ⟨_, _, rfl, fun rest => ?_⟩
    rw [utf8Step, toNat_byte (by omega), if_neg (by omega), if_neg (by omega), if_neg (by omega),
      if_pos (by omega), List.cons_append, utf8Tail_continuation, List.cons_append,
      utf8Tail_continuation (by constructor <;> omega), whole, utf8Tail, back]
    · rfl
    · -- neither an overlong form nor a surrogate
      apply secondByteRange_holds <;> omega
  · rename_i other two three
    have whole : (((0xF0 + n / 0x40000 - 0xF0) * 0x40 + n / 0x1000 % 0x40) * 0x40 +
        n / 0x40 % 0x40) * 0x40 + n % 0x40 = n := by omega
    refine ⟨_, _, rfl, fun rest => ?_⟩
    rw [utf8Step, toNat_byte (by omega), if_neg (by omega), if_neg (by omega), if_neg (by omega),
      if_neg (by omega), if_pos (by omega), List.cons_append, utf8Tail_continuation,
      List.cons_append, utf8Tail_continuation (by constructor <;> omega), List.cons_append,
      utf8Tail_continuation (by constructor <;> omega), whole, utf8Tail, back]
    · rfl
    · -- neither an overlong form nor more than the last character
      apply secondByteRange_holds <;> omega

theorem utf8Chars_skip (halves : Bool) (front rest : List UInt8) :
    utf8Chars halves front.length (front ++ rest) = utf8Chars halves 0 rest := by
  induction front with
  | nil => rfl
  | cons b front ih => rw [List.length_cons, List.cons_append, utf8Chars, ih]

theorem utf8Chars_toUtf8 (halves : Bool) (s : List Char) :
    utf8Chars halves 0 (toUtf8 s) = s.map some := by
  unfold toUtf8
  induction s with
  | nil => rfl
  | cons c s ih =>
    obtain ⟨first, others, bytes, step⟩ := utf8Step_utf8Char halves c
    rw [List.flatMap_cons, bytes, List.cons_append, utf8Chars, step]
    dsimp only
    rw [Nat.add_sub_cancel, utf8Chars_skip, ih, List.map_cons]

theorem ofUtf8?_toUtf8 (halves : Bool) (s : List Char) : ofUtf8? halves (toUtf8 s) = some s := by
  rw [ofUtf8?, utf8Chars_toUtf8]
  induction s with
  | nil => rfl
  | cons c s ih =>
    rw [List.map_cons, List.mapM_cons, ih]
    rfl

theorem decode?_toUtf8 {s : List Char} (detected : detectEncoding (toUtf8 s) = .utf8 false) :
    decode? (toUtf8 s) = some s := by
  rw [decode?, detected]
  exact ofUtf8?_toUtf8 true s

end BookHighlight.Text
