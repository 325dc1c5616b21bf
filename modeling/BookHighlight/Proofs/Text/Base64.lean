import BookHighlight.Text.Base64

namespace BookHighlight.Text

theorem sextetChar_ne {c : Char} (each : ∀ n < 64, sextetChar n ≠ c) (n : Nat) :
    sextetChar n ≠ c := by
  by_cases small : n < 64
  · exact each n small
  · have last : sextetChar n = sextetChar 63 := by
      unfold sextetChar
      rw [if_neg, if_neg, if_neg, if_neg] <;> first | rfl | omega
    rw [last]
    exact each 63 (by decide)

theorem sextetChar_ne_lf (n : Nat) : sextetChar n ≠ '\n' := sextetChar_ne (by decide) n

theorem sextetChar_ne_pad (n : Nat) : sextetChar n ≠ '=' := sextetChar_ne (by decide) n

theorem lf_not_mem_toBase64 (bytes : List UInt8) : '\n' ∉ toBase64 bytes := by
  have inert := fun n => (sextetChar_ne_lf n).symm
  fun_induction toBase64 bytes with
  | case1 => simp
  | case2 a => simp [inert]
  | case3 a b => simp [inert]
  | case4 a b c rest ih => simp [inert, ih]

theorem sextet?_sextetChar {n : Nat} (h : n < 64) : sextet? (sextetChar n) = some n := by
  have each : ∀ n < 64, sextet? (sextetChar n) = some n := by decide
  exact each n h

theorem ofNat_eq_of_toNat {byte : UInt8} {n : Nat} (h : n = byte.toNat) : UInt8.ofNat n = byte := by
  rw [h, UInt8.ofNat_toNat]

/-- What was encoded is read back: the bits of each byte are put together again. -/
theorem ofBase64?_toBase64 (bytes : List UInt8) : ofBase64? (toBase64 bytes) = some bytes := by
  fun_induction toBase64 bytes with
  | case1 => rfl
  | case2 a =>
    have ha := a.toNat_lt
    have first := sextet?_sextetChar (n := a.toNat / 4) (by omega)
    have second := sextet?_sextetChar (n := a.toNat % 4 * 16) (by omega)
    have byte : UInt8.ofNat (a.toNat / 4 * 4 + a.toNat % 4 * 16 / 16) = a :=
      ofNat_eq_of_toNat (by omega)
    simp only [ofBase64?, first, second, bind, Option.bind_some, byte]
    rfl
  | case3 a b =>
    have ha := a.toNat_lt
    have hb := b.toNat_lt
    have first := sextet?_sextetChar (n := a.toNat / 4) (by omega)
    have second := sextet?_sextetChar (n := a.toNat % 4 * 16 + b.toNat / 16) (by omega)
    have third := sextet?_sextetChar (n := b.toNat % 16 * 4) (by omega)
    have high : UInt8.ofNat (a.toNat / 4 * 4 + (a.toNat % 4 * 16 + b.toNat / 16) / 16) = a :=
      ofNat_eq_of_toNat (by omega)
    have low : UInt8.ofNat ((a.toNat % 4 * 16 + b.toNat / 16) % 16 * 16 +
        b.toNat % 16 * 4 / 4) = b := ofNat_eq_of_toNat (by omega)
    simp only [ofBase64?, sextetChar_ne_pad, false_implies, first, second, third, bind,
      Option.bind_some, high, low]
    rfl
  | case4 a b c rest ih =>
    have ha := a.toNat_lt
    have hb := b.toNat_lt
    have hc := c.toNat_lt
    have first := sextet?_sextetChar (n := a.toNat / 4) (by omega)
    have second := sextet?_sextetChar (n := a.toNat % 4 * 16 + b.toNat / 16) (by omega)
    have third := sextet?_sextetChar (n := b.toNat % 16 * 4 + c.toNat / 64) (by omega)
    have fourth := sextet?_sextetChar (n := c.toNat % 64) (by omega)
    have high : UInt8.ofNat (a.toNat / 4 * 4 + (a.toNat % 4 * 16 + b.toNat / 16) / 16) = a :=
      ofNat_eq_of_toNat (by omega)
    have middle : UInt8.ofNat ((a.toNat % 4 * 16 + b.toNat / 16) % 16 * 16 +
        (b.toNat % 16 * 4 + c.toNat / 64) / 4) = b := ofNat_eq_of_toNat (by omega)
    have low : UInt8.ofNat ((b.toNat % 16 * 4 + c.toNat / 64) % 4 * 64 + c.toNat % 64) = c :=
      ofNat_eq_of_toNat (by omega)
    simp only [ofBase64?, sextetChar_ne_pad, false_implies, implies_true, first, second, third,
      fourth, ih, bind, Option.bind_some, high, middle, low]
    rfl

end BookHighlight.Text
