import BookHighlight.Number.Binary64

namespace BookHighlight

theorem twoTo_add (m n : Nat) : twoTo (m + n) = twoTo m * twoTo n := Nat.pow_add 2 m n

theorem twoTo_succ (n : Nat) : twoTo (n + 1) = 2 * twoTo n := Nat.pow_succ'

theorem twoTo_lt {m n : Nat} (h : m < n) : twoTo m < twoTo n :=
  Nat.pow_lt_pow_right (by decide) h

theorem twoTo_le {m n : Nat} (h : m ≤ n) : twoTo m ≤ twoTo n :=
  Nat.pow_le_pow_right (by decide) h

theorem twoTo_pos (n : Nat) : 0 < twoTo n := Nat.two_pow_pos n

theorem le_log2_iff {num : Nat} (positive : num ≠ 0) (place : Nat) :
    place ≤ num.log2 ↔ twoTo place ≤ num := Nat.le_log2 positive

namespace Binary64

/-- Of the numbers below an even multiple of a denominator, those up to half a denominator away are
    rounded to it. -/
theorem nearestEven_eq_iff {num half multiple : Nat} (positive : 0 < half)
    (even : multiple % 2 = 0) (below : num < multiple * (2 * half)) :
    nearestEven num (2 * half) = multiple ↔ multiple * (2 * half) ≤ num + half := by
  have whole := Nat.div_add_mod num (2 * half)
  have small := Nat.mod_lt num (show 0 < 2 * half by omega)
  have before : num / (2 * half) < multiple := Nat.div_lt_of_lt_mul (by rwa [Nat.mul_comm])
  unfold nearestEven
  dsimp only
  generalize num / (2 * half) = quotient at *
  generalize num % (2 * half) = remainder at *
  obtain ⟨further, rfl⟩ : ∃ further, multiple = quotient + 1 + further :=
    ⟨multiple - (quotient + 1), by omega⟩
  have size : (quotient + 1 + further) * (2 * half) =
      2 * half * quotient + 2 * half + further * (2 * half) := by
    rw [Nat.add_mul, Nat.add_mul, Nat.one_mul, Nat.mul_comm quotient]
  have apart : 0 < further → 2 * half ≤ further * (2 * half) := Nat.le_mul_of_pos_left _
  rw [size]
  by_cases next : further = 0
  · subst next
    rw [Nat.zero_mul]
    split
    · omega
    · split <;> omega
  · have apart := apart (Nat.pos_of_ne_zero next)
    generalize further * (2 * half) = gap at *
    split
    · omega
    · split <;> omega

/-- A whole number, that has its leading bit at the place of its logarithm, needs no correction of
    the exponent. -/
theorem exponentOf_one {num : Nat} (positive : num ≠ 0) :
    exponentOf num 1 = (num.log2 : Int) - 52 := by
  have leading : twoTo num.log2 ≤ num := Nat.log2_self_le positive
  have enough : ¬ (unscale num 1 ((num.log2 : Int) - 52)).1 <
      twoTo 52 * (unscale num 1 ((num.log2 : Int) - 52)).2 := by
    rw [Nat.not_lt]
    unfold unscale
    split
    · rename_i large
      have place : num.log2 = 52 + ((num.log2 : Int) - 52).toNat := by omega
      rw [Nat.one_mul, ← twoTo_add, ← place]
      exact leading
    · rename_i small
      have place : twoTo 52 = twoTo num.log2 * twoTo (-((num.log2 : Int) - 52)).toNat := by
        rw [← twoTo_add]
        congr 1
        omega
      rw [Nat.mul_one, place]
      exact Nat.mul_le_mul_right _ leading
  have guess : (num.log2 : Int) - (Nat.log2 1 : Nat) - 52 = (num.log2 : Int) - 52 := by
    have one : Nat.log2 1 = 0 := by decide
    omega
  unfold exponentOf
  dsimp only
  rw [guess, if_neg enough]
  omega

theorem round_infinite_iff (negative : Bool) {num : Nat} (positive : num ≠ 0) :
    round negative num 1 = .infinite negative ↔ 971 < exponentOf num 1 ∨
      exponentOf num 1 = 971 ∧ nearestEven num (twoTo 971) = twoTo 53 := by
  unfold round
  rw [if_neg positive]
  dsimp only
  by_cases last : exponentOf num 1 = 971
  · have scaled : unscale num 1 971 = (num, twoTo 971) := by
      rw [unscale, if_pos (by decide), Nat.one_mul]
      rfl
    rw [last, scaled]
    by_cases carried : nearestEven num (twoTo 971) = twoTo 53 <;> simp [carried]
  · have carries : 971 < exponentOf num 1 + 1 ↔ 971 < exponentOf num 1 := by omega
    split <;> simp [last, carries]

/-- The least whole number to which no double is near: as far behind the largest double as half the
    step in front of it. -/
def reach : Nat := twoTo 1024 - twoTo 970

theorem round_whole_infinite_iff (negative : Bool) {num : Nat} (positive : num ≠ 0) :
    round negative num 1 = .infinite negative ↔ reach ≤ num := by
  have beyond := le_log2_iff positive 1024
  have last := le_log2_iff positive 1023
  have half := twoTo_pos 970
  have step : twoTo 971 = 2 * twoTo 970 := twoTo_succ 970
  have whole : twoTo 53 * (2 * twoTo 970) = twoTo 1024 := by rw [← step, ← twoTo_add]
  have middle : twoTo 1024 = 2 * twoTo 1023 := twoTo_succ 1023
  have within : twoTo 970 ≤ twoTo 1023 := twoTo_le (by decide)
  rw [round_infinite_iff negative positive, exponentOf_one positive, step, reach]
  by_cases large : twoTo 1024 ≤ num
  · omega
  · have below : num < twoTo 53 * (2 * twoTo 970) := by
      rw [whole]
      exact Nat.lt_of_not_le large
    rw [nearestEven_eq_iff half (by decide) below, whole]
    omega

theorem round_infinite_or_finite (negative : Bool) (num den : Nat) :
    round negative num den = .infinite negative ∨
      ∃ significand exponent, round negative num den = .finite negative significand exponent := by
  unfold round
  split
  · exact .inr ⟨_, _, rfl⟩
  · dsimp only
    split <;> split <;> simp

theorem ofInt?_isSome_iff (n : Int) : (ofInt? n).isSome = true ↔ n.natAbs < reach := by
  by_cases zero : n = 0
  · subst zero
    have positive : 0 < reach := Nat.sub_pos_of_lt (twoTo_lt (by decide))
    exact ⟨fun _ => positive, fun _ => rfl⟩
  · have infinite := round_whole_infinite_iff (n < 0) (Int.natAbs_ne_zero.mpr zero)
    rw [← Nat.not_le, ← infinite, ofInt?]
    rcases round_infinite_or_finite (n < 0) n.natAbs 1 with far | ⟨significand, exponent, near⟩
    · simp [far]
    · simp [near]

theorem exists_ofInt? {n : Int} (positive : 0 < n) (below : n < reach) :
    ∃ x, ofInt? n = some x :=
  Option.isSome_iff_exists.mp ((ofInt?_isSome_iff n).mpr (by omega))

end Binary64

end BookHighlight
