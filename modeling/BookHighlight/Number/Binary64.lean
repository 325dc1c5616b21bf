import BookHighlight.Number.Power

namespace BookHighlight

/-- A double-precision number. A finite one is `± significand · 2 ^ exponent`, zero included;
    `round` yields significands below `2 ^ 53`, of 53 bits unless the exponent is -1074. -/
inductive Binary64 where
  | nan
  | infinite (negative : Bool)
  | finite (negative : Bool) (significand : Nat) (exponent : Int)
  deriving DecidableEq, Repr, Inhabited

namespace Binary64

def zero (negative : Bool) : Binary64 := .finite negative 0 (-1074)

def nearestEven (num den : Nat) : Nat :=
  let quotient := num / den
  let twice := 2 * (num % den)
  if twice < den then quotient
  else if den < twice then quotient + 1
  else quotient + quotient % 2

def unscale (num den : Nat) (exponent : Int) : Nat × Nat :=
  if 0 ≤ exponent then (num, den * twoTo exponent.toNat) else (num * twoTo (-exponent).toNat, den)

/-- The exponent that gives the quotient `num / den` a significand of 53 bits, or -1074 when that
    is larger. -/
def exponentOf (num den : Nat) : Int :=
  let guess : Int := (num.log2 : Int) - den.log2 - 52
  let (n, d) := unscale num den guess
  max (if n < twoTo 52 * d then guess - 1 else guess) (-1074)

def round (negative : Bool) (num den : Nat) : Binary64 :=
  if num = 0 then zero negative
  else
    let exponent := exponentOf num den
    let (n, d) := unscale num den exponent
    let significand := nearestEven n d
    let (significand, exponent) :=
      if significand = twoTo 53 then (twoTo 52, exponent + 1) else (significand, exponent)
    if 971 < exponent then .infinite negative else .finite negative significand exponent

/-- Reads `± digits · 10 ^ power`. Powers beyond any double's reach are decided by size alone. -/
def ofDecimal (negative : Bool) (digits : Nat) (power : Int) : Binary64 :=
  if digits = 0 then zero negative
  else if 400 < power then .infinite negative
  else if power + digits.log2 < -1200 then zero negative
  else if 0 ≤ power then round negative (digits * tenTo power.toNat) 1
  else round negative digits (tenTo (-power).toNat)

def ofInt? (n : Int) : Option Binary64 :=
  match round (n < 0) n.natAbs 1 with
  | .infinite _ => none
  | x => some x

def isPositive : Binary64 → Bool
  | .nan => false
  | .infinite negative => !negative
  | .finite negative significand _ => !negative && significand != 0

def isZero : Binary64 → Bool
  | .finite _ significand _ => significand == 0
  | _ => false

def sameNumber (x y : Binary64) : Bool := x == y || (x.isZero && y.isZero)

def isInt (x : Binary64) (n : Int) : Bool :=
  match x with
  | .finite negative significand exponent =>
    let (num, den) := unscale significand 1 (-exponent)
    (if negative then -(num : Int) else num) == n * den
  | _ => false

example : round false 1 10 = .finite false 0x1999999999999A (-56) := by decide

end Binary64

end BookHighlight
