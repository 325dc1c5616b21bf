import BookHighlight.Number.Binary64

namespace BookHighlight

structure Decimal where
  digits : Nat
  count : Nat
  point : Int
  deriving DecidableEq, Repr

namespace Decimal

def scale (num den : Nat) (power : Int) : Nat × Nat :=
  if 0 ≤ power then (num * tenTo power.toNat, den) else (num, den * tenTo (-power).toNat)

def below (num den : Nat) (power : Int) : Bool :=
  let (n, d) := scale num den (-power)
  n < d

/-- The least `p` with `num / den < 10 ^ p`. The quotient of the binary logarithms by `log₂ 10`
    is at most a few steps short of it. -/
def pointOf (num den : Nat) : Int :=
  let guess : Int := ((num.log2 : Int) - den.log2 - 1) * 30103 / 100000 - 1
  ([guess, guess + 1, guess + 2, guess + 3].find? (below num den)).getD (guess + 4)

def trimZeros : (count digits : Nat) → Nat × Nat
  | 0, digits => (0, digits)
  | count + 1, digits =>
    if digits % 10 = 0 then trimZeros count (digits / 10) else (count + 1, digits)

def trimmed (x : Decimal) : Decimal :=
  let (count, digits) := trimZeros x.count x.digits
  { x with count, digits }

def nearest (count : Nat) (num den : Nat) : Decimal :=
  let point := pointOf num den
  let (n, d) := scale num den (count - point)
  let digits := Binary64.nearestEven n d
  if digits = tenTo count then ⟨tenTo (count - 1), count, point + 1⟩ else ⟨digits, count, point⟩

/-- The shortest decimal that reads back as `significand · 2 ^ exponent`; of two such the nearer,
    of two equally near the even one. On each grid of decimals, if any point reads back then one
    of the value's two neighbours does. -/
def shortest (significand : Nat) (exponent : Int) : Decimal :=
  -- quarters of the last binary place, so that both halfway points are whole
  let (unit, den) :=
    if 0 ≤ exponent then (twoTo exponent.toNat, 4) else (1, 4 * twoTo (-exponent).toNat)
  let num := 4 * significand * unit
  let low := num - (if significand = twoTo 52 ∧ -1074 < exponent then 1 else 2) * unit
  let high := num + 2 * unit
  let closed := significand % 2 = 0
  let point := pointOf num den
  let readsBack (n d candidate : Nat) : Bool :=
    -- `n / d` is the value in units of the grid
    let inside := fun bound => candidate * d * num == bound * n
    let above := low * n < candidate * d * num || (closed && inside low)
    let under := candidate * d * num < high * n || (closed && inside high)
    above && under
  let onGrid (count : Nat) : Option Decimal :=
    let (n, d) := scale num den (count - point)
    let floor := n / d
    let pick := fun digits => some (⟨digits, count, point⟩ : Decimal)
    match readsBack n d floor, readsBack n d (floor + 1) with
    | true, true => pick (Binary64.nearestEven n d)
    | true, false => pick floor
    | false, true => pick (floor + 1)
    | false, false => none
  let found := ((List.range 17).findSome? fun i => onGrid (i + 1)).getD (nearest 17 num den)
  if found.digits = tenTo found.count then ⟨1, 1, found.point + 1⟩ else found.trimmed

end Decimal

end BookHighlight
