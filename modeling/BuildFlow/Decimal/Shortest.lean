import BuildFlow.Decimal.Binary
/-!
The fewest decimal digits that read back as a given float. A decimal reads back
when it lies in the interval of reals that round to the float; the ends belong
to the interval when the mantissa is even. The grids of one, two, and so on up
to seventeen digits are tried in turn, and on each only the two neighbours of
the value.
-/
namespace BuildFlow.Decimal

/-- A positive decimal `digits · 10 ^ exponent`. -/
structure Digits where
  digits : Nat
  exponent : Int
  deriving DecidableEq, Repr

/-- The interval of reals that round to a float, over one denominator. -/
structure Interval where
  low : Nat
  value : Nat
  high : Nat
  denominator : Nat
  closed : Bool

def Interval.around (mantissa : Nat) (exponent : Int) (tight : Bool) : Interval :=
  -- Quarters of the last place are whole here, which the lower end of a tight interval needs.
  let (scale, denominator) := scaled 1 (exponent - 2)
  { low := (if tight then 4 * mantissa - 1 else 4 * mantissa - 2) * scale
    value := 4 * mantissa * scale
    high := (4 * mantissa + 2) * scale
    denominator
    closed := mantissa % 2 = 0 }

/-- Whether `n · 10 ^ e` lies in the interval. -/
def Interval.holds (interval : Interval) (n : Nat) (e : Int) : Bool :=
  let (n, d) := if 0 ≤ e then (n * Nat.pow 10 e.toNat * interval.denominator, 1)
    else (n * interval.denominator, Nat.pow 10 (-e).toNat)
  if interval.closed then interval.low * d ≤ n && n ≤ interval.high * d
  else interval.low * d < n && n < interval.high * d

def digitCount (n : Nat) : Nat := (Nat.toDigits 10 n).length

/-- The power of ten at or below a positive quotient. -/
def leadingExponent (num den : Nat) : Int :=
  if den ≤ num then (digitCount (num / den) : Int) - 1
  else
    -- The counts of digits give the exponent up to one.
    let guess := digitCount den - digitCount num
    if den ≤ num * Nat.pow 10 guess then -(guess : Int) else -(guess : Int) - 1

/-- The neighbour on the grid `10 ^ e` that reads back, the nearer one if both do. -/
def Interval.neighbour? (interval : Interval) (e : Int) : Option Digits :=
  let (num, den) := if 0 ≤ e then (interval.value, interval.denominator * Nat.pow 10 e.toNat)
    else (interval.value * Nat.pow 10 (-e).toNat, interval.denominator)
  let below := num / den
  let rest := num % den
  let lower := decide (0 < below) && interval.holds below e
  let upper := interval.holds (below + 1) e
  if lower && upper then
    if 2 * rest < den || (2 * rest == den && below % 2 == 0) then some ⟨below, e⟩
    else some ⟨below + 1, e⟩
  else if lower then some ⟨below, e⟩
  else if upper then some ⟨below + 1, e⟩
  else none

/-- Moves the zeros at the end of the digits into the exponent. -/
def Digits.trim : Nat → Digits → Digits
  | 0, d => d
  | fuel + 1, d =>
      if d.digits ≠ 0 ∧ d.digits % 10 = 0 then trim fuel ⟨d.digits / 10, d.exponent + 1⟩
      else d

/-- The shortest digits of the positive value `mantissa · 2 ^ exponent`. -/
def shortest (mantissa : Nat) (exponent : Int) (tight : Bool) : Digits :=
  let interval := Interval.around mantissa exponent tight
  let lead := leadingExponent interval.value interval.denominator
  let found := (List.range 17).findSome? fun n : Nat => interval.neighbour? (lead - (n : Int))
  match found with
  | some d => d.trim 20
  | none => ⟨0, 0⟩

end BuildFlow.Decimal
