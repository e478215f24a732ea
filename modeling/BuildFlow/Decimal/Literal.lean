/-!
The float that a decimal literal denotes. Digits are taken as one natural
number below `2 ^ 64`; digits that no longer fit only move the exponent. The
number is rounded to a float and then scaled by powers of ten, each step
rounding once.
-/
namespace BuildFlow.Decimal

/-- Digits read so far: their value and the power of ten it still lacks. -/
structure Significand where
  value : Nat
  exponent : Int
  deriving DecidableEq, Repr

def Significand.fits (s : Significand) (digit : Nat) : Bool :=
  s.value * 10 + digit < 18446744073709551616

/-- Digits before the point. From the first one that does not fit, each digit
counts as a factor of ten. -/
def Significand.whole (s : Significand) : List Nat → Significand
  | [] => s
  | digit :: rest =>
      if s.fits digit then whole ⟨s.value * 10 + digit, s.exponent⟩ rest
      else ⟨s.value, s.exponent + rest.length + 1⟩

/-- Digits after the point. From the first one that does not fit, all are dropped. -/
def Significand.fraction (s : Significand) : List Nat → Significand
  | [] => s
  | digit :: rest =>
      if s.fits digit then fraction ⟨s.value * 10 + digit, s.exponent - 1⟩ rest
      else s

/-- The power of ten with a natural exponent of at most 308. -/
def powerOfTen (n : Nat) : Float := Float.ofScientific 1 false n

/-- Scales a float by `10 ^ e`, by steps of at most 308; none if it leaves the
range of floats. -/
def scale : Nat → Float → Int → Option Float
  | 0, _, _ => some 0
  | steps + 1, x, e =>
      if e.natAbs ≤ 308 then
        if 0 ≤ e then
          let y := x * powerOfTen e.natAbs
          if y.isInf then none else some y
        else some (x / powerOfTen e.natAbs)
      else if x == 0 then some x
      else if 0 ≤ e then none
      else scale steps (x / powerOfTen 308) (e + 308)

/-- The float denoted by a significand and a written exponent.
A significand below `2 ^ 64` vanishes after three divisions by `10 ^ 308`. -/
def Significand.toFloat (s : Significand) (negative : Bool) (written : Int) : Option Float := do
  let x ← scale 4 (Float.ofNat s.value) (s.exponent + written)
  return if negative then -x else x

end BuildFlow.Decimal
