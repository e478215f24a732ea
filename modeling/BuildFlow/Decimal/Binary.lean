/-!
The exact value of a binary float as a scaled natural number, and the rounding
of exact quotients. All decimal output goes through these two, so that no step
of it rounds by itself.
-/
namespace BuildFlow.Decimal

/-- A float taken apart: a finite value is `± mantissa · 2 ^ exponent`. The
bit `tight` marks a mantissa whose lower neighbour lies only half as far away
as the upper one. -/
inductive Binary where
  | nan
  | infinite (negative : Bool)
  | finite (negative : Bool) (mantissa : Nat) (exponent : Int) (tight : Bool)
  deriving DecidableEq, Repr

/-- The first bit of a mantissa, which is not stored: it stands before the 52
bits that are. -/
def implicitBit : Nat := 1 <<< 52

def Binary.ofFloat (x : Float) : Binary :=
  let bits := x.toBits.toNat
  let negative : Bool := bits >>> 63 = 1
  let exponent : Nat := (bits >>> 52) % 2048
  let fraction : Nat := bits % implicitBit
  if exponent = 2047 then
    if fraction = 0 then .infinite negative else .nan
  else if exponent = 0 then .finite negative fraction (-1074) false
  else .finite negative (implicitBit + fraction) ((exponent : Int) - 1075) (fraction = 0 ∧ 1 < exponent)

/-- The quotient to which `n · 2 ^ e` reduces, as numerator and denominator. -/
def scaled (n : Nat) (e : Int) : Nat × Nat :=
  if 0 ≤ e then (n <<< e.toNat, 1) else (n, 1 <<< (-e).toNat)

/-- The nearest natural number to a quotient; halves go to the even neighbour. -/
def roundEven (num den : Nat) : Nat :=
  let floor := num / den
  let rest := 2 * (num % den)
  if rest < den then floor
  else if den < rest then floor + 1
  else if floor % 2 = 0 then floor else floor + 1

end BuildFlow.Decimal
