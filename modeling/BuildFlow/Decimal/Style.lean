import BuildFlow.Decimal.Shortest
/-!
How a float is written: which exponents are written positionally, whether a
whole number keeps its `.0`, and the mark of a positive exponent. The styles in
use are records of these choices.
-/
namespace BuildFlow.Decimal

structure Style where
  /-- Whether a value whose first digit has this weight is written positionally. -/
  positional : Int → Bool
  /-- Whole numbers end in `.0` when written positionally. -/
  keepPoint : Bool
  /-- A positive exponent has a `+`. -/
  markPositive : Bool

/-- Weights from `10 ^ -5` below `10 ^ 16` are positional, and exponents carry their sign. -/
def Style.document : Style := ⟨fun w => -5 ≤ w && w < 16, true, true⟩

/-- Weights from `10 ^ -4` below `10 ^ 16` are positional. -/
def Style.inspect : Style := ⟨fun w => -4 ≤ w && w < 16, true, false⟩

/-- Always positional, and a whole number has no point. -/
def Style.plain : Style := ⟨fun _ => true, false, false⟩

def zeros (n : Nat) : String := String.ofList (List.replicate n '0')

/-- The digits written out with a decimal point. -/
def Digits.positional (d : Digits) (keepPoint : Bool) : String :=
  let text := toString d.digits
  if 0 ≤ d.exponent then
    text ++ zeros d.exponent.toNat ++ (if keepPoint then ".0" else "")
  else
    let places := (-d.exponent).toNat
    let padded := zeros (places + 1 - text.length) ++ text
    let whole := padded.length - places
    String.ofList (padded.toList.take whole) ++ "." ++ String.ofList (padded.toList.drop whole)

/-- The digits with one before the point and an exponent. -/
def Digits.scientific (d : Digits) (markPositive : Bool) : String :=
  let text := (toString d.digits).toList
  let weight := d.exponent + text.length - 1
  let fraction := if text.length ≤ 1 then "" else "." ++ String.ofList (text.drop 1)
  let mark := if 0 ≤ weight && markPositive then "+" else ""
  String.ofList (text.take 1) ++ fraction ++ "e" ++ mark ++ toString weight

def sign (negative : Bool) : String := if negative then "-" else ""

/-- The shortest text of a float in a style. -/
def Style.write (style : Style) (x : Float) : String :=
  match Binary.ofFloat x with
  | .nan => "NaN"
  | .infinite negative => sign negative ++ "inf"
  | .finite negative mantissa exponent tight =>
      sign negative ++
      if mantissa = 0 then (Digits.mk 0 0).positional style.keepPoint
      else
        let d := shortest mantissa exponent tight
        if style.positional (d.exponent + digitCount d.digits - 1) then d.positional style.keepPoint
        else d.scientific style.markPositive

/-- A float with a fixed number of decimal places, rounded from its exact
value; a half goes to the even neighbour. -/
def fixed (places : Nat) (x : Float) : String :=
  match Binary.ofFloat x with
  | .nan => "NaN"
  | .infinite negative => sign negative ++ "inf"
  | .finite negative mantissa exponent _ =>
      let (num, den) := scaled mantissa exponent
      let units := roundEven (num * Nat.pow 10 places) den
      sign negative ++
      if places = 0 then toString units else (Digits.mk units (-(places : Int))).positional false

end BuildFlow.Decimal
