import BuildFlow.Decimal.Style
/-!
Readings of the wall clock and lengths of time. A reading counts microseconds
since the epoch, and a node that has not started holds the reading 0. Flows
compare readings as seconds, so that an interval given as a float is used as
it was written.
-/
namespace BuildFlow

/-- A reading of the wall clock, in microseconds since the epoch. -/
structure Instant where
  micros : Int
  deriving DecidableEq, Repr, Inhabited

namespace Instant

/-- The reading that stands for "not started". -/
def none : Instant := ⟨0⟩

/-- Whether something started at this reading. -/
def isSet (instant : Instant) : Bool := 0 < instant.micros

def seconds (instant : Instant) : Float :=
  Float.ofInt instant.micros / 1000000

def add (instant : Instant) (micros : Int) : Instant := ⟨instant.micros + micros⟩

/-- The seconds from one reading to a later one. -/
def secondsSince (instant earlier : Instant) : Float :=
  instant.seconds - earlier.seconds

/-- The reading at a number of seconds, to the nearest microsecond. Halves go
away from zero, and what does not fit a signed word of 64 bits is clamped. -/
def ofSeconds (seconds : Float) : Instant :=
  ⟨(seconds * 1000000).round.toInt64.toInt⟩

end Instant

/-- The time spent in the current attempt and since the start of the outermost
flow, given as seconds. -/
def elapsedMessage (now invoked start : Float) : String :=
  "after: " ++ Decimal.fixed 3 (now - invoked) ++ "s/" ++ Decimal.fixed 3 (now - start) ++ "s"

/-- A length of time in whole nanoseconds. -/
structure Duration where
  nanos : Nat
  deriving DecidableEq, Repr, Inhabited

namespace Duration

/-- The duration nearest to a number of seconds, with halves to the even
neighbour. Negative numbers, NaN and whatever needs more than 64 bits of
seconds have none. -/
def ofSeconds? (seconds : Float) : Option Duration :=
  match Decimal.Binary.ofFloat seconds with
  | .nan | .infinite _ => none
  | .finite negative mantissa exponent _ =>
      if negative && mantissa != 0 then none
      else
        let (num, den) := Decimal.scaled mantissa exponent
        if 18446744073709551616 * den ≤ num then none
        else some ⟨Decimal.roundEven (num * 1000000000) den⟩

def wholeSeconds (duration : Duration) : Nat := duration.nanos / 1000000000
def subsecNanos (duration : Duration) : Nat := duration.nanos % 1000000000
def micros (duration : Duration) : Nat := duration.nanos / 1000

end Duration

end BuildFlow
