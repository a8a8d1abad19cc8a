import DirectoryGateway.Decimal.Binary64
import DirectoryGateway.Time.Calendar

/-!
# Timestamps from a number of seconds

Of a double, the whole seconds are its floor, and the nanoseconds are the rest times a billion, rounded to a double and
cut. A rest that rounds to a second is one.
-/

namespace DirectoryGateway.Time

open DirectoryGateway.Decimal

/-- Whole seconds below a signed double, and the double of what is left. -/
def splitSeconds (negative : Bool) (x : Binary64) : Int × Binary64 :=
  let r := x.toRatio
  let q := r.num / r.den
  let rest := r.num % r.den
  if negative then
    if rest = 0 then (-(q : Int), ⟨0, 0⟩) else (-(q : Int) - 1, .ofRatio ⟨r.den - rest, r.den⟩)
  else ((q : Int), .ofRatio ⟨rest, r.den⟩)

/-- The time a number of seconds after the epoch, if its year is in range. -/
def Timestamp.ofSeconds? (negative : Bool) (size : Binary64) : Option Timestamp :=
  let (seconds, rest) := splitSeconds negative size
  let billion := (rest.scaleNat 1000000000).toRatio
  let nanos := billion.num / billion.den
  -- A rest just below a second may have rounded to a billion nanoseconds.
  Timestamp.ofEpoch? (seconds + (nanos / 1000000000 : Nat)) (nanos % 1000000000)

end DirectoryGateway.Time
