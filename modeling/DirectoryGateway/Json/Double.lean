import DirectoryGateway.Decimal.Binary64
import DirectoryGateway.Json.Basic

/-!
# Numbers as doubles

The double that a number stands for is reached in steps, each of which rounds: the leading digits that fit into 64 bits
make an integer, and that is multiplied or divided by a power of ten. So it may be a neighbour of the double that is
nearest to the number.
-/

namespace DirectoryGateway.Json

open DirectoryGateway.Decimal

/-! ### Digits -/

def digitList (n : Nat) : List Nat :=
  (Nat.toDigits 10 n).map fun c => c.toNat - '0'.toNat

/-- Whether one more digit fits into 64 bits. -/
def fits (n d : Nat) : Bool :=
  10 * n + d < Nat.pow 2 64

/-- Takes in the digits of a whole part while they fit: their value, and the number of those left out. -/
def takeWhole (n : Nat) : List Nat → Nat × Nat
  | [] => (n, 0)
  | d :: ds => if fits n d then takeWhole (10 * n + d) ds else (n, ds.length + 1)

/-- Takes in the digits of a fraction while they fit: the value, and the number of those taken. -/
def takeFraction (n : Nat) : List Nat → Nat × Nat
  | [] => (n, 0)
  | d :: ds =>
    if fits n d then
      let (m, taken) := takeFraction (10 * n + d) ds
      (m, taken + 1)
    else (n, 0)

/-- The leading digits of a number, and the power of ten that they are counted in. -/
def Number.leading (n : Number) : Nat × Int :=
  let (whole, left) := takeWhole 0 (digitList n.whole)
  let (digits, taken) := takeFraction whole n.fraction
  (digits, (left : Int) - taken + n.exponent.getD 0)

/-! ### Scaling -/

/-- The largest power of ten that a number is scaled by at once. -/
def maxScale : Nat := 308

/-- Scales by a power of ten; `none` if that leads past the largest double. A number that must be divided more than
`fuel` times is zero by then. -/
def scaleByTen : (fuel : Nat) → Binary64 → (power : Int) → Option Binary64
  | 0, _, _ => some ⟨0, 0⟩
  | fuel + 1, x, power =>
    if power.natAbs ≤ maxScale then
      if 0 ≤ power then
        let y := x.mul (.powerOfTen power.natAbs)
        if y.isHuge then none else some y
      else some (x.div (.powerOfTen power.natAbs))
    else if x.mantissa = 0 then some x
    -- With such a power even one is past the largest double.
    else if 0 ≤ power then none
    else scaleByTen fuel (x.div (.powerOfTen maxScale)) (power + maxScale)

/-- The size of a number as a double; `none` if it is out of range. -/
def Number.double? (n : Number) : Option Binary64 :=
  let (digits, power) := n.leading
  scaleByTen 4 (.ofRatio ⟨digits, 1⟩) power

end DirectoryGateway.Json
