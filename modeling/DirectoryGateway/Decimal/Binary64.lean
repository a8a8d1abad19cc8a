/-!
# Non-negative numbers with fifty-three significant bits

Exact values of double precision, `mantissa * 2 ^ exponent`, rounded to nearest with ties to the even
mantissa, their order, and their shortest decimal text. Small numbers have fewer bits, as the exponent has a lower bound. It has
no upper bound; `overflows` tells which quotients have no finite double.
-/

namespace DirectoryGateway.Decimal

/-- A number with at most fifty-three significant bits. -/
structure Binary64 where
  mantissa : Nat
  exponent : Int
  deriving Repr, DecidableEq

/-! ### Quotients -/

structure Ratio where
  num : Nat
  den : Nat
  deriving Repr, DecidableEq

def Ratio.scale (r : Ratio) (base : Nat) (power : Int) : Ratio :=
  if 0 ≤ power then ⟨r.num * Nat.pow base power.toNat, r.den⟩
  else ⟨r.num, r.den * Nat.pow base (-power).toNat⟩

/-- The nearest natural number; ties go to the even one. -/
def Ratio.round (r : Ratio) : Nat :=
  let q := r.num / r.den
  let rest := r.num % r.den
  if 2 * rest > r.den ∨ (2 * rest = r.den ∧ q % 2 = 1) then q + 1 else q

def Binary64.toRatio (x : Binary64) : Ratio :=
  Ratio.scale ⟨x.mantissa, 1⟩ 2 x.exponent

instance : LE Binary64 where
  le x y := x.toRatio.num * y.toRatio.den ≤ y.toRatio.num * x.toRatio.den

instance (x y : Binary64) : Decidable (x ≤ y) :=
  inferInstanceAs (Decidable ((_ : Nat) ≤ _))

/-! ### Rounding -/

def leastExponent : Int := -1074

/-- The exponent that gives a positive fraction a mantissa of fifty-three bits. -/
def binaryExponent (r : Ratio) : Int :=
  let guess : Int := (r.num.log2 : Int) - (r.den.log2 : Int) - 52
  -- The bit lengths leave two exponents open; the quotient tells them apart.
  let scaled := r.scale 2 (-guess)
  if scaled.num / scaled.den < Nat.pow 2 52 then guess - 1 else guess

def Binary64.ofRatio (r : Ratio) : Binary64 :=
  if r.num = 0 then ⟨0, 0⟩
  else
    let e := max (binaryExponent r) leastExponent
    let m := (r.scale 2 (-e)).round
    -- Rounding up may have carried into a fifty-fourth bit.
    if m = Nat.pow 2 53 then ⟨Nat.pow 2 52, e + 1⟩ else ⟨m, e⟩

/-- The nearest number to a sum. -/
def Binary64.add (x y : Binary64) : Binary64 :=
  let a := x.toRatio
  let b := y.toRatio
  .ofRatio ⟨a.num * b.den + b.num * a.den, a.den * b.den⟩

def Binary64.mul (x y : Binary64) : Binary64 :=
  let a := x.toRatio
  let b := y.toRatio
  .ofRatio ⟨a.num * b.num, a.den * b.den⟩

/-- The nearest number to a quotient; the divisor is not zero. -/
def Binary64.div (x y : Binary64) : Binary64 :=
  let a := x.toRatio
  let b := y.toRatio
  .ofRatio ⟨a.num * b.den, a.den * b.num⟩

def Binary64.scaleNat (x : Binary64) (n : Nat) : Binary64 :=
  let a := x.toRatio
  .ofRatio ⟨a.num * n, a.den⟩

def Binary64.powerOfTen (n : Nat) : Binary64 :=
  .ofRatio ⟨Nat.pow 10 n, 1⟩

/-- Whether a fraction rounds past the largest finite double. -/
def overflows (r : Ratio) : Bool :=
  r.den * (Nat.pow 2 1024 - Nat.pow 2 970) ≤ r.num

def Binary64.isHuge (x : Binary64) : Bool :=
  overflows x.toRatio

/-! ### Decimal text -/

/-- A decimal `digits * 10 ^ power`. -/
structure Numeral where
  digits : Nat
  power : Int
  deriving Repr, DecidableEq

/-- The power of ten above a positive fraction: `10 ^ (p - 1) ≤ r < 10 ^ p`. -/
def decimalExponent (r : Ratio) : Int :=
  let guess : Int := ((Nat.toDigits 10 r.num).length : Int) - ((Nat.toDigits 10 r.den).length : Int)
  let scaled := r.scale 10 (-guess)
  if scaled.num < scaled.den then guess else guess + 1

/-- Whether a multiple of `10 ^ power` reads back as the number. -/
def Binary64.readsBack (x : Binary64) (power : Int) (c : Nat) : Bool :=
  let v := x.toRatio.scale 10 (-power)
  -- The ends of the interval around a number round to it only if its mantissa is even.
  let even := x.mantissa % 2 == 0
  -- Below a power of two the neighbours stand half as far apart.
  let below :=
    if x.mantissa = Nat.pow 2 52 ∧ x.exponent ≠ leastExponent then 4 * x.mantissa else 2 * x.mantissa
  let inside := fun (gap : Nat) => if even then gap ≤ v.num else gap < v.num
  if v.num ≤ c * v.den then inside (2 * x.mantissa * (c * v.den - v.num))
  else inside (below * (v.num - c * v.den))

/-- The better of the two neighbours of the number on the grid of `10 ^ power`, if one reads back. -/
def Binary64.onGrid (x : Binary64) (power : Int) : Option Nat :=
  let v := x.toRatio.scale 10 (-power)
  let low := v.num / v.den
  let nearLow := 2 * (v.num % v.den) ≤ v.den
  let first := if nearLow then low else low + 1
  let second := if nearLow then low + 1 else low
  if x.readsBack power first then some first
  else if x.readsBack power second then some second
  else none

/-- The decimal of fewest digits that reads back; `count` digits are tried first. -/
def Binary64.shortestFrom (x : Binary64) (top : Int) : (tries : Nat) → (count : Nat) → Numeral
  -- Not reached from `shortest`: seventeen digits read back for every number.
  | 0, count => ⟨((x.toRatio.scale 10 (count - top)).round), top - count⟩
  | tries + 1, count =>
    match x.onGrid (top - count) with
    | some c => ⟨c, top - count⟩
    | none => x.shortestFrom top tries (count + 1)

def Binary64.shortest (x : Binary64) : Numeral :=
  if x.mantissa = 0 then ⟨0, 0⟩ else x.shortestFrom (decimalExponent x.toRatio) 17 1

/-- Positional text: no exponent, and no point in a whole number. -/
def Numeral.text (d : Numeral) : String :=
  if 0 ≤ d.power then toString (d.digits * Nat.pow 10 d.power.toNat)
  else
    let places := (-d.power).toNat
    let whole := d.digits / Nat.pow 10 places
    -- The power of ten in front keeps the zeros that the part begins with.
    let part := (Nat.toDigits 10 (Nat.pow 10 places + d.digits % Nat.pow 10 places)).drop 1
    let kept := (part.reverse.dropWhile (· == '0')).reverse
    if kept.isEmpty then toString whole else toString whole ++ "." ++ String.ofList kept

def Binary64.text (x : Binary64) : String :=
  x.shortest.text

end DirectoryGateway.Decimal
