import DirectoryGateway.Decimal.Binary64
import DirectoryGateway.Text.Blank

/-!
# Decimal literals

A number as text: an optional sign, digits with or without a point among them, and an optional exponent. The double of
a literal is the one that is nearest to it.
-/

namespace DirectoryGateway.Decimal

open DirectoryGateway.Text (isDigit digitValue)

/-- The number `digits * 10 ^ power`, with a sign. -/
structure Literal where
  negative : Bool
  digits : Nat
  power : Int
  deriving Repr, DecidableEq

namespace Literal

/-! ### Reading -/

def appendDigits (n : Nat) (ds : List Char) : Nat :=
  ds.foldl (fun m c => 10 * m + digitValue c) n

def isPoint (cs : List Char) : Bool :=
  cs.head? == some '.'

/-- Reads digits around an optional point; at least one digit must be there. -/
def readDigits (cs : List Char) : Option (Nat × Nat × List Char) :=
  let (whole, rest) := cs.span isDigit
  let (fraction, rest) := if isPoint rest then rest.tail.span isDigit else ([], rest)
  if whole.isEmpty && fraction.isEmpty then none
  else some (appendDigits (appendDigits 0 whole) fraction, fraction.length, rest)

/-- A sign off the front: whether it is a minus. -/
def readSign : List Char → Bool × List Char
  | '-' :: cs => (true, cs)
  | '+' :: cs => (false, cs)
  | cs => (false, cs)

def readExponent : List Char → Option Int
  | [] => some 0
  | mark :: cs =>
    let (negative, ds) := readSign cs
    if (mark = 'e' ∨ mark = 'E') ∧ !ds.isEmpty ∧ ds.all isDigit then
      some (if negative then -(appendDigits 0 ds : Int) else appendDigits 0 ds)
    else none

def read? (cs : List Char) : Option Literal := do
  let (negative, cs) := readSign cs
  let (digits, places, cs) ← readDigits cs
  let exponent ← readExponent cs
  return ⟨negative, digits, exponent - places⟩

/-! ### Doubles -/

/-- Beyond this power of ten, either way, a literal has no finite double or is zero. -/
def maxPower : Int := 400

/-- The double nearest to the size of a literal; `none` if there is no finite one. -/
def double? (l : Literal) : Option Binary64 :=
  let top := l.power + (Nat.toDigits 10 l.digits).length
  if l.digits = 0 ∨ top < -maxPower then some ⟨0, 0⟩
  else if maxPower < top then none
  else
    let r := Ratio.scale ⟨l.digits, 1⟩ 10 l.power
    if overflows r then none else some (.ofRatio r)

end Literal

end DirectoryGateway.Decimal
