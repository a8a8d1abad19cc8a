import DirectoryGateway.Text.Blank

/-!
# Decimal integers of bounded size

An optional sign and decimal digits, read from the left. The first digit that is not one and the first
step past the bound are told apart, and whichever comes first in the text is reported.
-/

namespace DirectoryGateway.Text

/-- Why a text is not an integer of the asked size. -/
inductive IntegerFault where
  | empty
  | invalidDigit
  | tooLarge
  | tooSmall
  deriving Repr, DecidableEq

def IntegerFault.message : IntegerFault → String
  | .empty => "cannot parse integer from empty string"
  | .invalidDigit => "invalid digit found in string"
  | .tooLarge => "number too large to fit in target type"
  | .tooSmall => "number too small to fit in target type"

/-- Appends decimal digits to `n`; `fault` is reported when the value passes `limit`. -/
def appendDigits (limit : Nat) (fault : IntegerFault) : Nat → List Char → Except IntegerFault Nat
  | n, [] => .ok n
  | n, c :: cs =>
    if isDigit c then
      if 10 * n + digitValue c ≤ limit then appendDigits limit fault (10 * n + digitValue c) cs
      else .error fault
    else .error .invalidDigit

/-- A natural number up to `limit`: digits after an optional plus sign. -/
def readNat (limit : Nat) : List Char → Except IntegerFault Nat
  | [] => .error .empty
  | ['+'] => .error .invalidDigit
  | '+' :: cs => appendDigits limit .tooLarge 0 cs
  | cs => appendDigits limit .tooLarge 0 cs

/-- An integer from `-(limit + 1)` to `limit`: digits after an optional sign. -/
def readInt (limit : Nat) : List Char → Except IntegerFault Int
  | [] => .error .empty
  | ['+'] => .error .invalidDigit
  | ['-'] => .error .invalidDigit
  | '+' :: cs => (appendDigits limit .tooLarge 0 cs).map Int.ofNat
  | '-' :: cs => (appendDigits (limit + 1) .tooSmall 0 cs).map fun n => -Int.ofNat n
  | cs => (appendDigits limit .tooLarge 0 cs).map Int.ofNat

def maxWord64 : Nat := Nat.pow 2 64 - 1

def maxInt64 : Nat := Nat.pow 2 63 - 1

def maxInt32 : Nat := Nat.pow 2 31 - 1

end DirectoryGateway.Text
