import DirectoryGateway.Bytes

/-!
# Percent encoding

Bytes written as a percent sign and two hexadecimal digits. A percent sign without two digits after it stands for
itself.
-/

namespace DirectoryGateway.Text

def percent : UInt8 := '%'.toUInt8

def hexDigitValue (b : UInt8) : Option Nat :=
  let n := b.toNat
  if 48 ≤ n ∧ n ≤ 57 then some (n - 48)
  else if 97 ≤ n ∧ n ≤ 102 then some (n - 87)
  else if 65 ≤ n ∧ n ≤ 70 then some (n - 55)
  else none

def percentDecode : List UInt8 → List UInt8
  | [] => []
  | [b] => [b]
  | [b, c] => [b, c]
  | b :: c :: d :: rest =>
    if b = percent then
      match hexDigitValue c, hexDigitValue d with
      | some x, some y => UInt8.ofNat (16 * x + y) :: percentDecode rest
      | _, _ => b :: percentDecode (c :: d :: rest)
    else b :: percentDecode (c :: d :: rest)

/-- The upper-case hexadecimal digit of a value below sixteen. -/
def upperHexDigit (n : Nat) : Char :=
  if n < 10 then Char.ofNat (48 + n) else Char.ofNat (55 + n)

def percentByte (b : UInt8) : List Char :=
  ['%', upperHexDigit (b.toNat / 16), upperHexDigit (b.toNat % 16)]

/-- Encodes the bytes of every character that `plain` does not let stand. -/
def percentEncode (plain : Char → Bool) (cs : List Char) : List Char :=
  cs.flatMap fun c =>
    if plain c then [c] else (Bytes.ofText (String.singleton c)).flatMap percentByte

/-- The text that a piece of a path stands for, if it is one. -/
def percentText? (s : String) : Option String :=
  Bytes.toText? (percentDecode (Bytes.ofText s))

end DirectoryGateway.Text
