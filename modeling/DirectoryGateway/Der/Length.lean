import DirectoryGateway.Bytes

/-!
# DER lengths

A length below 128 is one byte. A longer one is a byte that counts the bytes of its shortest big-endian
form, and then that form. The reader takes the shortest form alone.
-/

namespace DirectoryGateway.Der

/-! ### Writing -/

def lengthBytes (n : Nat) : List UInt8 :=
  if n < 128 then [UInt8.ofNat n]
  else UInt8.ofNat (128 + Bytes.width n) :: Bytes.minimal n

/-! ### Reading -/

def takeExactly (k : Nat) (bytes : List UInt8) : Option (List UInt8 × List UInt8) :=
  if k ≤ bytes.length then some (bytes.take k, bytes.drop k) else none

/-- Reads a length in shortest form: the length and the bytes after it. -/
def readLength : List UInt8 → Option (Nat × List UInt8)
  | [] => none
  | b :: rest =>
    if b.toNat < 128 then some (b.toNat, rest)
    else
      match takeExactly (b.toNat - 128) rest with
      | none => none
      | some (digits, after) =>
        let n := Bytes.toNat digits
        if 128 ≤ n ∧ lengthBytes n = b :: digits then some (n, after) else none

end DirectoryGateway.Der
