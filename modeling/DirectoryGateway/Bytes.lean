/-!
# Bytes, text and numbers

Byte lists as UTF-8 text and as big-endian numbers.
-/

namespace DirectoryGateway.Bytes

/-! ### Text -/

def ofText (s : String) : List UInt8 :=
  s.toUTF8.toList

/-- The text whose UTF-8 form the bytes are. -/
def toText? (bytes : List UInt8) : Option String :=
  String.fromUTF8? ⟨bytes.toArray⟩

/-! ### Numbers -/

/-- The value of a big-endian byte list. -/
def toNat (bytes : List UInt8) : Nat :=
  bytes.foldl (fun n b => n * 256 + b.toNat) 0

/-- The `width` low bytes of a number, most significant first. -/
def ofNat (width n : Nat) : List UInt8 :=
  match width with
  | 0 => []
  | width + 1 => ofNat width (n / 256) ++ [UInt8.ofNat (n % 256)]

/-- The number of bytes that hold a number: none for zero. -/
def width (n : Nat) : Nat :=
  if n = 0 then 0 else n.log2 / 8 + 1

/-- The shortest big-endian form of a number: no leading zero byte, nothing for zero. -/
def minimal (n : Nat) : List UInt8 :=
  ofNat (width n) n

/-- A byte list without its leading zero bytes. -/
def significant (bytes : List UInt8) : List UInt8 :=
  bytes.dropWhile (· == 0)

end DirectoryGateway.Bytes
