import DirectoryGateway.Der.Length

/-!
# DER elements

An element is a tag, the length of its content, and the content. The readers here are strict: they take
one element with the given tag off the front and refuse every other form, and an integer must be
non-negative and have no needless leading zero byte.
-/

namespace DirectoryGateway.Der

/-! ### Tags -/

def integerTag : UInt8 := 0x02
def bitStringTag : UInt8 := 0x03
def nullTag : UInt8 := 0x05
def objectIdTag : UInt8 := 0x06
def sequenceTag : UInt8 := 0x30

/-! ### Writing -/

def element (tag : UInt8) (content : List UInt8) : List UInt8 :=
  tag :: (lengthBytes content.length ++ content)

/-- The content of a non-negative integer: its significant bytes, after a zero byte where the first of
them has its top bit set; zero is a single zero byte. -/
def integerContent (magnitude : List UInt8) : List UInt8 :=
  match Bytes.significant magnitude with
  | [] => [0]
  | b :: rest => if b.toNat < 128 then b :: rest else 0 :: b :: rest

def unsignedInteger (magnitude : List UInt8) : List UInt8 :=
  element integerTag (integerContent magnitude)

/-! ### Reading -/

/-- Takes an element with the given tag off the front: its content and the bytes after it. -/
def readElement (tag : UInt8) : List UInt8 → Option (List UInt8 × List UInt8)
  | [] => none
  | t :: rest =>
    if t = tag then
      match readLength rest with
      | some (n, after) => takeExactly n after
      | none => none
    else none

/-- Whether integer content is non-negative and minimal. -/
def isUnsignedContent : List UInt8 → Bool
  | [] => false
  | [b] => b.toNat < 128
  | b :: c :: _ => if b = 0 then 128 ≤ c.toNat else b.toNat < 128

/-- Takes a non-negative integer off the front. -/
def readUnsigned (bytes : List UInt8) : Option (Nat × List UInt8) :=
  match readElement integerTag bytes with
  | some (content, after) =>
    if isUnsignedContent content then some (Bytes.toNat content, after) else none
  | none => none

end DirectoryGateway.Der
