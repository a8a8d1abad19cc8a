/-!
# Base64 text

Both alphabets, the encoder, and a decoder that names the first fault of a text. Texts and their contents
are byte lists. Three rules of padding are told apart: complete as the encoder writes it, any amount that
the format allows, or none at all.
-/

namespace DirectoryGateway.Base64

/-! ### Alphabets -/

/-- An alphabet is settled by its last two symbols. -/
structure Alphabet where
  symbol62 : UInt8
  symbol63 : UInt8

/-- Letters, digits, plus and slash. -/
def standard : Alphabet := ⟨'+'.toUInt8, '/'.toUInt8⟩

/-- Letters, digits, minus and underscore: safe in URLs. -/
def urlSafe : Alphabet := ⟨'-'.toUInt8, '_'.toUInt8⟩

def pad : UInt8 := '='.toUInt8

def Alphabet.symbol (a : Alphabet) (v : Nat) : UInt8 :=
  if v < 26 then UInt8.ofNat (65 + v)
  else if v < 52 then UInt8.ofNat (71 + v)
  else if v < 62 then UInt8.ofNat (v - 4)
  else if v = 62 then a.symbol62
  else a.symbol63

def Alphabet.value (a : Alphabet) (b : UInt8) : Option Nat :=
  let n := b.toNat
  if 65 ≤ n ∧ n ≤ 90 then some (n - 65)
  else if 97 ≤ n ∧ n ≤ 122 then some (n - 71)
  else if 48 ≤ n ∧ n ≤ 57 then some (n + 4)
  else if b = a.symbol62 then some 62
  else if b = a.symbol63 then some 63
  else none

/-! ### Encoding -/

/-- Encodes bytes; the last group is filled up with padding bytes if `padded`. -/
def Alphabet.encode (a : Alphabet) (padded : Bool) : List UInt8 → List UInt8
  | b₀ :: b₁ :: b₂ :: rest =>
    a.symbol (b₀.toNat / 4) :: a.symbol (b₀.toNat % 4 * 16 + b₁.toNat / 16) ::
      a.symbol (b₁.toNat % 16 * 4 + b₂.toNat / 64) :: a.symbol (b₂.toNat % 64) :: a.encode padded rest
  | [b₀, b₁] =>
    [a.symbol (b₀.toNat / 4), a.symbol (b₀.toNat % 4 * 16 + b₁.toNat / 16),
      a.symbol (b₁.toNat % 16 * 4)] ++ if padded then [pad] else []
  | [b₀] =>
    [a.symbol (b₀.toNat / 4), a.symbol (b₀.toNat % 4 * 16)] ++ if padded then [pad, pad] else []
  | [] => []

def Alphabet.encodeText (a : Alphabet) (padded : Bool) (bytes : List UInt8) : String :=
  String.ofList ((a.encode padded bytes).map fun b => Char.ofNat b.toNat)

/-! ### Decoding -/

inductive Padding where
  /-- Exactly as much as fills the last group. -/
  | canonical
  /-- At most as much as fills the last group. -/
  | indifferent
  | absent
  deriving Repr, DecidableEq

inductive Fault where
  | symbol (byte : UInt8) (offset : Nat)
  | lastSymbol (byte : UInt8) (offset : Nat)
  | length (count : Nat)
  | padding
  deriving Repr, DecidableEq

def Fault.message : Fault → String
  | .symbol byte offset => s!"Invalid symbol {byte.toNat}, offset {offset}."
  | .lastSymbol byte offset => s!"Invalid last symbol {byte.toNat}, offset {offset}."
  | .length count => s!"Invalid input length: {count}"
  | .padding => "Invalid padding"

/-- The number of bytes before the last group; a complete last group counts as the last. -/
def leadingLength (length : Nat) : Nat :=
  if length % 4 = 0 then length - 4 else length - length % 4

def Alphabet.valueAt (a : Alphabet) (offset : Nat) (b : UInt8) : Except Fault Nat :=
  match a.value b with
  | some v => .ok v
  | none => .error (.symbol b offset)

def groupBytes (v₀ v₁ v₂ v₃ : Nat) : List UInt8 :=
  [UInt8.ofNat (v₀ * 4 + v₁ / 16), UInt8.ofNat (v₁ % 16 * 16 + v₂ / 4),
    UInt8.ofNat (v₂ % 4 * 64 + v₃)]

/-- Decodes complete groups without padding, the first of them at `offset`. -/
def Alphabet.decodeGroups (a : Alphabet) (offset : Nat) : List UInt8 → Except Fault (List UInt8)
  | b₀ :: b₁ :: b₂ :: b₃ :: rest =>
    match a.valueAt offset b₀, a.valueAt (offset + 1) b₁, a.valueAt (offset + 2) b₂,
        a.valueAt (offset + 3) b₃ with
    | .ok v₀, .ok v₁, .ok v₂, .ok v₃ =>
      match a.decodeGroups (offset + 4) rest with
      | .ok bytes => .ok (groupBytes v₀ v₁ v₂ v₃ ++ bytes)
      | .error f => .error f
    | .error f, _, _, _ => .error f
    | _, .error f, _, _ => .error f
    | _, _, .error f, _ => .error f
    | _, _, _, .error f => .error f
  | _ => .ok []

/-- What is known of the last group while it is read. -/
structure Tail where
  values : List Nat := []
  last : UInt8 := 0
  pads : Nat := 0
  /-- Where the first padding byte stood. -/
  firstPad : Nat := 0

/-- Reads the last group, which starts at `start`; `index` counts its bytes so far. -/
def Alphabet.readTail (a : Alphabet) (start : Nat) :
    (index : Nat) → Tail → List UInt8 → Except Fault Tail
  | _, t, [] => .ok t
  | index, t, b :: rest =>
    if b = pad then
      if index < 2 then .error (.symbol b (start + index))
      else
        a.readTail start (index + 1)
          { t with pads := t.pads + 1, firstPad := if t.pads = 0 then index else t.firstPad } rest
    -- A symbol after padding: it is the padding that is at fault.
    else if t.pads > 0 then .error (.symbol pad (start + t.firstPad))
    else
      match a.value b with
      | none => .error (.symbol b (start + index))
      | some v => a.readTail start (index + 1) { t with values := t.values ++ [v], last := b } rest

/-- The bytes of the last group; bits that belong to no byte must be zero. -/
def tailBytes (start : Nat) (t : Tail) : Except Fault (List UInt8) :=
  match t.values with
  | [v₀, v₁] =>
    if v₁ % 16 = 0 then .ok [UInt8.ofNat (v₀ * 4 + v₁ / 16)] else .error (.lastSymbol t.last (start + 1))
  | [v₀, v₁, v₂] =>
    if v₂ % 4 = 0 then .ok [UInt8.ofNat (v₀ * 4 + v₁ / 16), UInt8.ofNat (v₁ % 16 * 16 + v₂ / 4)]
    else .error (.lastSymbol t.last (start + 2))
  | [v₀, v₁, v₂, v₃] => .ok (groupBytes v₀ v₁ v₂ v₃)
  | _ => .ok []

def Padding.allows (p : Padding) (t : Tail) : Bool :=
  match p with
  | .canonical => (t.pads + t.values.length) % 4 == 0
  | .indifferent => true
  | .absent => t.pads == 0

def Alphabet.decodeTail (a : Alphabet) (p : Padding) (start : Nat) (bytes : List UInt8) :
    Except Fault (List UInt8) :=
  match a.readTail start 0 {} bytes with
  | .error f => .error f
  | .ok t =>
    -- One symbol holds six bits, which are no byte yet.
    if t.values.length < 2 ∧ ¬ bytes = [] then .error (.length (start + t.values.length))
    else if p.allows t then tailBytes start t
    else .error .padding

/-- A single byte after complete groups that is neither symbol nor padding. -/
def Alphabet.strayLast (a : Alphabet) (bytes : List UInt8) : Option UInt8 :=
  if bytes.length % 4 = 1 then
    match bytes.getLast? with
    | some b => if b = pad ∨ (a.value b).isSome then none else some b
    | none => none
  else none

/-- Decodes a text: the stray last byte is looked for first, then the complete groups, then the last. -/
def Alphabet.decode (a : Alphabet) (p : Padding) (bytes : List UInt8) : Except Fault (List UInt8) :=
  match a.strayLast bytes with
  | some b => .error (.symbol b (bytes.length - 1))
  | none =>
    match a.decodeGroups 0 (bytes.take (leadingLength bytes.length)) with
    | .error f => .error f
    | .ok front =>
      match a.decodeTail p (leadingLength bytes.length) (bytes.drop (leadingLength bytes.length)) with
      | .error f => .error f
      | .ok back => .ok (front ++ back)

end DirectoryGateway.Base64
