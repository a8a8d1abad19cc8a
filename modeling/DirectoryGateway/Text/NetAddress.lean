import DirectoryGateway.Text.Blank

/-!
# Network addresses as text

An address of four decimal bytes, or one of eight hexadecimal words. A run of zero words may be left out once, and the
last two words may be written as an address of four bytes. The readers take an address off the front.
-/

namespace DirectoryGateway.Text

/-! ### Numbers -/

/-- The value of a digit of the given base, ten or sixteen. -/
def digitOf? (base : Nat) (c : Char) : Option Nat :=
  if isDigit c then some (digitValue c)
  else if base = 16 then
    if 'a' ≤ c ∧ c ≤ 'f' then some (c.toNat - 87)
    else if 'A' ≤ c ∧ c ≤ 'F' then some (c.toNat - 55)
    else none
  else none

/-- The value of the digits in front, their number, and the rest. -/
def spanDigitsOf (base : Nat) : (value count : Nat) → List Char → Nat × Nat × List Char
  | value, count, [] => (value, count, [])
  | value, count, c :: cs =>
    match digitOf? base c with
    | some d => spanDigitsOf base (value * base + d) (count + 1) cs
    | none => (value, count, c :: cs)

/-- A number up to a limit, at the front. -/
def readLimited (base limit : Nat) (cs : List Char) : Option (Nat × List Char) :=
  match spanDigitsOf base 0 0 cs with
  | (value, count, rest) => if 0 < count ∧ value ≤ limit then some (value, rest) else none

/-- A byte in at most three digits without a zero in front. -/
def readOctet (cs : List Char) : Option (Nat × List Char) :=
  match spanDigitsOf 10 0 0 cs with
  | (value, count, rest) =>
    if 0 < count ∧ count ≤ 3 ∧ value ≤ 255 ∧ (cs.head? ≠ some '0' ∨ count = 1) then some (value, rest)
    else none

/-- A word in at most four hexadecimal digits. -/
def readWord (cs : List Char) : Option (Nat × List Char) :=
  match spanDigitsOf 16 0 0 cs with
  | (value, count, rest) => if 0 < count ∧ count ≤ 4 then some (value, rest) else none

def readChar (c : Char) : List Char → Option (List Char)
  | [] => none
  | d :: rest => if d = c then some rest else none

/-! ### Addresses -/

/-- Four bytes with points between them. -/
def readFour (cs : List Char) : Option (List Nat × List Char) := do
  let (a, cs) ← readOctet cs
  let cs ← readChar '.' cs
  let (b, cs) ← readOctet cs
  let cs ← readChar '.' cs
  let (c, cs) ← readOctet cs
  let cs ← readChar '.' cs
  let (d, cs) ← readOctet cs
  return ([a, b, c, d], cs)

/-- The two words that an address of four bytes fills. -/
def wordsOfFour : List Nat → List Nat
  | [a, b, c, d] => [a * 256 + b, c * 256 + d]
  | _ => []

/-- Words at the front, whether the last two came from an address of four bytes, and the rest. -/
structure Words where
  words : List Nat
  fromFour : Bool
  rest : List Char

/-- As many words with colons between them as there are, up to `room`; `begun` tells whether one came before. -/
def readWords : (room : Nat) → (begun : Bool) → List Char → Words
  | 0, _, cs => ⟨[], false, cs⟩
  | room + 1, begun, cs =>
    match (if begun then readChar ':' cs else some cs) with
    | none => ⟨[], false, cs⟩
    | some inner =>
      -- An address of four bytes takes the room of two words.
      match (if 0 < room then readFour inner else none) with
      | some (four, rest) => ⟨wordsOfFour four, true, rest⟩
      | none =>
        match readWord inner with
        | some (w, rest) =>
          let later := readWords room true rest
          { later with words := w :: later.words }
        | none => ⟨[], false, cs⟩

/-- Eight words, a run of zeros among them perhaps left out between two colons; an address of four bytes may only come
last. -/
def readSix (cs : List Char) : Option (List Nat × List Char) :=
  let head := readWords 8 false cs
  if head.words.length = 8 then some (head.words, head.rest)
  else if head.fromFour then none
  else
    match head.rest with
    | ':' :: ':' :: rest =>
      let tail := readWords (8 - (head.words.length + 1)) false rest
      some (head.words ++ List.replicate (8 - head.words.length - tail.words.length) 0 ++ tail.words,
        tail.rest)
    | _ => none

end DirectoryGateway.Text
