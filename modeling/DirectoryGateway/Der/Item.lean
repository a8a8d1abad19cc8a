import DirectoryGateway.Der.Element
import DirectoryGateway.Text.Blank
import DirectoryGateway.Time.Calendar

/-!
# Tolerant reading of DER

`items` reads a whole byte list into a tree in which only sequences, object identifiers, bit strings and
octet strings keep their content; every other element is checked as far as its tag asks and then set
aside. Lengths need not be in shortest form, and where elements are expected there is at least one. Searches go through
sequences alone, depth first.
-/

namespace DirectoryGateway.Der

/-- An element of which only what a key search needs is kept. -/
inductive Item where
  | sequence (items : List Item)
  | objectId (arcs : List Nat)
  | bits (content : List UInt8)
  | octets (content : List UInt8)
  | other

/-! ### Heads and lengths -/

/-- Reads a number in base 128 whose last byte has its top bit clear. -/
def readBase128 : Nat → List UInt8 → Option (Nat × List UInt8)
  | _, [] => none
  | n, b :: rest =>
    if b.toNat < 128 then some (n * 128 + b.toNat, rest) else readBase128 (n * 128 + b.toNat % 128) rest

/-- The numbers in base 128 that make up a byte list; `begun` tells whether one has begun. -/
def base128s : (n : Nat) → (begun : Bool) → List UInt8 → Option (List Nat)
  | _, begun, [] => if begun then none else some []
  | n, _, b :: rest =>
    if b.toNat < 128 then (base128s 0 false rest).map ((n * 128 + b.toNat) :: ·)
    else base128s (n * 128 + b.toNat % 128) true rest

/-- The head of an element: its class, whether it is constructed, and its number. -/
structure Head where
  cls : Nat
  constructed : Bool
  number : Nat

def readHead : List UInt8 → Option (Head × List UInt8)
  | [] => none
  | b :: rest =>
    let cls := b.toNat / 64
    let constructed := b.toNat / 32 % 2 == 1
    if b.toNat % 32 = 31 then
      (readBase128 0 rest).map fun (n, after) => (⟨cls, constructed, n⟩, after)
    else some (⟨cls, constructed, b.toNat % 32⟩, rest)

/-- Reads a length of at most eight bytes, in shortest form or not. -/
def readAnyLength : List UInt8 → Option (Nat × List UInt8)
  | [] => none
  | b :: rest =>
    if b.toNat < 128 then some (b.toNat, rest)
    else if b.toNat - 128 ≤ 8 then
      (takeExactly (b.toNat - 128) rest).map fun (digits, after) => (Bytes.toNat digits, after)
    else none

/-! ### Contents -/

def readArcs : List UInt8 → Option (List Nat)
  | [] => none
  | b :: rest =>
    -- The first byte holds two arcs.
    let first := if b.toNat < 40 then [0, b.toNat] else if b.toNat < 80 then [1, b.toNat - 40]
      else [2, b.toNat - 80]
    (base128s 0 false rest).map (first ++ ·)

/-- The bytes of a bit string; the first content byte counts unused bits and may not pass their number. -/
def readBits : List UInt8 → Option (List UInt8)
  | [] => some []
  | unused :: content => if unused.toNat ≤ 8 * content.length then some content else none

def isPrintableByte (b : UInt8) : Bool :=
  let c := Char.ofNat b.toNat
  c.isAlphanum || " '()+,-./:=?".toList.contains c

def isDigitByte (b : UInt8) : Bool :=
  48 ≤ b.toNat && b.toNat ≤ 57

def twoDigits (bytes : List UInt8) (place : Nat) : Nat :=
  -- A zero digit is 48 in both places.
  (bytes.getD place 48).toNat * 10 + (bytes.getD (place + 1) 48).toNat - 528

/-- Whether a time of thirteen bytes, year in two digits to seconds and then the zone mark, is one. -/
def isShortTime (bytes : List UInt8) : Bool :=
  let month := twoDigits bytes 2
  let year := twoDigits bytes 0
  let days :=
    -- The century is not known: every fourth year counts as a leap year.
    if month = 2 then (if year % 4 = 0 then 29 else 28)
    else if month = 4 ∨ month = 6 ∨ month = 9 ∨ month = 11 then 30 else 31
  bytes.length == 13 && (bytes.take 12).all isDigitByte && bytes.getLast? == some 'Z'.toUInt8 &&
    1 ≤ month && month ≤ 12 && 1 ≤ twoDigits bytes 4 && twoDigits bytes 4 ≤ days &&
    twoDigits bytes 6 < 24 && twoDigits bytes 8 < 60 && twoDigits bytes 10 < 60

/-- The fewest bytes of a full time: date, time of day and the zone mark. -/
def fullTimeSize : Nat := 15

/-- The number of characters that a full time is filled up to, so that its fraction has nine digits. -/
def filledTimeSize : Nat := 25

/-- A full time with a point after its seconds and zeros before its last character, up to the filled size. -/
def fillTime (cs : List Char) : List Char :=
  let cs := if cs.contains '.' then cs else cs.take 14 ++ '.' :: cs.drop 14
  cs.dropLast ++ List.replicate (filledTimeSize - cs.length) '0' ++ cs.drop (cs.length - 1)

/-- The number that characters write, if all of them are digits. -/
def digits? (cs : List Char) : Option Nat :=
  if cs.all Text.isDigit then some (cs.foldl (fun n c => 10 * n + Text.digitValue c) 0) else none

/-- Whether a text is a date and a time of day, with a fraction and the zone mark. The year may have a sign. -/
def isFilledTime (cs : List Char) : Bool :=
  let negative := cs.head? == some '-'
  let cs := if negative || cs.head? == some '+' then cs.drop 1 else cs
  match digits? (cs.take 4), digits? ((cs.drop 4).take 2), digits? ((cs.drop 6).take 2),
    digits? ((cs.drop 8).take 2), digits? ((cs.drop 10).take 2), digits? ((cs.drop 12).take 2) with
  | some y, some month, some day, some hour, some minute, some second =>
    let year : Int := if negative then -(y : Int) else y
    let fraction := ((cs.drop 15).dropLast)
    1 ≤ month && month ≤ 12 && 1 ≤ day && day ≤ Time.monthLength year month && hour < 24 && minute < 60 &&
      second < 60 && (cs.drop 14).head? == some '.' && !fraction.isEmpty && fraction.all Text.isDigit &&
      (cs.drop 15).getLast? == some 'Z'
  | _, _, _, _, _, _ => false

/-- Whether a time with a year of four digits and an optional fraction is one. -/
def isFullTime (bytes : List UInt8) : Bool :=
  match Bytes.toText? bytes with
  | some s => fullTimeSize ≤ bytes.length && isFilledTime (fillTime s.toList)
  | none => false

/-- Checks the content of a primitive universal element and keeps what a search needs. -/
def primitive (number : Nat) (content : List UInt8) : Option Item :=
  match number with
  | 1 => if content.length = 1 then some .other else none
  | 3 => (readBits content).map .bits
  | 4 => some (.octets content)
  | 6 => (readArcs content).map .objectId
  | 12 | 20 | 28 | 30 => if (Bytes.toText? content).isSome then some .other else none
  | 19 => if content.all isPrintableByte then some .other else none
  | 22 => if content.all (·.toNat < 128) then some .other else none
  | 23 => if isShortTime content then some .other else none
  | 24 => if isFullTime content then some .other else none
  | _ => some .other

/-! ### Trees -/

/-- Reads elements to the end of the bytes, at least one; `fuel` bounds their number and depth. -/
def itemsWithin : (fuel : Nat) → List UInt8 → Option (List Item)
  | 0, _ => none
  | fuel + 1, bytes =>
    match readHead bytes with
    | none => none
    | some (head, rest) =>
      match (readAnyLength rest).bind fun (n, rest) => takeExactly n rest with
      | none => none
      | some (content, after) =>
        let item :=
          if head.cls ≠ 0 then some Item.other
          else if head.number = 16 then (itemsWithin fuel content).map .sequence
          -- Of sets only the form counts; no search goes through them.
          else if head.number = 17 then (itemsWithin fuel content).map fun _ => .other
          else primitive head.number content
        let more := if after.isEmpty then some [] else itemsWithin fuel after
        match item, more with
        | some i, some is => some (i :: is)
        | _, _ => none

def items (bytes : List UInt8) : Option (List Item) :=
  itemsWithin (bytes.length + 1) bytes

mutual

/-- The first content that `pick` accepts, depth first through the sequences of an element. -/
def Item.find {α : Type} (pick : Item → Option α) : Item → Option α
  | .sequence items => findAmong pick items
  | i => pick i

/-- The first content that `pick` accepts, depth first through a list of elements. -/
def findAmong {α : Type} (pick : Item → Option α) : List Item → Option α
  | [] => none
  | i :: is =>
    match i.find pick with
    | some a => some a
    | none => findAmong pick is

end

end DirectoryGateway.Der
