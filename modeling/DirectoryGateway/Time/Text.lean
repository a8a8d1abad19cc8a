import DirectoryGateway.Text.Blank
import DirectoryGateway.Time.Calendar

/-!
# Timestamps as text

Written as RFC 3339 in universal time, with as few of 0, 3, 6 or 9 fraction digits as are exact. Read with
more freedom: single-digit parts, blanks between the parts, a blank for the `T`, a lower-case `t` or `z`,
the word UTC, any offset below a day, and fraction digits past the ninth, which are cut off.
-/

namespace DirectoryGateway.Time

open DirectoryGateway.Text

/-! ### Writing -/

/-- Decimal digits of a number, filled up with zeros to a width. -/
def paddedDigits (width n : Nat) : List Char :=
  let ds := Nat.toDigits 10 n
  List.replicate (width - ds.length) '0' ++ ds

/-- A year: four digits, or a sign and at least four digits outside 0 to 9999. -/
def yearText (year : Int) : List Char :=
  if 0 ≤ year ∧ year ≤ 9999 then paddedDigits 4 year.toNat
  else (if year < 0 then '-' else '+') :: paddedDigits 4 year.natAbs

def fractionText (nanos : Nat) : List Char :=
  if nanos = 0 then []
  else if nanos % 1000000 = 0 then '.' :: paddedDigits 3 (nanos / 1000000)
  else if nanos % 1000 = 0 then '.' :: paddedDigits 6 (nanos / 1000)
  else '.' :: paddedDigits 9 nanos

def Timestamp.text (t : Timestamp) : List Char :=
  yearText t.year ++ '-' :: paddedDigits 2 t.month ++ '-' :: paddedDigits 2 t.day ++
    'T' :: paddedDigits 2 t.hour ++ ':' :: paddedDigits 2 t.minute ++ ':' :: paddedDigits 2 t.second ++
    fractionText t.nanos ++ ['Z']

/-! ### Reading parts -/

/-- The value of a run of digits. -/
def digitsValue (ds : List Char) : Nat :=
  ds.foldl (fun n c => 10 * n + digitValue c) 0

/-- Takes up to `most` digits off the front. -/
def spanDigits : (most : Nat) → List Char → List Char × List Char
  | 0, cs => ([], cs)
  | _, [] => ([], [])
  | most + 1, c :: cs =>
    if isDigit c then
      let (ds, rest) := spanDigits most cs
      (c :: ds, rest)
    else ([], c :: cs)

/-- A number of one to `most` digits, after blanks. -/
def readNumber (most : Nat) (cs : List Char) : Option (Nat × List Char) :=
  match spanDigits most (trimLeft cs) with
  | ([], _) => none
  | (ds, rest) => some (digitsValue ds, rest)

def readPart (least greatest : Nat) (cs : List Char) : Option (Nat × List Char) :=
  match readNumber 2 cs with
  | some (n, rest) => if least ≤ n ∧ n ≤ greatest then some (n, rest) else none
  | none => none

/-- A year: up to four digits, or a sign and any number of digits. -/
def readYear (cs : List Char) : Option (Int × List Char) :=
  match trimLeft cs with
  | '-' :: rest =>
    match spanDigits rest.length rest with
    | ([], _) => none
    | (ds, after) => some (-(digitsValue ds : Int), after)
  | '+' :: rest =>
    match spanDigits rest.length rest with
    | ([], _) => none
    | (ds, after) => some ((digitsValue ds : Int), after)
  | rest => (readNumber 4 rest).map fun (n, after) => ((n : Int), after)

def readMark (mark : Char) (cs : List Char) : Option (List Char) :=
  match trimLeft cs with
  | c :: rest => if c = mark then some rest else none
  | [] => none

def readDivider : List Char → Option (List Char)
  | 'T' :: rest => some rest
  | 't' :: rest => some rest
  | ' ' :: rest => some rest
  | _ => none

/-- The nanoseconds of a fraction, if there is one. -/
def readFraction : List Char → Option (Nat × List Char)
  | '.' :: rest =>
    match spanDigits 9 rest with
    | ([], _) => none
    | (ds, after) => some (digitsValue ds * Nat.pow 10 (9 - ds.length), after.dropWhile isDigit)
  | rest => some (0, rest)

/-- Two digits, the first of them at most `top`. -/
def readPair (top : Char) : List Char → Option (Nat × List Char)
  | a :: b :: rest =>
    if isDigit a ∧ a ≤ top ∧ isDigit b then some (digitsValue [a, b], rest) else none
  | _ => none

/-- Hours and minutes of an offset, as minutes. -/
def readOffsetSize (cs : List Char) : Option (Nat × List Char) :=
  match readPair '9' cs with
  | none => none
  | some (hours, rest) =>
    match readPair '5' (rest.dropWhile fun c => c == ':' || isBlank c) with
    | none => none
    | some (minutes, after) => some (hours * 60 + minutes, after)

/-- The offset from universal time, in minutes. -/
def readOffset : List Char → Option (Int × List Char)
  | 'Z' :: rest => some (0, rest)
  | 'z' :: rest => some (0, rest)
  | '+' :: rest => (readOffsetSize rest).map fun (n, after) => ((n : Int), after)
  | '-' :: rest => (readOffsetSize rest).map fun (n, after) => (-(n : Int), after)
  -- The minus sign of typesetting.
  | '\u2212' :: rest => (readOffsetSize rest).map fun (n, after) => (-(n : Int), after)
  | a :: b :: c :: rest =>
    if a.toUpper = 'U' ∧ b.toUpper = 'T' ∧ c.toUpper = 'C' then some (0, rest) else none
  | _ => none

/-! ### Reading -/

/-- Reads date, time and offset; what is left may be blank. -/
def Timestamp.readParts (cs : List Char) : Option (Timestamp × Int × List Char) := do
  let (year, cs) ← readYear cs
  let cs ← readMark '-' cs
  let (month, cs) ← readPart 1 12 cs
  let cs ← readMark '-' cs
  let (day, cs) ← readPart 1 31 cs
  let cs ← readDivider cs
  let (hour, cs) ← readPart 0 23 cs
  let cs ← readMark ':' cs
  let (minute, cs) ← readPart 0 59 cs
  let cs ← readMark ':' cs
  let (second, cs) ← readPart 0 60 cs
  let (nanos, cs) ← readFraction cs
  let (offset, cs) ← readOffset (trimLeft cs)
  return (⟨year, month, day, hour, minute, second, nanos⟩, offset, cs)

def Timestamp.read? (cs : List Char) : Option Timestamp :=
  match Timestamp.readParts cs with
  | some (t, offset, rest) =>
    if (trimLeft rest).isEmpty ∧ t.valid ∧ offset.natAbs < 1440 then
      let u := t.earlierBy offset
      if u.valid then some u else none
    else none
  | none => none

end DirectoryGateway.Time
