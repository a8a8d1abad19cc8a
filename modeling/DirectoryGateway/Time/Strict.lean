import DirectoryGateway.Time.Text

/-!
# Timestamps in their strict form

RFC 3339 to the letter: all parts have their full number of digits, and nothing stands between them. The leap second at
the end of a month counts as the last nanosecond before it.
-/

namespace DirectoryGateway.Time

/-! ### Parts -/

def readLetter (upper lower : Char) : List Char → Option (List Char)
  | c :: cs => if c = upper ∨ c = lower then some cs else none
  | [] => none

def readFourDigits (cs : List Char) : Option (Nat × List Char) := do
  let (high, cs) ← readPair '9' cs
  let (low, cs) ← readPair '9' cs
  return (100 * high + low, cs)

/-- An offset of minutes from universal time, below a day. -/
def readStrictOffset : List Char → Option (Int × List Char)
  | [] => none
  | c :: cs =>
    if c = 'Z' ∨ c = 'z' then some (0, cs)
    else if c = '+' ∨ c = '-' then do
      let (hours, cs) ← readPair '2' cs
      let cs ← readLetter ':' ':' cs
      let (minutes, cs) ← readPair '5' cs
      if 23 < hours then none
      else
        let size : Int := hours * 60 + minutes
        some (if c = '-' then -size else size, cs)
    else none

/-- Whether a time in universal time is in the last minute of a month. -/
def Timestamp.endsMonth (t : Timestamp) : Bool :=
  t.hour == 23 && t.minute == 59 && t.day == monthLength t.year t.month

/-! ### Reading -/

/-- Reads the parts of a timestamp that is a whole text: the time, and its offset. -/
def Timestamp.readStrictParts (cs : List Char) : Option (Timestamp × Int) := do
  let (year, cs) ← readFourDigits cs
  let cs ← readLetter '-' '-' cs
  let (month, cs) ← readPair '9' cs
  let cs ← readLetter '-' '-' cs
  let (day, cs) ← readPair '9' cs
  let cs ← readLetter 'T' 't' cs
  let (hour, cs) ← readPair '9' cs
  let cs ← readLetter ':' ':' cs
  let (minute, cs) ← readPair '9' cs
  let cs ← readLetter ':' ':' cs
  let (second, cs) ← readPair '9' cs
  let (nanos, cs) ← readFraction cs
  let (offset, cs) ← readStrictOffset cs
  if cs.isEmpty then some (⟨year, month, day, hour, minute, second, nanos⟩, offset) else none

def Timestamp.readStrict? (cs : List Char) : Option Timestamp := do
  let (t, offset) ← Timestamp.readStrictParts cs
  if t.valid then
    let u := t.earlierBy offset
    if t.second < 60 then some u
    else if u.endsMonth then some { u with second := 59, nanos := 999999999 }
    else none
  else none

end DirectoryGateway.Time
