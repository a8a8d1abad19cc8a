import DirectoryGateway.Json.Reader

/-!
# JSON before its words are judged

The structure of a document with its strings and numbers as they are written. A string ends at the first quote that
no backslash stands before, and a number is a run of the characters that numbers are made of. What counts as a string
or a number is for the readers of a document to say, and they may differ from part to part.
-/

namespace DirectoryGateway.Json

inductive Raw where
  | null
  | bool (b : Bool)
  | number (written : List UInt8)
  | text (content : List UInt8)
  | list (items : List Raw)
  | record (fields : List (List UInt8 × Raw))

namespace Raw

/-! ### Words -/

/-- The content of a string after its opening quote, and what follows the closing one. -/
def spanContent : List UInt8 → Option (List UInt8 × List UInt8)
  | [] => none
  | b :: rest =>
    if b = quote then some ([], rest)
    else if b = backslash then
      match rest with
      | [] => none
      | e :: rest => (spanContent rest).map fun p => (b :: e :: p.1, p.2)
    else (spanContent rest).map fun p => (b :: p.1, p.2)

def isNumberByte (b : UInt8) : Bool :=
  (digit? b).isSome || "+-.eE".toUTF8.toList.contains b

def readWord (bytes : List UInt8) : Option (Raw × List UInt8) :=
  match bytes with
  | [] => none
  | b :: rest =>
    if b = quote then (spanContent rest).map fun p => (.text p.1, p.2)
    else if b = 'n'.toUInt8 then (takeWord "null".toUTF8.toList bytes).map (.null, ·)
    else if b = 't'.toUInt8 then (takeWord "true".toUTF8.toList bytes).map (.bool true, ·)
    else if b = 'f'.toUInt8 then (takeWord "false".toUTF8.toList bytes).map (.bool false, ·)
    else
      let (written, rest) := bytes.span isNumberByte
      if written.isEmpty then none else some (.number written, rest)

def readKey (bytes : List UInt8) : Option (List UInt8 × List UInt8) :=
  match skipBlanks bytes with
  | [] => none
  | b :: rest =>
    if b = quote then
      match spanContent rest with
      | none => none
      | some (key, rest) =>
        match skipBlanks rest with
        | [] => none
        | c :: rest => if c = ':'.toUInt8 then some (key, rest) else none
    else none

/-! ### Values -/

mutual

/-- Reads a value, after blanks; `fuel` bounds the nesting. -/
def readValue : (fuel : Nat) → List UInt8 → Option (Raw × List UInt8)
  | 0, _ => none
  | fuel + 1, bytes =>
    match skipBlanks bytes with
    | [] => none
    | b :: rest =>
      if b = '['.toUInt8 then
        match skipBlanks rest with
        | [] => none
        | c :: after =>
          if c = ']'.toUInt8 then some (.list [], after)
          else (readItems fuel (c :: after)).map fun p => (.list p.1, p.2)
      else if b = '\x7b'.toUInt8 then
        match skipBlanks rest with
        | [] => none
        | c :: after =>
          if c = '\x7d'.toUInt8 then some (.record [], after)
          else (readFields fuel (c :: after)).map fun p => (.record p.1, p.2)
      else readWord (b :: rest)

def readItems : (fuel : Nat) → List UInt8 → Option (List Raw × List UInt8)
  | 0, _ => none
  | fuel + 1, bytes =>
    match readValue fuel bytes with
    | none => none
    | some (item, rest) =>
      match skipBlanks rest with
      | [] => none
      | c :: after =>
        if c = ']'.toUInt8 then some ([item], after)
        else if c = ','.toUInt8 then (readItems fuel after).map fun p => (item :: p.1, p.2)
        else none

def readFields : (fuel : Nat) → List UInt8 → Option (List (List UInt8 × Raw) × List UInt8)
  | 0, _ => none
  | fuel + 1, bytes =>
    match readKey bytes with
    | none => none
    | some (key, rest) =>
      match readValue fuel rest with
      | none => none
      | some (value, rest) =>
        match skipBlanks rest with
        | [] => none
        | c :: after =>
          if c = '\x7d'.toUInt8 then some ([(key, value)], after)
          else if c = ','.toUInt8 then
            (readFields fuel after).map fun p => ((key, value) :: p.1, p.2)
          else none

end

/-- Reads a document that fills all bytes but for blanks at its ends. -/
def read? (bytes : List UInt8) : Option Raw :=
  match readValue (bytes.length + 1) bytes with
  | some (v, rest) => if (skipBlanks rest).isEmpty then some v else none
  | none => none

/-! ### Judging values -/

mutual

/-- The number of lists and records that stand in one another. -/
def depth : Raw → Nat
  | .list items => depthOfItems items + 1
  | .record fields => depthOfFields fields + 1
  | _ => 0

def depthOfItems : List Raw → Nat
  | [] => 0
  | item :: items => max item.depth (depthOfItems items)

def depthOfFields : List (List UInt8 × Raw) → Nat
  | [] => 0
  | (_, value) :: fields => max value.depth (depthOfFields fields)

end

mutual

/-- Whether all numbers and all strings, keys included, are as asked for. -/
def all (number text : List UInt8 → Bool) : Raw → Bool
  | .number written => number written
  | .text content => text content
  | .list items => allOfItems number text items
  | .record fields => allOfFields number text fields
  | _ => true

def allOfItems (number text : List UInt8 → Bool) : List Raw → Bool
  | [] => true
  | item :: items => item.all number text && allOfItems number text items

def allOfFields (number text : List UInt8 → Bool) : List (List UInt8 × Raw) → Bool
  | [] => true
  | (key, value) :: fields => text key && value.all number text && allOfFields number text fields

end

/-- Whether a run of characters is a JSON number. -/
def isNumber (written : List UInt8) : Bool :=
  match Json.readNumber written with
  | some (_, rest) => rest.isEmpty
  | none => false

/-- Whether content is that of a JSON string and is text, apart from what its escapes stand for. -/
def isContent (content : List UInt8) : Bool :=
  (Bytes.toText? content).isSome &&
    match Json.readContent (content ++ [quote]) with
    | some (_, rest) => rest.isEmpty
    | none => false

end Raw

end DirectoryGateway.Json
