import DirectoryGateway.Json.Basic

/-!
# Reading JSON

`Json.read?` reads a document that fills all bytes but for blanks at its ends. Strings are checked for
their escapes and against control characters; whether they are text is left open. The readers below take
one part off the front and give the bytes after it; `fuel` bounds the nesting and is set from the length
of the document.
-/

namespace DirectoryGateway.Json

/-! ### Blanks and words -/

def isBlankByte (b : UInt8) : Bool :=
  b == 32 || b == 9 || b == 10 || b == 13

def skipBlanks (bytes : List UInt8) : List UInt8 :=
  bytes.dropWhile isBlankByte

def takeWord : (word : List UInt8) → List UInt8 → Option (List UInt8)
  | [], rest => some rest
  | _, [] => none
  | w :: word, b :: rest => if w = b then takeWord word rest else none

/-! ### Strings -/

def readContent : List UInt8 → Option (List UInt8 × List UInt8)
  | [] => none
  | b :: rest =>
    if b = quote then some ([], rest)
    else if b = backslash then
      match rest with
      | e :: rest =>
        if e = 'u'.toUInt8 then
          match rest with
          | x :: y :: z :: w :: rest =>
            if (hexUnit x y z w).isSome then
              match readContent rest with
              | some (content, after) => some (backslash :: e :: x :: y :: z :: w :: content, after)
              | none => none
            else none
          | _ => none
        else if (escapeValue e).isSome then
          match readContent rest with
          | some (content, after) => some (backslash :: e :: content, after)
          | none => none
        else none
      | [] => none
    else if b.toNat < 32 then none
    else
      match readContent rest with
      | some (content, after) => some (b :: content, after)
      | none => none

def readString : List UInt8 → Option (List UInt8 × List UInt8)
  | [] => none
  | b :: rest => if b = quote then readContent rest else none

/-! ### Numbers -/

def digit? (b : UInt8) : Option Nat :=
  if 48 ≤ b.toNat ∧ b.toNat ≤ 57 then some (b.toNat - 48) else none

def spanDigits : List UInt8 → List Nat × List UInt8
  | [] => ([], [])
  | b :: rest =>
    match digit? b with
    | some d => (d :: (spanDigits rest).1, (spanDigits rest).2)
    | none => ([], b :: rest)

def digitsValue (ds : List Nat) : Nat :=
  ds.foldl (fun n d => 10 * n + d) 0

/-- Reads the whole part: zero alone, or digits that do not start with zero. -/
def readWhole (bytes : List UInt8) : Option (Nat × List UInt8) :=
  match spanDigits bytes with
  | ([], _) => none
  | ([0], rest) => some (0, rest)
  | (0 :: _, _) => none
  | (ds, rest) => some (digitsValue ds, rest)

def readFraction : List UInt8 → Option (List Nat × List UInt8)
  | [] => some ([], [])
  | b :: rest =>
    if b = '.'.toUInt8 then
      match spanDigits rest with
      | ([], _) => none
      | (ds, after) => some (ds, after)
    else some ([], b :: rest)

def readExponentDigits (negative : Bool) (bytes : List UInt8) : Option (Option Int × List UInt8) :=
  match spanDigits bytes with
  | ([], _) => none
  | (ds, after) => some (some (if negative then -(digitsValue ds : Int) else digitsValue ds), after)

def readExponent : List UInt8 → Option (Option Int × List UInt8)
  | [] => some (none, [])
  | b :: rest =>
    if b = 'e'.toUInt8 ∨ b = 'E'.toUInt8 then
      match rest with
      | [] => none
      | s :: after =>
        if s = '-'.toUInt8 then readExponentDigits true after
        else if s = '+'.toUInt8 then readExponentDigits false after
        else readExponentDigits false (s :: after)
    else some (none, b :: rest)

def readUnsigned (negative : Bool) (bytes : List UInt8) : Option (Number × List UInt8) :=
  match readWhole bytes with
  | none => none
  | some (whole, rest) =>
    match readFraction rest with
    | none => none
    | some (fraction, rest) =>
      match readExponent rest with
      | none => none
      | some (exponent, rest) => some (⟨negative, whole, fraction, exponent⟩, rest)

def readNumber : List UInt8 → Option (Number × List UInt8)
  | [] => none
  | b :: rest =>
    if b = '-'.toUInt8 then readUnsigned true rest else readUnsigned false (b :: rest)

/-! ### Values -/

def readScalar (bytes : List UInt8) : Option (Json × List UInt8) :=
  match bytes with
  | [] => none
  | b :: _ =>
    if b = quote then (readString bytes).map fun p => (.text p.1, p.2)
    else if b = 'n'.toUInt8 then (takeWord "null".toUTF8.toList bytes).map (.null, ·)
    else if b = 't'.toUInt8 then (takeWord "true".toUTF8.toList bytes).map (.bool true, ·)
    else if b = 'f'.toUInt8 then (takeWord "false".toUTF8.toList bytes).map (.bool false, ·)
    else (readNumber bytes).map fun p => (.number p.1, p.2)

mutual

def readValue : (fuel : Nat) → List UInt8 → Option (Json × List UInt8)
  | 0, _ => none
  | fuel + 1, bytes =>
    match skipBlanks bytes with
    | [] => none
    | b :: rest =>
      if b = '['.toUInt8 then
        match skipBlanks rest with
        | [] => none
        | c :: after =>
          if c = ']'.toUInt8 then some (.list [], after)
          else (readItems fuel (c :: after)).map fun p => (.list p.1, p.2)
      else if b = '\x7b'.toUInt8 then
        match skipBlanks rest with
        | [] => none
        | c :: after =>
          if c = '\x7d'.toUInt8 then some (.record [], after)
          else (readFields fuel (c :: after)).map fun p => (.record p.1, p.2)
      else readScalar (b :: rest)

def readItems : (fuel : Nat) → List UInt8 → Option (List Json × List UInt8)
  | 0, _ => none
  | fuel + 1, bytes =>
    match readValue fuel bytes with
    | none => none
    | some (item, rest) =>
      match skipBlanks rest with
      | [] => none
      | c :: after =>
        if c = ']'.toUInt8 then some ([item], after)
        else if c = ','.toUInt8 then (readItems fuel after).map fun p => (item :: p.1, p.2)
        else none

def readFields : (fuel : Nat) → List UInt8 → Option (List (List UInt8 × Json) × List UInt8)
  | 0, _ => none
  | fuel + 1, bytes =>
    match readString (skipBlanks bytes) with
    | none => none
    | some (key, rest) =>
      match skipBlanks rest with
      | [] => none
      | c :: rest =>
        if c = ':'.toUInt8 then
          match readValue fuel rest with
          | none => none
          | some (value, rest) =>
            match skipBlanks rest with
            | [] => none
            | c :: after =>
              if c = '\x7d'.toUInt8 then some ([(key, value)], after)
              else if c = ','.toUInt8 then
                (readFields fuel after).map fun p => ((key, value) :: p.1, p.2)
              else none
        else none

end

def read? (bytes : List UInt8) : Option Json :=
  match readValue (bytes.length + 1) bytes with
  | some (v, rest) => if (skipBlanks rest).isEmpty then some v else none
  | none => none

end DirectoryGateway.Json
