import DirectoryGateway.Bytes

/-!
# JSON values

A value keeps each string as the bytes between its quotes, escapes included: they are decoded only when
someone asks for the text, so a document may hold strings that are no text where nobody looks. `encode`
and `decode?` are the two directions of that step.
-/

namespace DirectoryGateway

structure Json.Number where
  negative : Bool
  whole : Nat
  /-- Digits after the point; none if there is no point. -/
  fraction : List Nat
  exponent : Option Int
  deriving Repr, DecidableEq

/-- A JSON value; strings and keys are the bytes between the quotes. -/
inductive Json where
  | null
  | bool (b : Bool)
  | number (n : Json.Number)
  | text (content : List UInt8)
  | list (items : List Json)
  | record (fields : List (List UInt8 × Json))

namespace Json

/-! ### String contents -/

def quote : UInt8 := '"'.toUInt8
def backslash : UInt8 := '\\'.toUInt8

def hexValue (b : UInt8) : Option Nat :=
  let n := b.toNat
  if 48 ≤ n ∧ n ≤ 57 then some (n - 48)
  else if 97 ≤ n ∧ n ≤ 102 then some (n - 87)
  else if 65 ≤ n ∧ n ≤ 70 then some (n - 55)
  else none

def hexUnit (a b c d : UInt8) : Option Nat :=
  match hexValue a, hexValue b, hexValue c, hexValue d with
  | some a, some b, some c, some d => some (((a * 16 + b) * 16 + c) * 16 + d)
  | _, _, _, _ => none

/-- The byte that a one-letter escape stands for. -/
def escapeValue (b : UInt8) : Option UInt8 :=
  if b = quote then some quote
  else if b = backslash then some backslash
  else if b = '/'.toUInt8 then some '/'.toUInt8
  else if b = 'b'.toUInt8 then some 8
  else if b = 'f'.toUInt8 then some 12
  else if b = 'n'.toUInt8 then some 10
  else if b = 'r'.toUInt8 then some 13
  else if b = 't'.toUInt8 then some 9
  else none

def hexDigit (n : Nat) : UInt8 :=
  if n < 10 then UInt8.ofNat (48 + n) else UInt8.ofNat (87 + n)

def escapeByte (b : UInt8) : List UInt8 :=
  if b = quote then [backslash, quote]
  else if b = backslash then [backslash, backslash]
  else if b = 8 then [backslash, 'b'.toUInt8]
  else if b = 12 then [backslash, 'f'.toUInt8]
  else if b = 10 then [backslash, 'n'.toUInt8]
  else if b = 13 then [backslash, 'r'.toUInt8]
  else if b = 9 then [backslash, 't'.toUInt8]
  else if b.toNat < 32 then
    [backslash, 'u'.toUInt8, 48, 48, hexDigit (b.toNat / 16), hexDigit (b.toNat % 16)]
  else [b]

def encode (s : String) : List UInt8 :=
  (Bytes.ofText s).flatMap escapeByte

/-- The UTF-8 bytes of a code point. -/
def codePoint (n : Nat) : List UInt8 :=
  Bytes.ofText (String.singleton (Char.ofNat n))

/-- Replaces escapes; the units of a surrogate pair must stand together. -/
def unescape : List UInt8 → Option (List UInt8)
  | [] => some []
  | b :: rest =>
    if b = backslash then
      match rest with
      | e :: rest =>
        if e = 'u'.toUInt8 then
          match rest with
          | a :: b :: c :: d :: rest =>
            match hexUnit a b c d with
            | none => none
            | some n =>
              -- The second unit of a pair is only read behind the first.
              if 0xDC00 ≤ n ∧ n ≤ 0xDFFF then none
              else if 0xD800 ≤ n ∧ n ≤ 0xDBFF then
                match rest with
                | s :: u :: a :: b :: c :: d :: rest =>
                  if s = backslash ∧ u = 'u'.toUInt8 then
                    match hexUnit a b c d with
                    | none => none
                    | some m =>
                      if 0xDC00 ≤ m ∧ m ≤ 0xDFFF then
                        (unescape rest).map
                          (codePoint ((n - 0xD800) * 1024 + (m - 0xDC00) + 0x10000) ++ ·)
                      else none
                  else none
                | _ => none
              else (unescape rest).map (codePoint n ++ ·)
          | _ => none
        else
          match escapeValue e with
          | some v => (unescape rest).map (v :: ·)
          | none => none
      | [] => none
    else (unescape rest).map (b :: ·)

def decode? (content : List UInt8) : Option String :=
  (unescape content).bind Bytes.toText?

/-! ### Values of known kinds -/

def str (s : String) : Json :=
  .text (encode s)

def int (n : Int) : Json :=
  .number ⟨n < 0, n.natAbs, [], none⟩

def nat (n : Nat) : Json :=
  int n

def obj (fields : List (String × Json)) : Json :=
  .record (fields.map fun f => (encode f.1, f.2))

/-- The integer that a number writes: no point, no exponent, and no sign before zero. -/
def Number.toInt? (n : Number) : Option Int :=
  if n.fraction = [] ∧ n.exponent = none then
    if n.negative then (if n.whole = 0 then none else some (-(n.whole : Int))) else some n.whole
  else none

def toText? : Json → Option String
  | .text content => decode? content
  | _ => none

def toBool? : Json → Option Bool
  | .bool b => some b
  | _ => none

def toInt? (least greatest : Int) : Json → Option Int
  | .number n =>
    match n.toInt? with
    | some i => if least ≤ i ∧ i ≤ greatest then some i else none
    | none => none
  | _ => none

/-- A natural number up to a limit. -/
def toNat? (limit : Nat) (v : Json) : Option Nat :=
  (v.toInt? 0 limit).map Int.toNat

def toList? {α : Type} (read : Json → Option α) : Json → Option (List α)
  | .list items => items.mapM read
  | _ => none

end Json

end DirectoryGateway
