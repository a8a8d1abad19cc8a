import DirectoryGateway.Json.Basic

/-!
# Writing JSON

`Json.render` writes a value without blanks, fields in the order they are held. `Json.canonical` brings a
value into the one form in which claims are signed: keys sorted by their UTF-8 bytes, the last of repeated
keys kept, strings with as few escapes as possible, numbers that are no 64-bit integers as doubles.
-/

namespace DirectoryGateway.Json

/-! ### Numbers -/

def ascii (cs : List Char) : List UInt8 :=
  cs.map fun c => UInt8.ofNat c.toNat

def natDigits (n : Nat) : List UInt8 :=
  ascii (Nat.toDigits 10 n)

/-- The text of a number; an exponent has its sign. -/
def Number.render (n : Number) : List UInt8 :=
  (if n.negative then ['-'.toUInt8] else []) ++ natDigits n.whole ++
    (if n.fraction = [] then [] else '.'.toUInt8 :: n.fraction.map fun d => UInt8.ofNat (48 + d)) ++
    match n.exponent with
    | none => []
    | some e => 'e'.toUInt8 :: (if e < 0 then '-' else '+').toUInt8 :: natDigits e.natAbs

/-! ### Values -/

mutual

def render : Json → List UInt8
  | .null => "null".toUTF8.toList
  | .bool true => "true".toUTF8.toList
  | .bool false => "false".toUTF8.toList
  | .number n => n.render
  | .text content => quote :: content ++ [quote]
  | .list items => '['.toUInt8 :: renderItems items ++ [']'.toUInt8]
  | .record fields => '\x7b'.toUInt8 :: renderFields fields ++ ['\x7d'.toUInt8]

def renderItems : List Json → List UInt8
  | [] => []
  | [item] => render item
  | item :: items => render item ++ ','.toUInt8 :: renderItems items

def renderFields : List (List UInt8 × Json) → List UInt8
  | [] => []
  | [(key, value)] => quote :: key ++ quote :: ':'.toUInt8 :: render value
  | (key, value) :: fields =>
    quote :: key ++ quote :: ':'.toUInt8 :: render value ++ ','.toUInt8 :: renderFields fields

end

def renderText (v : Json) : String :=
  (Bytes.toText? v.render).getD ""

end DirectoryGateway.Json
