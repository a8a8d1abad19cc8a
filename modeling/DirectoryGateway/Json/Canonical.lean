import DirectoryGateway.Json.Double
import DirectoryGateway.Json.Printer

/-!
# The canonical form of JSON

Keys sorted by their UTF-8 bytes with the last of repeated keys kept, strings with as few escapes as
possible, integers of 64 bits as they are and every other number as the shortest decimal of the double that it
stands for.
-/

namespace DirectoryGateway.Json

open DirectoryGateway.Decimal

/-! ### Numbers -/

/-- A decimal as a number: positional while its point stays within sixteen digits to the right or five
zeros to the left of the digits, with an exponent beyond. -/
def numberOfNumeral (negative : Bool) (d : Numeral) : Number :=
  let digits := digitList d.digits
  let point : Int := digits.length + d.power
  if d.digits = 0 then ⟨negative, 0, [0], none⟩
  else if 0 ≤ d.power ∧ point ≤ 16 then ⟨negative, d.digits * Nat.pow 10 d.power.toNat, [0], none⟩
  else if 0 < point ∧ point ≤ 16 then
    ⟨negative, (digits.take point.toNat).foldl (fun m d => 10 * m + d) 0, digits.drop point.toNat, none⟩
  else if -5 < point ∧ point ≤ 0 then
    ⟨negative, 0, List.replicate (-point).toNat 0 ++ digits, none⟩
  else ⟨negative, digits.headD 0, digits.drop 1, some (point - 1)⟩

/-- A decimal without zeros at the end of its digits; `fuel` bounds their number. -/
def stripZeros : (fuel : Nat) → Numeral → Numeral
  | 0, d => d
  | fuel + 1, d =>
    if d.digits ≠ 0 ∧ d.digits % 10 = 0 then stripZeros fuel ⟨d.digits / 10, d.power + 1⟩ else d

def numberOfDouble (negative : Bool) (x : Binary64) : Number :=
  numberOfNumeral negative (stripZeros 400 x.shortest)

/-- The canonical form of a number; one that is out of range stays. -/
def Number.canonical (n : Number) : Number :=
  match n.toInt?.filter fun i => -(Nat.pow 2 63 : Int) ≤ i && i < (Nat.pow 2 64 : Int) with
  | some _ => n
  | none => (n.double?.map (numberOfDouble n.negative)).getD n

/-! ### Values -/

/-- String content with as few escapes as possible; content that is no text stays. -/
def canonicalContent (content : List UInt8) : List UInt8 :=
  match decode? content with
  | some s => encode s
  | none => content

def bytesBefore : List UInt8 → List UInt8 → Bool
  | [], [] => false
  | [], _ :: _ => true
  | _ :: _, [] => false
  | a :: as, b :: bs => a < b || (a == b && bytesBefore as bs)

/-- The order of keys: by the bytes of their text. -/
def keyBefore (a b : List UInt8) : Bool :=
  bytesBefore ((unescape a).getD a) ((unescape b).getD b)

/-- Puts a field into a sorted record; it replaces a field of the same key. -/
def insertField (key : List UInt8) (value : Json) :
    List (List UInt8 × Json) → List (List UInt8 × Json)
  | [] => [(key, value)]
  | f :: fs =>
    if key = f.1 then (key, value) :: fs
    else if keyBefore key f.1 then (key, value) :: f :: fs
    else f :: insertField key value fs

mutual

def canonical : Json → Json
  | .null => .null
  | .bool b => .bool b
  | .number n => .number n.canonical
  | .text content => .text (canonicalContent content)
  | .list items => .list (canonicalItems items)
  | .record fields => .record (canonicalFields [] fields)

def canonicalItems : List Json → List Json
  | [] => []
  | item :: items => canonical item :: canonicalItems items

def canonicalFields (sorted : List (List UInt8 × Json)) :
    List (List UInt8 × Json) → List (List UInt8 × Json)
  | [] => sorted
  | (key, value) :: fields =>
    canonicalFields (insertField (canonicalContent key) (canonical value) sorted) fields

end

end DirectoryGateway.Json
