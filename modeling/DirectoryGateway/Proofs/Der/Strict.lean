import DirectoryGateway.Der.PublicKey
import DirectoryGateway.Proofs.Der.Lengths

/-!
# Strict DER

A decoder for the kinds of elements that public keys are made of. It takes the distinguished form alone: lengths in shortest
form, integers in two's complement without a needless first byte, object identifiers without needless digits, bit strings
with clear unused bits. `Encodes` is the grammar of this form, and the decoder takes exactly what the grammar allows.
-/

namespace DirectoryGateway.Der

inductive Value where
  | integer (value : Int)
  | bits (unused : Nat) (content : List UInt8)
  | null
  | objectId (arcs : List Nat)
  | sequence (items : List Value)

/-! ### Contents -/

/-- The number that bytes write in two's complement. -/
def signed (content : List UInt8) : Int :=
  if (content.headD 0).toNat < 128 then Bytes.toNat content
  else (Bytes.toNat content : Int) - (256 ^ content.length : Nat)

/-- There is a first byte, and the first nine bits are not all the same. -/
def IsMinimal : List UInt8 → Prop
  | [] => False
  | [_] => True
  | b :: c :: _ => ¬ (b = 0 ∧ c.toNat < 128) ∧ ¬ (b = 255 ∧ 128 ≤ c.toNat)

instance : DecidablePred IsMinimal
  | [] => .isFalse id
  | [_] => .isTrue trivial
  | b :: c :: _ => inferInstanceAs (Decidable (¬ (b = 0 ∧ c.toNat < 128) ∧ ¬ (b = 255 ∧ 128 ≤ c.toNat)))

/-- None of the numbers in base 128 begins with a zero digit. -/
def isCompact : (begun : Bool) → List UInt8 → Bool
  | _, [] => true
  | begun, b :: rest => (begun || b != 0x80) && isCompact (decide (128 ≤ b.toNat)) rest

/-- The first number of an object identifier holds two arcs. -/
def arcsOf : List Nat → List Nat
  | [] => []
  | n :: ns => (if n < 40 then [0, n] else if n < 80 then [1, n - 40] else [2, n - 80]) ++ ns

/-- The elements that hold no others. -/
inductive Primitive : Value → UInt8 → List UInt8 → Prop
  | integer {content : List UInt8} (minimal : IsMinimal content) :
    Primitive (.integer (signed content)) integerTag content
  | bits {unused : UInt8} {content : List UInt8} (few : unused.toNat < 8)
      (covered : content = [] → unused = 0) (clear : Bytes.toNat content % 2 ^ unused.toNat = 0) :
    Primitive (.bits unused.toNat content) bitStringTag (unused :: content)
  | null : Primitive .null nullTag []
  | objectId {content : List UInt8} {numbers : List Nat} (written : content ≠ [])
      (compact : isCompact false content = true) (read : base128s 0 false content = some numbers) :
    Primitive (.objectId (arcsOf numbers)) objectIdTag content

def primitive? (tag : UInt8) (content : List UInt8) : Option Value :=
  if tag = integerTag then if IsMinimal content then some (.integer (signed content)) else none
  else if tag = bitStringTag then
    match content with
    | [] => none
    | unused :: rest =>
      if unused.toNat < 8 ∧ (rest = [] → unused = 0) ∧ Bytes.toNat rest % 2 ^ unused.toNat = 0 then
        some (.bits unused.toNat rest)
      else none
  else if tag = nullTag then if content = [] then some .null else none
  else if tag = objectIdTag then
    if content ≠ [] ∧ isCompact false content = true then
      (base128s 0 false content).map fun numbers => .objectId (arcsOf numbers)
    else none
  else none

theorem primitive?_eq_some_iff {tag : UInt8} {content : List UInt8} {v : Value} :
    primitive? tag content = some v ↔ Primitive v tag content := by
  constructor
  · intro h
    unfold primitive? at h
    split at h
    · next htag =>
      split at h
      · next minimal =>
        cases h
        rw [htag]
        exact .integer minimal
      · cases h
    · split at h
      · next htag =>
        split at h
        · cases h
        · split at h
          · next checked =>
            cases h
            rw [htag]
            exact .bits checked.1 checked.2.1 checked.2.2
          · cases h
      · split at h
        · next htag =>
          split at h
          · next empty =>
            cases h
            rw [htag, empty]
            exact .null
          · cases h
        · split at h
          · next htag =>
            split at h
            · next checked =>
              obtain ⟨numbers, read, rfl⟩ := Option.map_eq_some_iff.mp h
              rw [htag]
              exact .objectId checked.1 checked.2 read
            · cases h
          · cases h
  · intro h
    cases h with
    | integer minimal =>
      show (if IsMinimal content then some (Value.integer (signed content)) else none) = _
      rw [if_pos minimal]
    | @bits unused rest few covered clear =>
      show (if unused.toNat < 8 ∧ (rest = [] → unused = 0) ∧ Bytes.toNat rest % 2 ^ unused.toNat = 0 then
        some (Value.bits unused.toNat rest) else none) = _
      rw [if_pos ⟨few, covered, clear⟩]
    | null => rfl
    | @objectId _ numbers written compact read =>
      show (if content ≠ [] ∧ isCompact false content = true then
        (base128s 0 false content).map fun numbers => Value.objectId (arcsOf numbers) else none) = _
      rw [if_pos ⟨written, compact⟩, read]
      rfl

/-! ### Elements -/

/-- Byte lists that are elements with these values, one after the other. -/
inductive Encodes : List Value → List UInt8 → Prop
  | nil : Encodes [] []
  | primitive {v : Value} {tag : UInt8} {content field rest : List UInt8} {vs : List Value}
      (leaf : Primitive v tag content) (length : LengthField content.length field)
      (more : Encodes vs rest) : Encodes (v :: vs) (tag :: (field ++ (content ++ rest)))
  | sequence {items vs : List Value} {content field rest : List UInt8} (inner : Encodes items content)
      (length : LengthField content.length field) (more : Encodes vs rest) :
    Encodes (.sequence items :: vs) (sequenceTag :: (field ++ (content ++ rest)))

/-- The content that a length field announces, and the bytes after it. -/
def readContent (bytes : List UInt8) : Option (List UInt8 × List UInt8) :=
  match readLength bytes with
  | some (n, rest) => if n < 2 ^ 64 then takeExactly n rest else none
  | none => none

/-- Decodes to the end of the bytes; `fuel` bounds the number and the depth of elements. -/
def valuesWithin : (fuel : Nat) → List UInt8 → Option (List Value)
  | _, [] => some []
  | 0, _ :: _ => none
  | fuel + 1, tag :: bytes =>
    match readContent bytes with
    | none => none
    | some (content, rest) =>
      let value :=
        if tag = sequenceTag then (valuesWithin fuel content).map .sequence else primitive? tag content
      match value, valuesWithin fuel rest with
      | some v, some vs => some (v :: vs)
      | _, _ => none

/-- The value whose encoding the bytes are, to the last byte. -/
def decode? (bytes : List UInt8) : Option Value :=
  match valuesWithin bytes.length bytes with
  | some [v] => some v
  | _ => none

theorem readContent_eq_some_iff {bytes content rest : List UInt8} :
    readContent bytes = some (content, rest) ↔
      ∃ field, LengthField content.length field ∧ bytes = field ++ (content ++ rest) := by
  constructor
  · intro h
    unfold readContent at h
    split at h
    · next n after read =>
      split at h
      · next hn =>
        obtain ⟨field, hfield, rfl⟩ := (readLength_eq_some_iff hn).mp read
        obtain ⟨rfl, hlength⟩ := takeExactly_eq_some_iff.mp h
        rw [hlength]
        exact ⟨field, hfield, rfl⟩
      · cases h
    · cases h
  · rintro ⟨field, hfield, rfl⟩
    have hn := (lengthField_iff.mp hfield).1
    have read : readLength (field ++ (content ++ rest)) = some (content.length, content ++ rest) :=
      (readLength_eq_some_iff hn).mpr ⟨field, hfield, rfl⟩
    rw [readContent, read]
    dsimp only
    rw [if_pos hn, takeExactly_append rfl]

theorem readContent_append {content field : List UInt8} (h : LengthField content.length field)
    (rest : List UInt8) : readContent (field ++ (content ++ rest)) = some (content, rest) :=
  readContent_eq_some_iff.mpr ⟨field, h, rfl⟩

theorem length_written (tag : UInt8) (field content rest : List UInt8) :
    (tag :: (field ++ (content ++ rest))).length =
      field.length + content.length + rest.length + 1 := by
  simp only [List.length_cons, List.length_append]
  omega

theorem primitive?_sequence (content : List UInt8) : primitive? sequenceTag content = none := rfl

theorem encodes_of_valuesWithin {fuel : Nat} {bytes : List UInt8} {vs : List Value}
    (h : valuesWithin fuel bytes = some vs) : Encodes vs bytes := by
  induction fuel generalizing bytes vs with
  | zero =>
    cases bytes with
    | nil =>
      cases h
      exact .nil
    | cons tag bytes => cases h
  | succ fuel ih =>
    cases bytes with
    | nil =>
      cases h
      exact .nil
    | cons tag bytes =>
      rw [valuesWithin] at h
      split at h
      · cases h
      · next content rest read =>
        obtain ⟨field, hfield, rfl⟩ := readContent_eq_some_iff.mp read
        dsimp only at h
        split at h
        · next v vs' hvalue hmore =>
          cases h
          split at hvalue
          · next htag =>
            obtain ⟨items, hitems, rfl⟩ := Option.map_eq_some_iff.mp hvalue
            rw [htag]
            exact .sequence (ih hitems) hfield (ih hmore)
          · exact .primitive (primitive?_eq_some_iff.mp hvalue) hfield (ih hmore)
        · cases h

theorem valuesWithin_of_encodes {fuel : Nat} {bytes : List UInt8} {vs : List Value}
    (h : Encodes vs bytes) (enough : bytes.length ≤ fuel) : valuesWithin fuel bytes = some vs := by
  induction h generalizing fuel with
  | nil => cases fuel <;> rfl
  | primitive leaf length more ih =>
    next v tag content field rest vs =>
    rw [length_written] at enough
    obtain ⟨fuel, rfl⟩ : ∃ less, fuel = less + 1 := ⟨fuel - 1, by omega⟩
    have hleaf : primitive? tag content = some v := primitive?_eq_some_iff.mpr leaf
    have hne : tag ≠ sequenceTag := by
      rintro rfl
      rw [primitive?_sequence] at hleaf
      cases hleaf
    rw [valuesWithin, readContent_append length]
    dsimp only
    rw [if_neg hne, hleaf, ih (by omega)]
  | sequence inner length more ihInner ihMore =>
    next items vs content field rest =>
    rw [length_written] at enough
    obtain ⟨fuel, rfl⟩ : ∃ less, fuel = less + 1 := ⟨fuel - 1, by omega⟩
    rw [valuesWithin, readContent_append length]
    dsimp only
    rw [if_pos rfl, ihInner (by omega), ihMore (by omega)]
    rfl

/-- The decoder takes the distinguished encodings, and nothing else. -/
theorem decode?_eq_some_iff {bytes : List UInt8} {v : Value} :
    decode? bytes = some v ↔ Encodes [v] bytes := by
  constructor
  · intro h
    unfold decode? at h
    split at h
    · next w hvalues =>
      cases h
      exact encodes_of_valuesWithin hvalues
    · cases h
  · intro h
    rw [decode?, valuesWithin_of_encodes h (Nat.le_refl _)]

end DirectoryGateway.Der
