import DirectoryGateway.Json.Reader
import Mathlib.Data.List.DropRight

/-!
# What the reader of a value takes

One inversion for each of the readers of values, items and fields says all that it can take off the front. The bytes of a
scalar are either those of a string or plain ones.
-/

namespace DirectoryGateway.Json

/-! ### Bytes -/

theorem forall_byte {P : UInt8 → Prop} (h : ∀ n : Fin 256, P (UInt8.ofFin n)) (b : UInt8) : P b :=
  h b.toFin

def isOpening (b : UInt8) : Bool :=
  b == '['.toUInt8 || b == '\x7b'.toUInt8

def isClosing (b : UInt8) : Bool :=
  b == ']'.toUInt8 || b == '\x7d'.toUInt8

/-- Whether a byte outside of strings opens, closes or separates. -/
def isMark (b : UInt8) : Bool :=
  isOpening b || isClosing b || b == ','.toUInt8

/-- Whether a byte may stand outside of strings without being a mark: blanks, colons, and what numbers and fixed words
are made of. -/
def isPlain (b : UInt8) : Bool :=
  isBlankByte b || (digit? b).isSome ||
    [':', '+', '-', '.', 'e', 'E', 't', 'r', 'u', 'f', 'a', 'l', 's', 'n'].any (·.toUInt8 == b)

theorem plain_apart {b : UInt8} : isPlain b = true → b ≠ quote ∧ b ≠ backslash ∧ isMark b = false :=
  forall_byte (P := fun b => isPlain b = true → b ≠ quote ∧ b ≠ backslash ∧ isMark b = false)
    (by decide +kernel) b

theorem mark_of_opening {b : UInt8} (h : isOpening b = true) : isMark b = true := by
  simp [isMark, h]

theorem mark_of_closing {b : UInt8} (h : isClosing b = true) : isMark b = true := by
  simp [isMark, h]

theorem mark_apart {b : UInt8} (h : isMark b = true) : b ≠ quote ∧ b ≠ backslash := by
  have marks : b = '['.toUInt8 ∨ b = '\x7b'.toUInt8 ∨ b = ']'.toUInt8 ∨ b = '\x7d'.toUInt8 ∨
      b = ','.toUInt8 := by
    simpa [isMark, isOpening, isClosing, or_assoc] using h
  rcases marks with rfl | rfl | rfl | rfl | rfl <;> decide

theorem closing_not_opening {b : UInt8} (h : isClosing b = true) : isOpening b = false := by
  have brackets : b = ']'.toUInt8 ∨ b = '\x7d'.toUInt8 := by
    simpa [isClosing] using h
  rcases brackets with rfl | rfl <;> decide

theorem plain_of_blank {b : UInt8} (h : isBlankByte b = true) : isPlain b = true := by
  simp [isPlain, h]

theorem plain_of_digit {b : UInt8} {d : Nat} (h : digit? b = some d) : isPlain b = true := by
  simp [isPlain, h]

theorem skipBlanks_idem (bytes : List UInt8) : skipBlanks (skipBlanks bytes) = skipBlanks bytes :=
  List.dropWhile_idempotent _ _

theorem skipBlanks_cons_of_not {b : UInt8} (h : isBlankByte b = false) (rest : List UInt8) :
    skipBlanks (b :: rest) = b :: rest := by
  simp [skipBlanks, h]

/-! ### Words and numbers -/

/-- What lies between two places consists of plain bytes. -/
def PlainUpTo (bytes rest : List UInt8) : Prop :=
  ∃ taken, bytes = taken ++ rest ∧ ∀ b ∈ taken, isPlain b = true

theorem PlainUpTo.refl (bytes : List UInt8) : PlainUpTo bytes bytes :=
  ⟨[], rfl, by simp⟩

theorem PlainUpTo.cons {b : UInt8} {bytes rest : List UInt8} (plain : isPlain b = true)
    (h : PlainUpTo bytes rest) : PlainUpTo (b :: bytes) rest := by
  obtain ⟨taken, rfl, htaken⟩ := h
  refine ⟨b :: taken, rfl, ?_⟩
  intro c hc
  rcases List.mem_cons.mp hc with rfl | hmem
  · exact plain
  · exact htaken c hmem

theorem PlainUpTo.trans {bytes rest rest' : List UInt8} (h : PlainUpTo bytes rest)
    (h' : PlainUpTo rest rest') : PlainUpTo bytes rest' := by
  obtain ⟨taken, rfl, htaken⟩ := h
  obtain ⟨taken', rfl, htaken'⟩ := h'
  refine ⟨taken ++ taken', by simp, ?_⟩
  intro b hb
  rcases List.mem_append.mp hb with h | h
  · exact htaken b h
  · exact htaken' b h

theorem plainUpTo_takeWord {word bytes rest : List UInt8} (plain : ∀ b ∈ word, isPlain b = true)
    (h : takeWord word bytes = some rest) : PlainUpTo bytes rest := by
  induction word generalizing bytes with
  | nil =>
    cases bytes <;>
    · cases h
      exact .refl _
  | cons w word ih =>
    cases bytes with
    | nil => cases h
    | cons b bytes =>
      rw [takeWord] at h
      split at h
      · next same =>
        subst same
        exact .cons (plain w List.mem_cons_self) (ih (fun b hb => plain b (List.mem_cons_of_mem _ hb)) h)
      · cases h

theorem plainUpTo_spanDigits (bytes : List UInt8) : PlainUpTo bytes (spanDigits bytes).2 := by
  induction bytes with
  | nil => exact .refl _
  | cons b rest ih =>
    rw [spanDigits]
    cases hd : digit? b with
    | some d => exact .cons (plain_of_digit hd) ih
    | none => exact .refl _

theorem plainUpTo_readWhole {bytes rest : List UInt8} {whole : Nat}
    (h : readWhole bytes = some (whole, rest)) : PlainUpTo bytes rest := by
  have span := plainUpTo_spanDigits bytes
  rw [readWhole] at h
  split at h
  · cases h
  · next hs =>
    rw [hs] at span
    cases h
    exact span
  · cases h
  · next hs =>
    rw [hs] at span
    cases h
    exact span

theorem plainUpTo_readFraction {bytes rest : List UInt8} {fraction : List Nat}
    (h : readFraction bytes = some (fraction, rest)) : PlainUpTo bytes rest := by
  cases bytes with
  | nil =>
    cases h
    exact .refl _
  | cons b bytes =>
    rw [readFraction] at h
    split at h
    · next point =>
      subst point
      have span := plainUpTo_spanDigits bytes
      split at h
      · cases h
      · next hs =>
        rw [hs] at span
        cases h
        exact .cons (by decide) span
    · cases h
      exact .refl _

theorem plainUpTo_readExponentDigits {negative : Bool} {bytes rest : List UInt8} {exponent : Option Int}
    (h : readExponentDigits negative bytes = some (exponent, rest)) : PlainUpTo bytes rest := by
  have span := plainUpTo_spanDigits bytes
  rw [readExponentDigits] at h
  split at h
  · cases h
  · next hs =>
    rw [hs] at span
    cases h
    exact span

theorem plainUpTo_readExponent {bytes rest : List UInt8} {exponent : Option Int}
    (h : readExponent bytes = some (exponent, rest)) : PlainUpTo bytes rest := by
  cases bytes with
  | nil =>
    cases h
    exact .refl _
  | cons b bytes =>
    rw [readExponent.eq_def] at h
    dsimp only at h
    split at h
    · next letter =>
      have hb : isPlain b = true := by
        rcases letter with rfl | rfl <;> decide
      cases bytes with
      | nil => cases h
      | cons s after =>
        dsimp only at h
        split at h
        · next minus =>
          subst minus
          exact .cons hb (.cons (by decide) (plainUpTo_readExponentDigits h))
        · split at h
          · next plus =>
            subst plus
            exact .cons hb (.cons (by decide) (plainUpTo_readExponentDigits h))
          · exact .cons hb (plainUpTo_readExponentDigits h)
    · cases h
      exact .refl _

theorem plainUpTo_readUnsigned {negative : Bool} {bytes rest : List UInt8} {n : Number}
    (h : readUnsigned negative bytes = some (n, rest)) : PlainUpTo bytes rest := by
  rw [readUnsigned] at h
  split at h
  · cases h
  · next whole =>
    split at h
    · cases h
    · next fraction =>
      split at h
      · cases h
      · next exponent =>
        cases h
        exact ((plainUpTo_readWhole whole).trans (plainUpTo_readFraction fraction)).trans
          (plainUpTo_readExponent exponent)

theorem plainUpTo_readNumber {bytes rest : List UInt8} {n : Number}
    (h : readNumber bytes = some (n, rest)) : PlainUpTo bytes rest := by
  cases bytes with
  | nil => cases h
  | cons b bytes =>
    rw [readNumber] at h
    split at h
    · next minus =>
      subst minus
      exact .cons (by decide) (plainUpTo_readUnsigned h)
    · exact plainUpTo_readUnsigned h

/-! ### Scalars -/

theorem readScalar_cases {bytes rest : List UInt8} {v : Json} (h : readScalar bytes = some (v, rest)) :
    (∃ content inner, bytes = quote :: inner ∧ readContent inner = some (content, rest) ∧
        v = .text content) ∨ PlainUpTo bytes rest := by
  have words : ∀ word ∈ ["null", "true", "false"], ∀ b ∈ word.toUTF8.toList, isPlain b = true := by
    decide +kernel
  cases bytes with
  | nil => cases h
  | cons b inner =>
    rw [readScalar] at h
    split at h
    · next hquote =>
      subst hquote
      obtain ⟨⟨content, rest'⟩, hread, heq⟩ := Option.map_eq_some_iff.mp h
      cases heq
      exact Or.inl ⟨content, inner, rfl, by simpa [readString] using hread, rfl⟩
    · refine Or.inr ?_
      split at h
      · obtain ⟨rest', hread, heq⟩ := Option.map_eq_some_iff.mp h
        cases heq
        exact plainUpTo_takeWord (words _ (by simp)) hread
      · split at h
        · obtain ⟨rest', hread, heq⟩ := Option.map_eq_some_iff.mp h
          cases heq
          exact plainUpTo_takeWord (words _ (by simp)) hread
        · split at h
          · obtain ⟨rest', hread, heq⟩ := Option.map_eq_some_iff.mp h
            cases heq
            exact plainUpTo_takeWord (words _ (by simp)) hread
          · obtain ⟨⟨n, rest'⟩, hread, heq⟩ := Option.map_eq_some_iff.mp h
            cases heq
            exact plainUpTo_readNumber hread

/-! ### Values -/

inductive ValueRead (fuel : Nat) (bytes : List UInt8) : Json → List UInt8 → Prop where
  | emptyList {inner rest : List UInt8} (opening : skipBlanks bytes = '['.toUInt8 :: inner)
      (closing : skipBlanks inner = ']'.toUInt8 :: rest) : ValueRead fuel bytes (.list []) rest
  | list {inner rest : List UInt8} {items : List Json}
      (opening : skipBlanks bytes = '['.toUInt8 :: inner)
      (filled : ∀ rest, skipBlanks inner ≠ ']'.toUInt8 :: rest)
      (read : readItems fuel (skipBlanks inner) = some (items, rest)) :
    ValueRead fuel bytes (.list items) rest
  | emptyRecord {inner rest : List UInt8} (opening : skipBlanks bytes = '\x7b'.toUInt8 :: inner)
      (closing : skipBlanks inner = '\x7d'.toUInt8 :: rest) : ValueRead fuel bytes (.record []) rest
  | record {inner rest : List UInt8} {fields : List (List UInt8 × Json)}
      (opening : skipBlanks bytes = '\x7b'.toUInt8 :: inner)
      (filled : ∀ rest, skipBlanks inner ≠ '\x7d'.toUInt8 :: rest)
      (read : readFields fuel (skipBlanks inner) = some (fields, rest)) :
    ValueRead fuel bytes (.record fields) rest
  | scalar {rest : List UInt8} {v : Json} (noList : ∀ inner, skipBlanks bytes ≠ '['.toUInt8 :: inner)
      (noRecord : ∀ inner, skipBlanks bytes ≠ '\x7b'.toUInt8 :: inner)
      (read : readScalar (skipBlanks bytes) = some (v, rest)) : ValueRead fuel bytes v rest

inductive ItemsRead (fuel : Nat) (bytes : List UInt8) : List Json → List UInt8 → Prop where
  | last {item : Json} {next rest : List UInt8} (read : readValue fuel bytes = some (item, next))
      (closing : skipBlanks next = ']'.toUInt8 :: rest) : ItemsRead fuel bytes [item] rest
  | more {item : Json} {items : List Json} {next after rest : List UInt8}
      (read : readValue fuel bytes = some (item, next))
      (comma : skipBlanks next = ','.toUInt8 :: after)
      (tail : readItems fuel after = some (items, rest)) : ItemsRead fuel bytes (item :: items) rest

inductive FieldsRead (fuel : Nat) (bytes : List UInt8) : List (List UInt8 × Json) → List UInt8 → Prop where
  | last {key colon start next rest : List UInt8} {value : Json}
      (key_ : readString (skipBlanks bytes) = some (key, colon))
      (between : skipBlanks colon = ':'.toUInt8 :: start)
      (read : readValue fuel start = some (value, next))
      (closing : skipBlanks next = '\x7d'.toUInt8 :: rest) : FieldsRead fuel bytes [(key, value)] rest
  | more {key colon start next after rest : List UInt8} {value : Json} {fields : List (List UInt8 × Json)}
      (key_ : readString (skipBlanks bytes) = some (key, colon))
      (between : skipBlanks colon = ':'.toUInt8 :: start)
      (read : readValue fuel start = some (value, next))
      (comma : skipBlanks next = ','.toUInt8 :: after)
      (tail : readFields fuel after = some (fields, rest)) :
    FieldsRead fuel bytes ((key, value) :: fields) rest

theorem readValue_nil (fuel : Nat) : readValue fuel [] = none := by
  cases fuel <;> rfl

theorem readItems_nil (fuel : Nat) : readItems fuel [] = none := by
  cases fuel with
  | zero => rfl
  | succ fuel => rw [readItems, readValue_nil]

theorem readFields_nil (fuel : Nat) : readFields fuel [] = none := by
  cases fuel <;> rfl

theorem readValue_iff {fuel : Nat} {bytes rest : List UInt8} {v : Json} :
    readValue (fuel + 1) bytes = some (v, rest) ↔ ValueRead fuel bytes v rest := by
  have hne : ('\x7b'.toUInt8 : UInt8) ≠ '['.toUInt8 := by decide
  constructor
  · intro h
    rw [readValue] at h
    split at h
    · cases h
    · next b inner opening =>
      split at h
      · next list =>
        subst list
        split at h
        · cases h
        · next c after hinner =>
          split at h
          · next closing =>
            subst closing
            cases h
            exact .emptyList opening hinner
          · next filled =>
            obtain ⟨⟨items, rest'⟩, read, heq⟩ := Option.map_eq_some_iff.mp h
            cases heq
            refine .list opening ?_ (by rw [hinner]; exact read)
            intro rest' h'
            rw [hinner] at h'
            exact filled (List.head_eq_of_cons_eq h')
      · next noList =>
        split at h
        · next record =>
          subst record
          split at h
          · cases h
          · next c after hinner =>
            split at h
            · next closing =>
              subst closing
              cases h
              exact .emptyRecord opening hinner
            · next filled =>
              obtain ⟨⟨fields, rest'⟩, read, heq⟩ := Option.map_eq_some_iff.mp h
              cases heq
              refine .record opening ?_ (by rw [hinner]; exact read)
              intro rest' h'
              rw [hinner] at h'
              exact filled (List.head_eq_of_cons_eq h')
        · next noRecord =>
          refine .scalar ?_ ?_ (by rw [opening]; exact h)
          · intro inner' h'
            rw [opening] at h'
            exact noList (List.head_eq_of_cons_eq h')
          · intro inner' h'
            rw [opening] at h'
            exact noRecord (List.head_eq_of_cons_eq h')
  · intro h
    rw [readValue]
    cases h with
    | emptyList opening closing => simp [opening, closing]
    | @list inner rest items opening filled read =>
      cases hinner : skipBlanks inner with
      | nil =>
        rw [hinner, readItems_nil] at read
        cases read
      | cons c after =>
        rw [hinner] at read filled
        have hc : c ≠ ']'.toUInt8 := by
          rintro rfl
          exact filled after rfl
        simp [opening, hinner, hc, read]
    | emptyRecord opening closing => simp [opening, closing, hne]
    | @record inner rest fields opening filled read =>
      cases hinner : skipBlanks inner with
      | nil =>
        rw [hinner, readFields_nil] at read
        cases read
      | cons c after =>
        rw [hinner] at read filled
        have hc : c ≠ '\x7d'.toUInt8 := by
          rintro rfl
          exact filled after rfl
        simp [opening, hinner, hc, read, hne]
    | scalar noList noRecord read =>
      cases hbytes : skipBlanks bytes with
      | nil =>
        rw [hbytes] at read
        cases read
      | cons b inner =>
        rw [hbytes] at read noList noRecord
        have hlist : b ≠ '['.toUInt8 := by
          rintro rfl
          exact noList inner rfl
        have hrecord : b ≠ '\x7b'.toUInt8 := by
          rintro rfl
          exact noRecord inner rfl
        simp [hlist, hrecord, read]

theorem readItems_iff {fuel : Nat} {bytes rest : List UInt8} {items : List Json} :
    readItems (fuel + 1) bytes = some (items, rest) ↔ ItemsRead fuel bytes items rest := by
  have hne : (','.toUInt8 : UInt8) ≠ ']'.toUInt8 := by decide
  constructor
  · intro h
    rw [readItems] at h
    split at h
    · cases h
    · next item next read =>
      split at h
      · cases h
      · next c after hnext =>
        split at h
        · next closing =>
          subst closing
          cases h
          exact .last read hnext
        · split at h
          · next comma =>
            subst comma
            obtain ⟨⟨items, rest'⟩, tail, heq⟩ := Option.map_eq_some_iff.mp h
            cases heq
            exact .more read hnext tail
          · cases h
  · intro h
    rw [readItems]
    cases h with
    | last read closing => simp [read, closing]
    | more read comma tail => simp [read, comma, tail, hne]

theorem readFields_iff {fuel : Nat} {bytes rest : List UInt8} {fields : List (List UInt8 × Json)} :
    readFields (fuel + 1) bytes = some (fields, rest) ↔ FieldsRead fuel bytes fields rest := by
  have hne : (','.toUInt8 : UInt8) ≠ '\x7d'.toUInt8 := by decide
  constructor
  · intro h
    rw [readFields] at h
    split at h
    · cases h
    · next key colon hkey =>
      split at h
      · cases h
      · next c start hcolon =>
        split at h
        · next colon_ =>
          subst colon_
          split at h
          · cases h
          · next value next read =>
            split at h
            · cases h
            · next d after hnext =>
              split at h
              · next closing =>
                subst closing
                cases h
                exact .last hkey hcolon read hnext
              · split at h
                · next comma =>
                  subst comma
                  obtain ⟨⟨fields, rest'⟩, tail, heq⟩ := Option.map_eq_some_iff.mp h
                  cases heq
                  exact .more hkey hcolon read hnext tail
                · cases h
        · cases h
  · intro h
    rw [readFields]
    cases h with
    | last key_ between read closing => simp [key_, between, read, closing]
    | more key_ between read comma tail => simp [key_, between, read, comma, tail, hne]

theorem read_succ (fuel : Nat) :
    (∀ {bytes r}, readValue fuel bytes = some r → readValue (fuel + 1) bytes = some r) ∧
      (∀ {bytes r}, readItems fuel bytes = some r → readItems (fuel + 1) bytes = some r) ∧
      ∀ {bytes r}, readFields fuel bytes = some r → readFields (fuel + 1) bytes = some r := by
  -- The readers call each other with one fuel less, so the three go up together.
  induction fuel with
  | zero =>
    refine ⟨?_, ?_, ?_⟩ <;>
    · intro bytes r h
      cases h
  | succ fuel ih =>
    obtain ⟨ihValue, ihItems, ihFields⟩ := ih
    refine ⟨?_, ?_, ?_⟩
    · rintro bytes ⟨v, rest⟩ h
      refine readValue_iff.mpr ?_
      cases readValue_iff.mp h with
      | emptyList opening closing => exact .emptyList opening closing
      | list opening filled read => exact .list opening filled (ihItems read)
      | emptyRecord opening closing => exact .emptyRecord opening closing
      | record opening filled read => exact .record opening filled (ihFields read)
      | scalar noList noRecord read => exact .scalar noList noRecord read
    · rintro bytes ⟨items, rest⟩ h
      refine readItems_iff.mpr ?_
      cases readItems_iff.mp h with
      | last read closing => exact .last (ihValue read) closing
      | more read comma tail => exact .more (ihValue read) comma (ihItems tail)
    · rintro bytes ⟨fields, rest⟩ h
      refine readFields_iff.mpr ?_
      cases readFields_iff.mp h with
      | last key_ between read closing => exact .last key_ between (ihValue read) closing
      | more key_ between read comma tail => exact .more key_ between (ihValue read) comma (ihFields tail)

theorem readValue_of_le {fuel fuel' : Nat} {bytes : List UInt8} {r : Json × List UInt8}
    (h : readValue fuel bytes = some r) (hle : fuel ≤ fuel') : readValue fuel' bytes = some r := by
  induction fuel' with
  | zero =>
    rw [Nat.le_zero.mp hle] at h
    exact h
  | succ fuel' ih =>
    rcases Nat.lt_or_ge fuel' fuel with hlt | hge
    · rw [show fuel' + 1 = fuel by omega]
      exact h
    · exact (read_succ fuel').1 (ih hge)

theorem readValue_unique {fuel fuel' : Nat} {bytes : List UInt8} {r r' : Json × List UInt8}
    (h : readValue fuel bytes = some r) (h' : readValue fuel' bytes = some r') : r = r' := by
  have hmax := readValue_of_le h (Nat.le_max_left fuel fuel')
  rw [readValue_of_le h' (Nat.le_max_right fuel fuel')] at hmax
  exact (Option.some.inj hmax).symm

end DirectoryGateway.Json
