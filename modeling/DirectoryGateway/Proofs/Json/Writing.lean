import DirectoryGateway.Json.Canonical
import DirectoryGateway.Proofs.Json.Attempts
import DirectoryGateway.Proofs.Json.Strings

/-!
# Strings and numbers as they are written

A written string is read back with its escapes, and without them it is the text it was written for. A written number
ends where the next mark stands, and is read back digit by digit.
-/

namespace DirectoryGateway

theorem Bytes.toText?_ofText (s : String) : toText? (ofText s) = some s := by
  rw [ofText, toList_eq, toText?, Array.toArray_toList, String.fromUTF8?]
  exact dif_pos s.isValidUTF8

namespace Json

/-! ### Escapes -/

/-- How a byte of a text stands in a string. -/
inductive Escaped (b : UInt8) : List UInt8 → Prop where
  | plain (noQuote : b ≠ quote) (noBackslash : b ≠ backslash) (noControl : ¬ b.toNat < 32) : Escaped b [b]
  | letter {e : UInt8} (noUnit : e ≠ 'u'.toUInt8) (value : escapeValue e = some b) : Escaped b [backslash, e]
  | unit {x y z w : UInt8} (value : hexUnit x y z w = some b.toNat) (control : b.toNat < 32) :
    Escaped b [backslash, 'u'.toUInt8, x, y, z, w]

theorem hexUnit_of_control {n : Nat} (h : n < 32) :
    hexUnit 48 48 (hexDigit (n / 16)) (hexDigit (n % 16)) = some n := by
  have all : ∀ n : Fin 32, hexUnit 48 48 (hexDigit (n / 16)) (hexDigit (n % 16)) = some n.val := by
    decide
  exact all ⟨n, h⟩

theorem escaped_escapeByte (b : UInt8) : Escaped b (escapeByte b) := by
  unfold escapeByte
  split
  · next h => exact .letter (by decide) (by rw [h]; decide)
  · next noQuote =>
    split
    · next h => exact .letter (by decide) (by rw [h]; decide)
    · next noBackslash =>
      split
      · next h => exact .letter (by decide) (by rw [h]; decide)
      · split
        · next h => exact .letter (by decide) (by rw [h]; decide)
        · split
          · next h => exact .letter (by decide) (by rw [h]; decide)
          · split
            · next h => exact .letter (by decide) (by rw [h]; decide)
            · split
              · next h => exact .letter (by decide) (by rw [h]; decide)
              · split
                · next control => exact .unit (hexUnit_of_control control) control
                · next noControl => exact .plain noQuote noBackslash noControl

theorem codePoint_toNat {b : UInt8} (h : b.toNat < 128) : codePoint b.toNat = [b] := by
  rw [codePoint, String.singleton_eq_ofList, Bytes.ofText_ofList, List.flatMap_singleton,
    Bytes.utf8EncodeChar_of_byte h]

theorem Escaped.readContent {b : UInt8} {stands : List UInt8} (escaped : Escaped b stands)
    {rest content after : List UInt8} (h : Json.readContent rest = some (content, after)) :
    Json.readContent (stands ++ rest) = some (stands ++ content, after) := by
  have hne : backslash ≠ quote := by decide
  cases escaped with
  | plain noQuote noBackslash noControl =>
    rw [List.singleton_append, Json.readContent.eq_def]
    simp [noQuote, noBackslash, noControl, h]
  | letter noUnit value =>
    rw [Json.readContent.eq_def]
    simp [hne, noUnit, value, h]
  | unit value control =>
    rw [Json.readContent.eq_def]
    simp [hne, value, h]

theorem Escaped.unescape {b : UInt8} {stands : List UInt8} (escaped : Escaped b stands)
    {rest bytes : List UInt8} (h : Json.unescape rest = some bytes) :
    Json.unescape (stands ++ rest) = some (b :: bytes) := by
  cases escaped with
  | plain noQuote noBackslash noControl =>
    rw [List.singleton_append, Json.unescape.eq_def]
    simp [noBackslash, h]
  | letter noUnit value =>
    rw [Json.unescape.eq_def]
    simp [noUnit, value, h]
  | unit value control =>
    have noTrail : ¬ (0xDC00 ≤ b.toNat ∧ b.toNat ≤ 0xDFFF) := by omega
    have noLead : ¬ (0xD800 ≤ b.toNat ∧ b.toNat ≤ 0xDBFF) := by omega
    rw [Json.unescape.eq_def]
    simp only [List.cons_append, List.nil_append, if_pos, value, if_neg noTrail, if_neg noLead, h,
      codePoint_toNat (show b.toNat < 128 by omega), Option.map_some]

theorem Escaped.tryContent {b : UInt8} {stands : List UInt8} (escaped : Escaped b stands) (fuel : Nat)
    (rest : List UInt8) : Json.tryContent (fuel + 1) (stands ++ rest) = Json.tryContent fuel rest := by
  have hne : backslash ≠ quote := by decide
  cases escaped with
  | plain noQuote noBackslash noControl =>
    rw [List.singleton_append, Json.tryContent, if_neg noQuote, if_neg noBackslash, if_neg noControl]
  | letter noUnit value =>
    rw [List.cons_append, Json.tryContent, if_neg hne, if_pos rfl]
    simp [tryEscape, noUnit, value]
  | unit value control =>
    have noTrail : ¬ (0xDC00 ≤ b.toNat ∧ b.toNat ≤ 0xDFFF) := by omega
    have noLead : ¬ (0xD800 ≤ b.toNat ∧ b.toNat ≤ 0xDBFF) := by omega
    rw [List.cons_append, Json.tryContent, if_neg hne, if_pos rfl]
    simp only [List.cons_append, List.nil_append, tryEscape, if_pos, value, if_neg noTrail, if_neg noLead]

theorem Escaped.length_pos {b : UInt8} {stands : List UInt8} (escaped : Escaped b stands) :
    0 < stands.length := by
  cases escaped <;> simp

/-! ### Strings -/

/-- Bytes that stand between quotes as the reader would find them there. -/
def IsContent (content : List UInt8) : Prop :=
  ∀ rest, readContent (content ++ quote :: rest) = some (content, rest)

theorem isContent_encode (s : String) : IsContent (encode s) := by
  intro rest
  rw [encode]
  induction Bytes.ofText s with
  | nil =>
    rw [readContent.eq_def]
    simp
  | cons b bytes ih =>
    rw [List.flatMap_cons, List.append_assoc]
    exact (escaped_escapeByte b).readContent ih

theorem unescape_encode (s : String) : unescape (encode s) = some (Bytes.ofText s) := by
  rw [encode]
  induction Bytes.ofText s with
  | nil => rfl
  | cons b bytes ih => exact (escaped_escapeByte b).unescape ih

@[simp] theorem decode?_encode (s : String) : decode? (encode s) = some s := by
  rw [decode?, unescape_encode, Option.bind_some, Bytes.toText?_ofText]

@[simp] theorem toText?_str (s : String) : (str s).toText? = some s :=
  decode?_encode s

theorem mapM_toText?_str (texts : List String) : (texts.map str).mapM toText? = some texts := by
  induction texts with
  | nil => rfl
  | cons s texts ih =>
    rw [List.map_cons, List.mapM_cons, toText?_str, ih]
    rfl

theorem tryContent_encode {fuel : Nat} {s : String} (long : (Bytes.ofText s).length < fuel)
    (rest : List UInt8) : tryContent fuel (encode s ++ quote :: rest) = ⟨true, rest⟩ := by
  rw [encode]
  generalize Bytes.ofText s = bytes at long ⊢
  induction bytes generalizing fuel with
  | nil =>
    obtain ⟨fuel, rfl⟩ : ∃ k, fuel = k + 1 := ⟨fuel - 1, by omega⟩
    rw [List.flatMap_nil, List.nil_append, tryContent, if_pos rfl]
  | cons b bytes ih =>
    rw [List.length_cons] at long
    obtain ⟨fuel, rfl⟩ : ∃ k, fuel = k + 1 := ⟨fuel - 1, by omega⟩
    rw [List.flatMap_cons, List.append_assoc, (escaped_escapeByte b).tryContent]
    exact ih (by omega)

theorem length_ofText_le (s : String) : (Bytes.ofText s).length ≤ (encode s).length := by
  rw [encode]
  induction Bytes.ofText s with
  | nil => exact Nat.zero_le _
  | cons b bytes ih =>
    have nonempty := (escaped_escapeByte b).length_pos
    rw [List.flatMap_cons, List.length_append, List.length_cons]
    omega

theorem tryText_encode (s : String) (rest : List UInt8) :
    tryText (encode s ++ quote :: rest) = (some s, rest) := by
  have long : (Bytes.ofText s).length < (encode s ++ quote :: rest).length := by
    have := length_ofText_le s
    rw [List.length_append, List.length_cons]
    omega
  have passed : (encode s ++ quote :: rest).length - rest.length - 1 = (encode s).length := by
    rw [List.length_append, List.length_cons]
    omega
  rw [tryText, tryContent_encode long]
  dsimp only
  rw [passed, List.take_left, decode?_encode, if_pos rfl]

/-! ### Digits -/

/-- Nothing is left, or a mark comes next: what was read has ended. -/
def AtMark (rest : List UInt8) : Prop :=
  ∀ b after, rest = b :: after → isMark b = true

theorem atMark_nil : AtMark [] := by
  intro b after h
  cases h

theorem atMark_cons {b : UInt8} (h : isMark b = true) (rest : List UInt8) : AtMark (b :: rest) := by
  intro c after hc
  cases hc
  exact h

theorem mark_ends {b : UInt8} : isMark b = true →
    digit? b = none ∧ b ≠ '.'.toUInt8 ∧ b ≠ 'e'.toUInt8 ∧ b ≠ 'E'.toUInt8 :=
  forall_byte (P := fun b => isMark b = true →
    digit? b = none ∧ b ≠ '.'.toUInt8 ∧ b ≠ 'e'.toUInt8 ∧ b ≠ 'E'.toUInt8) (by decide +kernel) b

theorem digit?_of_lt {d : Nat} (h : d < 10) : digit? (UInt8.ofNat (48 + d)) = some d := by
  have all : ∀ d : Fin 10, digit? (UInt8.ofNat (48 + d)) = some d.val := by decide
  exact all ⟨d, h⟩

/-- Digits as bytes, up to a byte that is none. -/
theorem spanDigits_of_lt {ds : List Nat} (digits : ∀ d ∈ ds, d < 10) {rest : List UInt8}
    (ends : ∀ b after, rest = b :: after → digit? b = none) :
    spanDigits (ds.map (fun d => UInt8.ofNat (48 + d)) ++ rest) = (ds, rest) := by
  induction ds with
  | nil =>
    cases rest with
    | nil => rfl
    | cons b after =>
      rw [List.map_nil, List.nil_append, spanDigits, ends b after rfl]
  | cons d ds ih =>
    rw [List.map_cons, List.cons_append, spanDigits, digit?_of_lt (digits d List.mem_cons_self),
      ih fun c hc => digits c (List.mem_cons_of_mem _ hc)]

theorem natDigits_eq (n : Nat) : natDigits n = (digitList n).map fun d => UInt8.ofNat (48 + d) := by
  rw [natDigits, ascii, digitList, List.map_map]
  refine List.map_congr_left ?_
  intro c hc
  have digit : c.isDigit = true := Nat.isDigit_of_mem_toDigits (by omega) (by omega) hc
  simp only [Char.isDigit, Bool.and_eq_true, decide_eq_true_eq] at digit
  have hle : 48 ≤ c.toNat := digit.1
  show UInt8.ofNat c.toNat = UInt8.ofNat (48 + (c.toNat - 48))
  rw [show 48 + (c.toNat - 48) = c.toNat by omega]

theorem digitsValue_digitList (n : Nat) : digitsValue (digitList n) = n := by
  have value := Nat.ofDigitChars_ten_toDigits (n := n)
  rw [Nat.ofDigitChars] at value
  rw [digitsValue, digitList, List.foldl_map]
  exact value

theorem digitList_ne_nil (n : Nat) : digitList n ≠ [] := by
  rw [digitList, ne_eq, List.map_eq_nil_iff]
  exact Nat.toDigits_ne_nil

theorem digitList_of_ten_le {n : Nat} (h : 10 ≤ n) : ∃ d, digitList n = digitList (n / 10) ++ [d] := by
  refine ⟨(n % 10).digitChar.toNat - '0'.toNat, ?_⟩
  rw [digitList, Nat.toDigits_of_base_le (by omega) h, List.map_append]
  rfl

/-- A number does not begin with a zero, but for zero itself. -/
theorem digitList_head {n : Nat} (positive : 0 < n) {ds : List Nat} : digitList n ≠ 0 :: ds := by
  -- The first digit is that of the number without its last one, down to a number of one digit.
  induction n using Nat.strongRecOn generalizing ds with
  | ind n ih =>
    rcases Nat.lt_or_ge n 10 with small | large
    · have all : ∀ n : Fin 10, 0 < n.val → (digitList n).head? ≠ some 0 := by decide
      intro h
      exact all ⟨n, small⟩ positive (by rw [h]; rfl)
    · obtain ⟨d, hd⟩ := digitList_of_ten_le large
      cases hfront : digitList (n / 10) with
      | nil => exact absurd hfront (digitList_ne_nil _)
      | cons c cs =>
        intro h
        rw [hd, hfront] at h
        have hc : c = 0 := List.head_eq_of_cons_eq h
        rw [hc] at hfront
        exact ih (n / 10) (by omega) (by omega) hfront

theorem spanDigits_natDigits (n : Nat) {rest : List UInt8}
    (ends : ∀ b after, rest = b :: after → digit? b = none) :
    spanDigits (natDigits n ++ rest) = (digitList n, rest) := by
  rw [natDigits_eq]
  exact spanDigits_of_lt (fun d hd => lt_ten_of_mem_digitList hd) ends

/-! ### Numbers -/

theorem readWhole_natDigits (n : Nat) {rest : List UInt8}
    (ends : ∀ b after, rest = b :: after → digit? b = none) :
    readWhole (natDigits n ++ rest) = some (n, rest) := by
  rw [readWhole, spanDigits_natDigits n ends]
  rcases Nat.eq_zero_or_pos n with rfl | positive
  · rfl
  · have value := digitsValue_digitList n
    split
    · next h => exact absurd (Prod.mk.inj h).1 (digitList_ne_nil n)
    · next h => exact absurd (Prod.mk.inj h).1 (digitList_head positive)
    · next h => exact absurd (Prod.mk.inj h).1 (digitList_head positive)
    · next h =>
      cases h
      rw [value]

theorem AtMark.noDigit {rest : List UInt8} (h : AtMark rest) :
    ∀ b after, rest = b :: after → digit? b = none :=
  fun b after hrest => (mark_ends (h b after hrest)).1

theorem readFraction_nil_of_not {rest : List UInt8}
    (ends : ∀ b after, rest = b :: after → b ≠ '.'.toUInt8) : readFraction rest = some ([], rest) := by
  cases rest with
  | nil => rfl
  | cons b after => rw [readFraction, if_neg (ends b after rfl)]

theorem AtMark.readExponent {rest : List UInt8} (h : AtMark rest) :
    Json.readExponent rest = some (none, rest) := by
  cases rest with
  | nil => rfl
  | cons b after =>
    obtain ⟨-, -, small, capital⟩ := mark_ends (h b after rfl)
    rw [Json.readExponent.eq_def]
    simp [small, capital]

theorem readExponentDigits_natDigits (negative : Bool) (n : Nat) {rest : List UInt8} (ends : AtMark rest) :
    readExponentDigits negative (natDigits n ++ rest) =
      some (some (if negative then -(n : Int) else n), rest) := by
  rw [readExponentDigits, spanDigits_natDigits n ends.noDigit]
  split
  · next h => exact absurd (Prod.mk.inj h).1 (digitList_ne_nil n)
  · next h =>
    cases h
    rw [digitsValue_digitList]

/-- How the exponent of a number stands behind it. -/
def exponentText : Option Int → List UInt8
  | none => []
  | some e => 'e'.toUInt8 :: (if e < 0 then '-' else '+').toUInt8 :: natDigits e.natAbs

def fractionText (fraction : List Nat) : List UInt8 :=
  if fraction = [] then [] else '.'.toUInt8 :: fraction.map fun d => UInt8.ofNat (48 + d)

theorem Number.render_eq (n : Number) :
    n.render = (if n.negative then ['-'.toUInt8] else []) ++
      (natDigits n.whole ++ (fractionText n.fraction ++ exponentText n.exponent)) := by
  rw [Number.render, fractionText]
  cases n.exponent <;> simp [exponentText]

theorem readExponent_exponentText (exponent : Option Int) {rest : List UInt8} (ends : AtMark rest) :
    readExponent (exponentText exponent ++ rest) = some (exponent, rest) := by
  cases exponent with
  | none => exact ends.readExponent
  | some e =>
    have hplus : '+'.toUInt8 ≠ '-'.toUInt8 := by decide
    rw [exponentText, List.cons_append, List.cons_append, readExponent, if_pos (Or.inl rfl)]
    by_cases negative : e < 0
    · rw [if_pos negative, if_pos rfl, readExponentDigits_natDigits true _ ends]
      simp only [if_pos, Option.some.injEq, Prod.mk.injEq, and_true]
      omega
    · rw [if_neg negative, if_neg hplus, if_pos rfl, readExponentDigits_natDigits false _ ends]
      simp only [Bool.false_eq_true, if_false, Option.some.injEq, Prod.mk.injEq, and_true]
      omega

/-- What follows the digits of a number: no digit, and a point only in front of a fraction. -/
theorem exponentText_ends (exponent : Option Int) {rest : List UInt8} (ends : AtMark rest) :
    ∀ b after, exponentText exponent ++ rest = b :: after → digit? b = none ∧ b ≠ '.'.toUInt8 := by
  intro b after h
  cases exponent with
  | none =>
    obtain ⟨noDigit, noPoint, -⟩ := mark_ends (ends b after h)
    exact ⟨noDigit, noPoint⟩
  | some e =>
    rw [← List.head_eq_of_cons_eq h]
    decide

theorem readFraction_fractionText {fraction : List Nat} (digits : ∀ d ∈ fraction, d < 10)
    (exponent : Option Int) {rest : List UInt8} (ends : AtMark rest) :
    readFraction (fractionText fraction ++ (exponentText exponent ++ rest)) =
      some (fraction, exponentText exponent ++ rest) := by
  have after := exponentText_ends exponent ends
  cases fraction with
  | nil => exact readFraction_nil_of_not fun b rest' h => (after b rest' h).2
  | cons d ds =>
    rw [fractionText, if_neg (by simp), List.cons_append, readFraction, if_pos rfl,
      spanDigits_of_lt digits fun b rest' h => (after b rest' h).1]

theorem fractionText_ends (fraction : List Nat) (exponent : Option Int) {rest : List UInt8}
    (ends : AtMark rest) :
    ∀ b after, fractionText fraction ++ (exponentText exponent ++ rest) = b :: after → digit? b = none := by
  intro b after h
  cases fraction with
  | nil => exact (exponentText_ends exponent ends b after h).1
  | cons d ds =>
    rw [← List.head_eq_of_cons_eq h]
    decide

theorem readUnsigned_render {n : Number} (digits : ∀ d ∈ n.fraction, d < 10) {rest : List UInt8}
    (ends : AtMark rest) :
    readUnsigned n.negative (natDigits n.whole ++ (fractionText n.fraction ++ (exponentText n.exponent ++ rest))) =
      some (n, rest) := by
  rw [readUnsigned, readWhole_natDigits _ (fractionText_ends n.fraction n.exponent ends)]
  dsimp only
  rw [readFraction_fractionText digits n.exponent ends]
  dsimp only
  rw [readExponent_exponentText n.exponent ends]

theorem toInt?_int (i : Int) : (⟨i < 0, i.natAbs, [], none⟩ : Number).toInt? = some i := by
  rw [Number.toInt?, if_pos ⟨rfl, rfl⟩]
  by_cases negative : i < 0
  · have nonzero : i.natAbs ≠ 0 := by omega
    simp only [negative, decide_true, if_true, if_neg nonzero, Option.some.injEq]
    omega
  · simp only [negative, decide_false, Bool.false_eq_true, if_false, Option.some.injEq]
    omega

/-- The first byte of the whole part of a number. -/
theorem natDigits_cons (n : Nat) : ∃ b bytes, natDigits n = b :: bytes ∧ (digit? b).isSome = true := by
  rw [natDigits_eq]
  cases hdigits : digitList n with
  | nil => exact absurd hdigits (digitList_ne_nil n)
  | cons d ds =>
    have hd : d < 10 := lt_ten_of_mem_digitList (by rw [hdigits]; exact List.mem_cons_self)
    exact ⟨_, _, rfl, by rw [digit?_of_lt hd]; rfl⟩

/-- A number that is written out is read back, whatever mark follows it. -/
theorem readNumber_render {n : Number} (digits : ∀ d ∈ n.fraction, d < 10) {rest : List UInt8}
    (ends : AtMark rest) : readNumber (n.render ++ rest) = some (n, rest) := by
  have unsigned := readUnsigned_render digits ends
  rw [Number.render_eq, List.append_assoc, List.append_assoc, List.append_assoc]
  cases negative : n.negative with
  | true =>
    rw [negative] at unsigned
    rw [if_pos rfl, List.singleton_append, readNumber, if_pos rfl]
    exact unsigned
  | false =>
    obtain ⟨b, bytes, hdigits, digit⟩ := natDigits_cons n.whole
    have noMinus : b ≠ '-'.toUInt8 := by
      rintro rfl
      revert digit
      decide
    rw [negative, hdigits] at unsigned
    rw [if_neg Bool.false_ne_true, List.nil_append, hdigits, List.cons_append, readNumber, if_neg noMinus]
    exact unsigned

end Json

end DirectoryGateway
