import DirectoryGateway.Proofs.Der.Lengths

/-!
# Lengths that end by themselves

A length is read back from the front of any bytes, by the strict reader and by the tolerant one, so no written length is the
beginning of another. Its digits are as few as hold it: they are a word of eight bytes without the zeros in front, and of all
the forms that a length may take elsewhere none is shorter.
-/

namespace DirectoryGateway.Der

/-! ### Shortest digits -/

theorem lt_pow_iff_width_le (n k : Nat) : n < 256 ^ k ↔ Bytes.width n ≤ k := by
  constructor
  · exact Bytes.width_le
  · intro h
    have hlt := Bytes.lt_of_width n
    have hmono : 256 ^ Bytes.width n ≤ 256 ^ k := Nat.pow_le_pow_right (by omega) h
    omega

theorem significant_ofNat {n k : Nat} (h : n < 256 ^ k) :
    Bytes.significant (Bytes.ofNat k n) = Bytes.minimal n := by
  rw [Bytes.significant_eq_minimal, Bytes.toNat_ofNat, Nat.mod_eq_of_lt h]

theorem length_lengthBytes (n : Nat) :
    (lengthBytes n).length = if n < 128 then 1 else 1 + Bytes.width n := by
  split
  · next short => rw [lengthBytes_short short, List.length_singleton]
  · next long =>
    rw [lengthBytes_long (by omega), List.length_cons, Bytes.length_minimal, Nat.add_comm]

/-! ### Longer forms -/

/-- The bytes that may stand for a length where it need not be short: any number of digits, zeros in front included. The first
byte counts them, and its highest count is set aside. -/
inductive LooseField : Nat → List UInt8 → Prop
  | short (b : UInt8) (small : b.toNat < 128) : LooseField b.toNat [b]
  | long (digits : List UInt8) (written : digits ≠ []) (count : digits.length < 127) :
    LooseField (Bytes.toNat digits) (UInt8.ofNat (128 + digits.length) :: digits)

theorem LengthField.loose {n : Nat} {field : List UInt8} (h : LengthField n field) : LooseField n field := by
  cases h with
  | short b small => exact .short b small
  | long digits count lead large =>
    refine .long digits ?_ (by omega)
    rintro rfl
    exact absurd large (by decide)

theorem LooseField.length_le {n : Nat} {field : List UInt8} (h : LooseField n field) :
    (lengthBytes n).length ≤ field.length := by
  rw [length_lengthBytes]
  cases h with
  | short b small =>
    rw [if_pos small]
    exact Nat.le_refl 1
  | long digits written count =>
    have hwidth : Bytes.width (Bytes.toNat digits) ≤ digits.length := Bytes.width_le (Bytes.toNat_lt digits)
    rw [List.length_cons]
    split <;> omega

/-- A form that is no longer than the written one is the written one. -/
theorem LooseField.eq_of_length_le {n : Nat} {field : List UInt8} (h : LooseField n field)
    (short : field.length ≤ (lengthBytes n).length) : field = lengthBytes n := by
  rw [length_lengthBytes] at short
  cases h with
  | short b small => rw [lengthBytes_short small, UInt8.ofNat_toNat]
  | long digits written count =>
    have hpos : 0 < digits.length := List.length_pos_iff.mpr written
    have hwidth : Bytes.width (Bytes.toNat digits) ≤ digits.length := Bytes.width_le (Bytes.toNat_lt digits)
    rw [List.length_cons] at short
    split at short
    · omega
    · next large =>
      have hcount : Bytes.width (Bytes.toNat digits) = digits.length := by omega
      rw [lengthBytes_long (by omega), Bytes.minimal, hcount, Bytes.ofNat_toNat rfl]

/-! ### Reading -/

theorem readLength_lengthBytes {n : Nat} (fits : n < 2 ^ 64) (rest : List UInt8) :
    readLength (lengthBytes n ++ rest) = some (n, rest) :=
  (readLength_eq_some_iff fits).mpr ⟨lengthBytes n, .of_lt fits, rfl⟩

theorem eq_of_lengthBytes_isPrefix {m n : Nat} (fits : m < 2 ^ 64) (fits' : n < 2 ^ 64)
    (front : lengthBytes m <+: lengthBytes n) : m = n := by
  obtain ⟨rest, hrest⟩ := front
  have hm := readLength_lengthBytes fits rest
  have hn := readLength_lengthBytes fits' []
  rw [List.append_nil, ← hrest, hm] at hn
  cases hn
  rfl

/-- A length of 64 bits is read back from its bytes, whatever follows them. It is one byte below 128, and otherwise a byte that
counts its digits and these digits, the least number of bytes that hold it. No other form of it is as short, and no other length
has bytes that begin with its own. -/
theorem lengths_delimit_themselves {n : Nat} (fits : n < 2 ^ 64) :
    (∀ rest, readLength (lengthBytes n ++ rest) = some (n, rest) ∧
      readAnyLength (lengthBytes n ++ rest) = some (n, rest)) ∧
    (n < 128 → lengthBytes n = [UInt8.ofNat n]) ∧
    (128 ≤ n → ∃ b, 1 ≤ b ∧ b ≤ 8 ∧ (∀ k, n < 256 ^ k ↔ b ≤ k) ∧ (lengthBytes n).length = 1 + b ∧
      lengthBytes n = UInt8.ofNat (128 + b) :: Bytes.significant (Bytes.ofNat 8 n)) ∧
    LooseField n (lengthBytes n) ∧
    (∀ field, LooseField n field →
      (lengthBytes n).length ≤ field.length ∧ (field.length = (lengthBytes n).length → field = lengthBytes n)) ∧
    ∀ m < 2 ^ 64, lengthBytes n <+: lengthBytes m → m = n := by
  refine ⟨?_, lengthBytes_short, ?_, (LengthField.of_lt fits).loose, ?_, ?_⟩
  · intro rest
    exact ⟨readLength_lengthBytes fits rest, readAnyLength_append (.of_lt fits) rest⟩
  · intro long
    have hone : 0 < Bytes.width n := by
      apply Bytes.lt_width
      omega
    have hword : n < 256 ^ 8 := (lt_pow_iff_width_le n 8).mpr (width_le_eight fits)
    refine ⟨Bytes.width n, hone, width_le_eight fits, lt_pow_iff_width_le n, ?_, ?_⟩
    · rw [length_lengthBytes, if_neg (by omega)]
    · rw [significant_ofNat hword, lengthBytes_long long]
  · intro field loose
    exact ⟨loose.length_le, fun same => loose.eq_of_length_le (Nat.le_of_eq same)⟩
  · intro m hm front
    exact (eq_of_lengthBytes_isPrefix fits hm front).symm

/-- The least length with three digits, and a form of it with a zero in front. -/
theorem lengthBytes_of_word :
    65536 < 2 ^ 64 ∧ readLength (lengthBytes 65536 ++ [1, 2]) = some (65536, [1, 2]) ∧
      (lengthBytes 65536).length = 4 ∧ LooseField 65536 [0x84, 0, 1, 0, 0] ∧
      (lengthBytes 65536).length ≤ [0x84, 0, 1, 0, 0].length ∧ ¬ lengthBytes 65536 <+: lengthBytes 65537 := by
  obtain ⟨hread, -, hlong, -, hloose, hfront⟩ := lengths_delimit_themselves (n := 65536) (by decide)
  obtain ⟨b, -, -, hleast, hlength, -⟩ := hlong (by decide)
  have hb : b = 3 := by
    have hthree := (hleast 3).mp (by decide)
    have htwo := (hleast 2).not.mp (by decide)
    omega
  have hfield : LooseField 65536 [0x84, 0, 1, 0, 0] := .long [0, 1, 0, 0] (by decide) (by decide)
  refine ⟨by decide, (hread [1, 2]).1, ?_, hfield, (hloose _ hfield).1, ?_⟩
  · rw [hlength, hb]
  · intro front
    exact absurd (hfront 65537 (by decide) front) (by decide)

end DirectoryGateway.Der
