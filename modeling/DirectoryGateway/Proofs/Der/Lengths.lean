import DirectoryGateway.Der.Item
import DirectoryGateway.Proofs.Encoding.Numbers

/-!
# Lengths in shortest form

The form of a length, said without the writer: one byte below 128, and otherwise a byte that counts the digits and then
digits of which the first is not zero. It is what the writer writes and all that the strict reader takes.
-/

namespace DirectoryGateway.Der

/-- The bytes that stand for a length. More than eight digits no length needs. -/
inductive LengthField : Nat → List UInt8 → Prop
  | short (b : UInt8) (small : b.toNat < 128) : LengthField b.toNat [b]
  | long (digits : List UInt8) (count : digits.length ≤ 8) (lead : digits.head? ≠ some 0)
      (large : 128 ≤ Bytes.toNat digits) :
    LengthField (Bytes.toNat digits) (UInt8.ofNat (128 + digits.length) :: digits)

theorem toNat_ofByte {n : Nat} (h : n < 256) : (UInt8.ofNat n).toNat = n :=
  UInt8.toNat_ofNat_of_lt' h

theorem lengthBytes_short {n : Nat} (h : n < 128) : lengthBytes n = [UInt8.ofNat n] :=
  if_pos h

theorem lengthBytes_long {n : Nat} (h : 128 ≤ n) :
    lengthBytes n = UInt8.ofNat (128 + Bytes.width n) :: Bytes.minimal n :=
  if_neg (by omega)

theorem width_le_eight {n : Nat} (h : n < 2 ^ 64) : Bytes.width n ≤ 8 := by
  apply Bytes.width_le
  have hpow : (256 : Nat) ^ 8 = 2 ^ 64 := by decide
  rwa [hpow]

theorem lengthField_iff {n : Nat} {field : List UInt8} :
    LengthField n field ↔ n < 2 ^ 64 ∧ field = lengthBytes n := by
  constructor
  · intro h
    cases h with
    | short b small =>
      refine ⟨by omega, ?_⟩
      rw [lengthBytes_short small, UInt8.ofNat_toNat]
    | long digits count lead large =>
      have hminimal := Bytes.minimal_toNat lead
      have hwidth : Bytes.width (Bytes.toNat digits) = digits.length := by
        rw [← Bytes.length_minimal, hminimal]
      have hlt := Bytes.toNat_lt digits
      have hmono : 256 ^ digits.length ≤ 256 ^ 8 := Nat.pow_le_pow_right (by omega) count
      refine ⟨by omega, ?_⟩
      rw [lengthBytes_long large, hwidth, hminimal]
  · rintro ⟨hn, rfl⟩
    by_cases hshort : n < 128
    · have hvalue : (UInt8.ofNat n).toNat = n := toNat_ofByte (by omega)
      have h := LengthField.short (UInt8.ofNat n) (by omega)
      rwa [hvalue, ← lengthBytes_short hshort] at h
    · have hlarge : 128 ≤ n := by omega
      have hwidth := width_le_eight hn
      have hvalue := Bytes.toNat_minimal n
      have h := LengthField.long (Bytes.minimal n) (by rw [Bytes.length_minimal]; exact hwidth)
        (Bytes.minimal_head n) (by omega)
      rwa [hvalue, Bytes.length_minimal, ← lengthBytes_long hlarge] at h

theorem LengthField.of_lt {n : Nat} (h : n < 2 ^ 64) : LengthField n (lengthBytes n) :=
  lengthField_iff.mpr ⟨h, rfl⟩

/-! ### Readers -/

theorem takeExactly_append {front : List UInt8} {k : Nat} (h : front.length = k) (rest : List UInt8) :
    takeExactly k (front ++ rest) = some (front, rest) := by
  subst h
  simp [takeExactly]

theorem takeExactly_eq_some_iff {k : Nat} {bytes front rest : List UInt8} :
    takeExactly k bytes = some (front, rest) ↔ bytes = front ++ rest ∧ front.length = k := by
  constructor
  · intro h
    unfold takeExactly at h
    split at h
    · next hle =>
      cases h
      exact ⟨(List.take_append_drop k bytes).symm, List.length_take_of_le hle⟩
    · cases h
  · rintro ⟨rfl, hlength⟩
    exact takeExactly_append hlength rest

theorem readLength_eq_some_iff {bytes rest : List UInt8} {n : Nat} (hn : n < 2 ^ 64) :
    readLength bytes = some (n, rest) ↔ ∃ field, LengthField n field ∧ bytes = field ++ rest := by
  constructor
  · intro h
    refine ⟨lengthBytes n, .of_lt hn, ?_⟩
    cases bytes with
    | nil => cases h
    | cons b bytes =>
      rw [readLength] at h
      split at h
      · next small =>
        cases h
        rw [lengthBytes_short small, UInt8.ofNat_toNat]
        rfl
      · split at h
        · cases h
        · next digits after htake =>
          dsimp only at h
          split at h
          · next hfield =>
            obtain ⟨hbytes, -⟩ := takeExactly_eq_some_iff.mp htake
            cases h
            rw [hfield.2, hbytes]
            rfl
          · cases h
  · rintro ⟨field, hfield, rfl⟩
    cases hfield with
    | short b small => rw [List.singleton_append, readLength, if_pos small]
    | long digits count lead large =>
      have hcount : (UInt8.ofNat (128 + digits.length)).toNat = 128 + digits.length := toNat_ofByte (by omega)
      have hwritten : lengthBytes (Bytes.toNat digits) = UInt8.ofNat (128 + digits.length) :: digits :=
        (lengthField_iff.mp (.long digits count lead large)).2.symm
      have htake : takeExactly ((UInt8.ofNat (128 + digits.length)).toNat - 128) (digits ++ rest) =
          some (digits, rest) := takeExactly_append (by omega) rest
      rw [List.cons_append, readLength, if_neg (by omega), htake]
      dsimp only
      rw [if_pos ⟨large, hwritten⟩]

theorem readAnyLength_append {field : List UInt8} {n : Nat} (h : LengthField n field) (rest : List UInt8) :
    readAnyLength (field ++ rest) = some (n, rest) := by
  cases h with
  | short b small => rw [List.singleton_append, readAnyLength, if_pos small]
  | long digits count lead large =>
    have hcount : (UInt8.ofNat (128 + digits.length)).toNat = 128 + digits.length := toNat_ofByte (by omega)
    have htake : takeExactly ((UInt8.ofNat (128 + digits.length)).toNat - 128) (digits ++ rest) =
        some (digits, rest) := takeExactly_append (by omega) rest
    rw [List.cons_append, readAnyLength, if_neg (by omega), if_pos (by omega), htake]
    rfl

end DirectoryGateway.Der
