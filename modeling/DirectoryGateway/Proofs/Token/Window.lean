import DirectoryGateway.Proofs.Token.Soundness

/-!
# The validity window

A token that passes every check but those of its times is accepted in one interval of the clock: from the time of issue less
the leeway, to the end and the leeway. Comparing in words of 64 bits, as is usual for clocks, gives the same answers.
-/

namespace DirectoryGateway.Token

variable {v : Verifier} {token : List UInt8} {claims : Claims}

/-! ### Times -/

def IsInt64 (n : Int) : Prop :=
  Int64.minValue.toInt ≤ n ∧ n ≤ Int64.maxValue.toInt

theorem isInt64_iff {n : Int} : IsInt64 n ↔ -9223372036854775808 ≤ n ∧ n ≤ 9223372036854775807 :=
  Iff.rfl

theorem isInt64_of_required {given : Option Json} {time : Int}
    (h : Json.required Claims.timeOfJson? given = some time) : IsInt64 time := by
  have greatest : (Text.maxInt64 : Int) = 9223372036854775807 := by decide
  unfold Json.required Claims.timeOfJson? Json.toInt? at h
  split at h
  · split at h
    · split at h
      · split at h
        · next within =>
          cases h
          exact isInt64_iff.mpr ⟨by omega, by omega⟩
        · cases h
      · cases h
    · cases h
  · cases h

theorem isInt64_of_ofJson? {document : Json} (h : Claims.ofJson? document = some claims) :
    IsInt64 claims.expires ∧ IsInt64 claims.issued := by
  unfold Claims.ofJson? at h
  split at h
  · simp only [Option.bind_eq_bind, Option.bind_eq_some_iff, Option.pure_def, Option.some.injEq] at h
    obtain ⟨-, -, expires, hexpires, issued, hissued, -, -, -, -, -, -, -, -, -, -, rfl⟩ := h
    exact ⟨isInt64_of_required hexpires, isInt64_of_required hissued⟩
  · cases h

/-! ### Words -/

/-- The sum, or the greatest or least word where it would pass it. -/
def saturatingSum (a b : Int64) : Int64 :=
  Int64.ofInt (max Int64.minValue.toInt (min Int64.maxValue.toInt (a.toInt + b.toInt)))

theorem toInt_ofInt {n : Int} (h : IsInt64 n) : (Int64.ofInt n).toInt = n := by
  obtain ⟨hleast, hgreatest⟩ := isInt64_iff.mp h
  exact Int64.toInt_ofInt_of_le (by omega) (by omega)

theorem saturatingSum_lt_iff {now leeway : Nat} {issued : Int} (clock : IsInt64 now) (wide : IsInt64 leeway)
    (time : IsInt64 issued) :
    saturatingSum (Int64.ofInt now) (Int64.ofInt leeway) < Int64.ofInt issued ↔ (now + leeway : Int) < issued := by
  have hleast : Int64.minValue.toInt = -9223372036854775808 := rfl
  have hgreatest : Int64.maxValue.toInt = 9223372036854775807 := rfl
  have within : IsInt64 (max Int64.minValue.toInt (min Int64.maxValue.toInt (now + leeway))) := ⟨by omega, by omega⟩
  obtain ⟨hissued, hissued'⟩ := isInt64_iff.mp time
  rw [Int64.lt_iff_toInt_lt, saturatingSum, toInt_ofInt clock, toInt_ofInt wide, toInt_ofInt time, toInt_ofInt within]
  -- No word is above a sum that is cut off.
  omega

theorem lt_sub_iff {expires now leeway : Nat} (late : leeway ≤ now) (clock : now < 2 ^ 64) (ends : expires < 2 ^ 64) :
    UInt64.ofNat expires < UInt64.ofNat now - UInt64.ofNat leeway ↔ expires + leeway < now := by
  have hexpires : (UInt64.ofNat expires).toNat = expires := UInt64.toNat_ofNat_of_lt' ends
  have hnow : (UInt64.ofNat now).toNat = now := UInt64.toNat_ofNat_of_lt' clock
  have hleeway : (UInt64.ofNat leeway).toNat = leeway := UInt64.toNat_ofNat_of_lt' (Nat.lt_of_le_of_lt late clock)
  have hle : UInt64.ofNat leeway ≤ UInt64.ofNat now := by
    rw [UInt64.le_iff_toNat_le, hleeway, hnow]
    exact late
  rw [UInt64.lt_iff_toNat_lt, UInt64.toNat_sub_of_le _ _ hle, hexpires, hnow, hleeway]
  omega

/-! ### Tokens -/

/-- A token that passes all checks but those of its times: its form, its key and signature, the claims of which it gives
these, their issuer and their kind. -/
structure Timeless (v : Verifier) (token : List UInt8) (claims : Claims) : Prop where
  short : token.length ≤ maxTokenSize
  signed : ∃ parts keyId key signature document, Parts.ofToken? token = some parts ∧
    ((decodePart parts.header).bind Json.read?).bind headerKeyId? = some keyId ∧
    v.keys.lookup keyId = some key ∧ decodePart parts.signature = some signature ∧
    key.verifies parts.signed signature = true ∧ decodePart parts.payload = some document ∧
    (Json.read? document).bind Claims.ofJson? = some claims ∧ registeredInOrder v.issuer document = true
  use : claims.use ∈ acceptedUses

theorem Timeless.verify_eq (h : Timeless v token claims) (now : Nat) :
    v.verify now token =
      if claims.expires < 0 ∨ claims.expires < (now : Int) - v.leeway then .error .expired
      else if (now : Int) + v.leeway < claims.issued then .error .issuedInFuture
      else .ok claims := by
  obtain ⟨short, ⟨parts, keyId, key, signature, document, hparts, hkeyId, hkey, hsignature, verified, decoded, read,
    inOrder⟩, use⟩ := h
  rw [Verifier.verify, if_neg (Nat.not_lt_of_le short), hparts]
  dsimp only
  rw [hkeyId]
  dsimp only
  rw [hkey]
  dsimp only
  rw [hsignature]
  dsimp only
  rw [if_pos verified, Verifier.checkClaims, decoded]
  dsimp only
  rw [read]
  dsimp only
  rw [inOrder, Bool.not_true, if_neg Bool.false_ne_true, if_neg (not_not.mpr use)]

theorem Timeless.times (h : Timeless v token claims) : IsInt64 claims.expires ∧ IsInt64 claims.issued := by
  obtain ⟨parts, keyId, key, signature, document, -, -, -, -, -, -, read, -⟩ := h.signed
  obtain ⟨json, -, hclaims⟩ := Option.bind_eq_some_iff.mp read
  exact isInt64_of_ofJson? hclaims

theorem timeless_of_verify {now : Nat} (h : v.verify now token = .ok claims) : Timeless v token claims := by
  obtain ⟨short, parts, keyId, key, signature, hparts, hkeyId, hkey, hsignature, verified, checked⟩ := parts_of_verify h
  obtain ⟨document, decoded, read, inOrder, use, -⟩ := document_of_checkClaims checked
  exact ⟨short, ⟨parts, keyId, key, signature, document, hparts, hkeyId, hkey, hsignature, verified, decoded, read,
    inOrder⟩, use⟩

section Clock

variable {now : Nat}

theorem Timeless.accepted_iff (h : Timeless v token claims) (late : v.leeway < now) :
    v.verify now token = .ok claims ↔
      claims.issued - v.leeway ≤ now ∧ (now : Int) ≤ claims.expires + v.leeway := by
  rw [h.verify_eq]
  split
  · simp only [reduceCtorEq, false_iff]
    omega
  · split
    · simp only [reduceCtorEq, false_iff]
      omega
    · exact iff_of_true rfl (by omega)

theorem Timeless.expired_iff (h : Timeless v token claims) (late : v.leeway < now) :
    v.verify now token = .error .expired ↔ claims.expires + v.leeway < (now : Int) := by
  rw [h.verify_eq]
  split
  · exact iff_of_true rfl (by omega)
  · split
    · simp only [Except.error.injEq, reduceCtorEq, false_iff]
      omega
    · simp only [reduceCtorEq, false_iff]
      omega

theorem Timeless.issuedInFuture_iff (h : Timeless v token claims) (late : v.leeway < now) :
    v.verify now token = .error .issuedInFuture ↔
      (now : Int) ≤ claims.expires + v.leeway ∧ (now : Int) < claims.issued - v.leeway := by
  rw [h.verify_eq]
  split
  · simp only [Except.error.injEq, reduceCtorEq, false_iff]
    omega
  · split
    · exact iff_of_true rfl (by omega)
    · simp only [reduceCtorEq, false_iff]
      omega

end Clock

/-- A token that is timeless is accepted exactly from its time of issue less the leeway to its end and the leeway, both
included, and the words of 64 bits that its times fit into give the same answers. So once it has expired it stays so, and once
its time of issue is reached it is never again issued in the future. -/
theorem validity_window_is_exact {v : Verifier} {token : List UInt8} {claims : Claims} (h : Timeless v token claims) :
    (∀ now : Nat, v.leeway < now →
      (v.verify now token = .ok claims ↔
        claims.issued - v.leeway ≤ now ∧ (now : Int) ≤ claims.expires + v.leeway) ∧
      (v.verify now token = .error .expired ↔ claims.expires + v.leeway < (now : Int)) ∧
      (v.verify now token = .error .issuedInFuture ↔
        (now : Int) ≤ claims.expires + v.leeway ∧ (now : Int) < claims.issued - v.leeway)) ∧
    (0 ≤ claims.expires → ∀ now : Nat, v.leeway < now → now < 2 ^ 63 →
      (UInt64.ofNat claims.expires.toNat < UInt64.ofNat now - UInt64.ofNat v.leeway ↔
        claims.expires + v.leeway < (now : Int)) ∧
      (saturatingSum (Int64.ofInt now) (Int64.ofInt v.leeway) < Int64.ofInt claims.issued ↔
        (now : Int) < claims.issued - v.leeway)) ∧
    ∀ now later : Nat, v.leeway < now → now ≤ later →
      (v.verify now token = .error .expired → v.verify later token = .error .expired) ∧
      (v.verify now token ≠ .error .issuedInFuture → v.verify later token ≠ .error .issuedInFuture) := by
  refine ⟨fun now late => ⟨h.accepted_iff late, h.expired_iff late, h.issuedInFuture_iff late⟩, ?_, ?_⟩
  · intro ends now late clock
    obtain ⟨hexpires, hissued⟩ := h.times
    have hlast := (isInt64_iff.mp hexpires).2
    have hnow : IsInt64 (now : Int) := isInt64_iff.mpr ⟨by omega, by omega⟩
    have hleeway : IsInt64 (v.leeway : Int) := isInt64_iff.mpr ⟨by omega, by omega⟩
    constructor
    · rw [lt_sub_iff (Nat.le_of_lt late) (by omega) (by omega)]
      omega
    · rw [saturatingSum_lt_iff hnow hleeway hissued]
      omega
  · intro now later late order
    have late' : v.leeway < later := Nat.lt_of_lt_of_le late order
    rw [h.expired_iff late, h.expired_iff late', ne_eq, ne_eq, h.issuedInFuture_iff late, h.issuedInFuture_iff late']
    constructor <;> omega

/-- The token lasts for an hour, and for a minute more. -/
theorem adminToken_window :
    ∃ v claims, Verifier.ofKeyMap Sample.primaryKeyMap Sample.primaryIssuer 60 = .ok v ∧
      v.verify (sampleTime + 3660) adminToken = .ok claims ∧
      v.verify (sampleTime + 3661) adminToken = .error .expired ∧
      v.verify (2 ^ 63) adminToken = .error .expired := by
  obtain ⟨v, loaded, told⟩ := adminToken_told
  have leeway : v.leeway = 60 := (ofKeyMap_eq_ok loaded).2.2
  obtain ⟨exact, -, stays⟩ := validity_window_is_exact (timeless_of_verify told)
  have late : v.leeway < sampleTime := by
    rw [leeway]
    decide
  have later := Nat.lt_add_right 3661 late
  have accepted := (exact (sampleTime + 3660) (Nat.lt_add_right 3660 late)).1.mpr
  have expired := (exact (sampleTime + 3661) later).2.1.mpr
  rw [leeway] at accepted expired
  exact ⟨v, _, loaded, accepted (by decide), expired (by decide),
    (stays (sampleTime + 3661) (2 ^ 63) later (by decide)).1 (expired (by decide))⟩

end DirectoryGateway.Token
