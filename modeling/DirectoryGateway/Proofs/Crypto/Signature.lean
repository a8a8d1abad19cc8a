import DirectoryGateway.Crypto.Rsa
import DirectoryGateway.Proofs.Encoding.Numbers

/-!
# What a verified signature is

The arithmetic of a signature check: the number that a signature writes, raised to the public exponent, leaves the padded
digest of the message behind.
-/

namespace DirectoryGateway.Crypto.Rsa

/-! ### Signatures -/

theorem powMod_eq (base exponent modulus : Nat) :
    powMod base exponent modulus = base ^ exponent % modulus := by
  induction exponent using Nat.strongRecOn with
  | ind exponent ih =>
    rw [powMod]
    split
    · next hzero => rw [hzero, Nat.pow_zero]
    · next hne =>
      have hhalf := ih (exponent / 2) (by omega)
      have hsquare : base ^ (exponent / 2) % modulus * (base ^ (exponent / 2) % modulus) % modulus =
          base ^ (exponent / 2 + exponent / 2) % modulus := by
        rw [← Nat.mul_mod, ← Nat.pow_add]
      rw [hhalf]
      dsimp only
      rw [hsquare]
      split
      · next odd =>
        have hexponent : exponent / 2 + exponent / 2 + 1 = exponent := by omega
        rw [Nat.mod_mul_mod, ← Nat.pow_succ, Nat.succ_eq_add_one, hexponent]
      · next even =>
        have hexponent : exponent / 2 + exponent / 2 = exponent := by omega
        rw [hexponent]

theorem length_digest (message : List UInt8) : (Sha256.digest message).length = 32 := rfl

theorem length_paddedDigest {size : Nat} (h : 54 ≤ size) (message : List UInt8) :
    (paddedDigest size message).length = size := by
  have htail : (digestHead ++ Sha256.digest message).length = 51 := by
    rw [List.length_append, length_digest]
    rfl
  unfold paddedDigest
  dsimp only
  simp only [List.length_append, List.length_replicate, List.length_cons, List.length_nil] at htail ⊢
  omega

/-- A signature over a message in the sense of RS256. -/
structure PublicKey.IsSignature (k : PublicKey) (message signature : List UInt8) : Prop where
  length : signature.length = k.size
  positive : 0 < Bytes.toNat signature
  reduced : Bytes.toNat signature < k.modulus
  power : Bytes.toNat signature ^ k.exponent % k.modulus = Bytes.toNat (paddedDigest k.size message)

theorem PublicKey.verifies_iff (k : PublicKey) (message signature : List UInt8) :
    k.verifies message signature = true ↔
      k.admissible = true ∧ k.IsSignature message signature := by
  unfold PublicKey.verifies
  simp only [Bool.and_eq_true, decide_eq_true_eq, beq_iff_eq, powMod_eq]
  constructor
  · rintro ⟨⟨⟨⟨admissible, length⟩, positive⟩, reduced⟩, padded⟩
    -- The check compares bytes as wide as the modulus, which loses nothing of a number below it.
    refine ⟨admissible, length, positive, reduced, ?_⟩
    have hlt : Bytes.toNat signature ^ k.exponent % k.modulus < 256 ^ k.size :=
      Nat.lt_trans (Nat.mod_lt _ (by omega)) (Bytes.lt_of_width k.modulus)
    rw [← padded, Bytes.toNat_ofNat, Nat.mod_eq_of_lt hlt]
  · rintro ⟨admissible, signed⟩
    refine ⟨⟨⟨⟨admissible, signed.length⟩, signed.positive⟩, signed.reduced⟩, ?_⟩
    have hsize : 54 ≤ k.size := by
      simp only [PublicKey.admissible, Bool.and_eq_true, decide_eq_true_eq] at admissible
      omega
    rw [signed.power, Bytes.ofNat_toNat (length_paddedDigest hsize message)]

/-- A signature verifies under any public exponent that undoes the private one on the padded digest. -/
theorem PublicKey.verifies_sign {k : PrivateKey} {exponent : Nat} {message : List UInt8}
    (admissible : (⟨k.modulus, exponent⟩ : PublicKey).admissible = true)
    {padded power : Nat} (hpadded : Bytes.toNat (paddedDigest (Bytes.width k.modulus) message) = padded)
    (hpower : powMod padded k.exponent k.modulus = power) (positive : 0 < power)
    (inverse : powMod power exponent k.modulus = padded) :
    (⟨k.modulus, exponent⟩ : PublicKey).verifies message (k.sign message) = true := by
  have hmodulus : 0 < k.modulus := by
    simp only [PublicKey.admissible, Bool.and_eq_true, beq_iff_eq] at admissible
    omega
  have reduced : power < k.modulus := by
    rw [← hpower, powMod_eq]
    exact Nat.mod_lt _ hmodulus
  have fits : power < 256 ^ Bytes.width k.modulus := Nat.lt_trans reduced (Bytes.lt_of_width _)
  have signed : k.sign message = Bytes.ofNat (Bytes.width k.modulus) power := by
    rw [PrivateKey.sign, hpadded, hpower]
  have value : Bytes.toNat (k.sign message) = power := by
    rw [signed, Bytes.toNat_ofNat, Nat.mod_eq_of_lt fits]
  refine (PublicKey.verifies_iff _ message _).mpr ⟨admissible, ?_, ?_, ?_, ?_⟩
  · rw [signed, Bytes.length_ofNat, PublicKey.size]
  · rwa [value]
  · rwa [value]
  · rw [value, ← powMod_eq, inverse, PublicKey.size, hpadded]

end DirectoryGateway.Crypto.Rsa
