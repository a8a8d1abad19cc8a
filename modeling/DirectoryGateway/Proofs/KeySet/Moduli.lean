import DirectoryGateway.Proofs.Der.Distinct
import DirectoryGateway.Proofs.KeySet.Resolving

/-!
# Resolved keys stand for moduli

Of a usable key nothing but the number of its modulus goes into the resolved key: not how this is spelled, nor which spelling
the exponent has, nor the id. Different numbers are resolved differently, since neither DER nor base64 confuses them.
-/

namespace DirectoryGateway.KeySet

variable {k k' : Jwk} {der der' : List UInt8}

/-- The modulus is given and can be decoded, to bytes of this number. -/
def Jwk.Denotes (k : Jwk) (n : Nat) : Prop :=
  ∃ modulus, k.Spells modulus ∧ Bytes.toNat modulus = n

theorem Jwk.Denotes.unique {n n' : Nat} (h : k.Denotes n) (h' : k.Denotes n') : n = n' := by
  obtain ⟨modulus, spells, rfl⟩ := h
  obtain ⟨modulus', spells', rfl⟩ := h'
  rw [spells.unique spells']

theorem Jwk.denotes_of_encoded {text : String} {bytes : List UInt8} {zeros pads : Nat} (given : k.modulus = some text)
    (written : Bytes.ofText text =
      Base64.urlSafe.encode false (List.replicate zeros 0 ++ bytes) ++ List.replicate pads Base64.pad)
    (few : pads ≤ Base64.fill (zeros + bytes.length)) : k.Denotes (Bytes.toNat bytes) := by
  refine ⟨List.replicate zeros 0 ++ bytes, ⟨text, given, pads, ?_, written⟩, Bytes.toNat_replicate_append zeros bytes⟩
  rw [List.length_append, List.length_replicate]
  exact few

theorem nonzero_iff {modulus : List UInt8} : (∃ b ∈ modulus, b ≠ 0) ↔ Bytes.toNat modulus ≠ 0 := by
  rw [ne_eq, Bytes.toNat_eq_zero_iff]
  simp only [not_forall, exists_prop, ne_eq]

/-- A key resolves by its number, and to a key of this number. -/
theorem Jwk.resolve_eq_ok_iff_denotes :
    k.resolve = .ok der ↔ k.keyType = "RSA" ∧ k.HasExponent ∧
      ∃ n ≠ 0, k.Denotes n ∧ der = Der.subjectPublicKeyInfo (Bytes.minimal n) (Bytes.minimal 65537) := by
  have shortest : ∀ modulus, Der.subjectPublicKeyInfo (Bytes.minimal (Bytes.toNat modulus)) (Bytes.minimal 65537) =
      Der.subjectPublicKeyInfo modulus (Bytes.minimal 65537) := by
    intro modulus
    rw [Der.subjectPublicKeyInfo_eq_iff, Bytes.toNat_minimal]
  rw [Jwk.resolve_eq_ok_iff]
  constructor
  · rintro ⟨modulus, usable, rfl⟩
    exact ⟨usable.keyType, usable.exponent, _, nonzero_iff.mp usable.nonzero, ⟨modulus, usable.spells, rfl⟩,
      (shortest modulus).symm⟩
  · rintro ⟨keyType, exponent, n, nonzero, ⟨modulus, spells, rfl⟩, rfl⟩
    exact ⟨modulus, ⟨keyType, spells, nonzero_iff.mpr nonzero, exponent⟩, shortest modulus⟩

theorem encodeText_resolved_eq_iff (h : k.resolve = .ok der) (h' : k'.resolve = .ok der') :
    Base64.standard.encodeText true der = Base64.standard.encodeText true der' ↔ ∃ n, k.Denotes n ∧ k'.Denotes n := by
  obtain ⟨-, -, n, -, denotes, rfl⟩ := Jwk.resolve_eq_ok_iff_denotes.mp h
  obtain ⟨-, -, n', -, denotes', rfl⟩ := Jwk.resolve_eq_ok_iff_denotes.mp h'
  rw [Base64.encodeText_inj Base64.standard_lawful (by decide), Der.subjectPublicKeyInfo_eq_iff, Bytes.toNat_minimal,
    Bytes.toNat_minimal]
  constructor
  · rintro rfl
    exact ⟨n, denotes, denotes'⟩
  · rintro ⟨m, hm, hm'⟩
    rw [denotes.unique hm, denotes'.unique hm']

/-- Two resolved keys are the same text exactly if the moduli denote the same number. A key that denotes this number, however
it spells it and its exponent, and whatever its id and its purpose, resolves to the same key; and neither padding nor leading
zeros change the number. -/
theorem resolved_keys_identify_moduli :
    (∀ (k k' : Jwk) (der der' : List UInt8), k.resolve = .ok der → k'.resolve = .ok der' →
      (Base64.standard.encodeText true der = Base64.standard.encodeText true der' ↔
        ∃ n, k.Denotes n ∧ k'.Denotes n)) ∧
    (∀ (k k' : Jwk) (der : List UInt8) (n : Nat), k.resolve = .ok der → k.Denotes n →
      k'.keyType = "RSA" → k'.Denotes n → k'.HasExponent → k'.resolve = .ok der) ∧
    ∀ (k : Jwk) (text : String) (bytes : List UInt8) (zeros pads : Nat), k.modulus = some text →
      Bytes.ofText text =
        Base64.urlSafe.encode false (List.replicate zeros 0 ++ bytes) ++ List.replicate pads Base64.pad →
      pads ≤ Base64.fill (zeros + bytes.length) → k.Denotes (Bytes.toNat bytes) := by
  refine ⟨fun _ _ _ _ => encodeText_resolved_eq_iff, ?_, fun _ _ _ _ _ => Jwk.denotes_of_encoded⟩
  intro k k' der n h denotes keyType denotes' exponent
  obtain ⟨-, -, m, nonzero, own, rfl⟩ := Jwk.resolve_eq_ok_iff_denotes.mp h
  rw [own.unique denotes] at nonzero ⊢
  exact Jwk.resolve_eq_ok_iff_denotes.mpr ⟨keyType, exponent, n, nonzero, denotes', rfl⟩

/-- The modulus 255 after a zero byte, with padding and the longer spelling of the exponent. -/
def paddedKey : Jwk where
  keyType := "RSA"
  keyId := "b"
  modulus := some "AP8="
  exponent := some "AAEAAQ=="
  algorithm := some "RS256"
  use := some "sig"

theorem paddedKey_is_shortKey :
    ∃ der der', (shortKey "a" "AQAB").resolve = .ok der ∧ paddedKey.resolve = .ok der ∧
      { paddedKey with modulus := some "AQA" }.resolve = .ok der' ∧
      Base64.standard.encodeText true der ≠ Base64.standard.encodeText true der' := by
  obtain ⟨identifies, same, encoded⟩ := resolved_keys_identify_moduli
  have short : (shortKey "a" "AQAB").Denotes 255 := encoded _ "_w" [255] 0 0 rfl (by decide +kernel) (by decide)
  have padded : paddedKey.Denotes 255 := encoded _ "AP8=" [255] 1 1 rfl (by decide +kernel) (by decide)
  have next : { paddedKey with modulus := some "AQA" }.Denotes 256 :=
    encoded _ "AQA" [1, 0] 0 0 rfl (by decide +kernel) (by decide)
  have exponent : WrittenExponent "AAEAAQ==" := ⟨"AAEAAQ", 2, Or.inr rfl, rfl⟩
  have hshort := Jwk.resolve_eq_ok_iff_denotes.mpr
    ⟨rfl, ⟨"AQAB", rfl, "AQAB", 0, Or.inl rfl, rfl⟩, 255, by decide, short, rfl⟩
  have hnext := Jwk.resolve_eq_ok_iff_denotes.mpr ⟨rfl, ⟨_, rfl, exponent⟩, 256, by decide, next, rfl⟩
  refine ⟨_, _, hshort, same _ _ _ 255 hshort short rfl padded ⟨_, rfl, exponent⟩, hnext, ?_⟩
  intro alike
  obtain ⟨n, hn, hn'⟩ := (identifies _ _ _ _ hshort hnext).mp alike
  have confused := (short.unique hn).trans (hn'.unique next)
  contradiction

end DirectoryGateway.KeySet
