import DirectoryGateway.Proofs.Der.Items
import DirectoryGateway.Proofs.Encoding.Pem
import DirectoryGateway.Proofs.KeySet.Resolving
import DirectoryGateway.Proofs.Token.Signed
import DirectoryGateway.Token.Verifier

/-!
# Resolved keys can be loaded

What a published key is resolved to comes back from the text of its PEM as the same number. A
verifier loads a map entry by entry, so it holds one key for each that was published.
-/

namespace DirectoryGateway.KeySet

open Token

/-! ### One key -/

/-- The bytes that the text of a key's modulus stands for. -/
def Jwk.HasModulus (k : Jwk) (modulus : List UInt8) : Prop :=
  ∃ text, k.modulus = some text ∧
    Base64.urlSafe.decode .indifferent (Bytes.ofText text) = .ok modulus

theorem Jwk.Usable.hasModulus {k : Jwk} {modulus : List UInt8} (h : k.Usable modulus) :
    k.HasModulus modulus := by
  obtain ⟨text, htext, spells⟩ := h.spells
  exact ⟨text, htext, Base64.decode_of_spells Base64.urlSafe_lawful spells⟩

theorem loadKey_subjectPublicKeyInfo {modulus exponent : List UInt8} (fits : Der.Fits modulus exponent) :
    loadKey (Base64.standard.encodeText true (Der.subjectPublicKeyInfo modulus exponent)) =
      .ok ⟨Der.rsaPublicKey modulus exponent⟩ := by
  rw [loadKey_encodeText, loadPem, Pem.toPublicKey?_ofPublicKey, Option.bind_some,
    Der.items_subjectPublicKeyInfo fits]
  rfl

theorem publicKey?_rsaPublicKey {modulus exponent : List UInt8} (fits : Der.Fits modulus exponent) :
    (LoadedKey.mk (Der.rsaPublicKey modulus exponent)).publicKey? =
      some ⟨Bytes.toNat modulus, Bytes.toNat exponent⟩ := by
  rw [LoadedKey.publicKey?, Der.readRsaPublicKey_rsaPublicKey fits]
  rfl

/-- The text of a modulus is held in memory, where no text reaches 2^63 bytes. -/
def Jwk.InMemory (k : Jwk) : Prop :=
  ∀ text, k.modulus = some text → (Bytes.ofText text).length < 2 ^ 63

theorem Jwk.HasModulus.fits {k : Jwk} {modulus : List UInt8} (h : k.HasModulus modulus)
    (inMemory : k.InMemory) : Der.Fits modulus (Bytes.minimal 65537) := by
  obtain ⟨text, htext, hdecode⟩ := h
  have hmodulus := Base64.length_decode_le hdecode
  have hsize := inMemory text htext
  have hexponent : (Bytes.minimal 65537).length = 3 := by decide
  have hwritten := Der.length_subjectPublicKeyInfo_le modulus (Bytes.minimal 65537) (by omega)
  exact Der.fits_of_length (by omega)

/-! ### Verifiers -/

/-- The public key that a published key stands for: the number of its modulus, with the exponent 65537. -/
def Jwk.LoadedAs (k : Jwk) (key : LoadedKey) : Prop :=
  ∃ modulus, k.HasModulus modulus ∧ key.publicKey? = some ⟨Bytes.toNat modulus, 65537⟩

def Jwk.HeldAs (k : Jwk) (held : String × LoadedKey) : Prop :=
  held.1 = k.keyId ∧ k.LoadedAs held.2

theorem Jwk.ResolvesTo.loads {k : Jwk} {entry : String × String} (h : k.ResolvesTo entry)
    (inMemory : k.InMemory) : ∃ key, loadKey entry.2 = .ok key ∧ k.HeldAs (entry.1, key) := by
  obtain ⟨der, hder, rfl⟩ := h
  obtain ⟨modulus, usable, rfl⟩ := Jwk.resolve_eq_ok_iff.mp hder
  have hfits := usable.hasModulus.fits inMemory
  have hpublic := publicKey?_rsaPublicKey hfits
  rw [Bytes.toNat_minimal] at hpublic
  exact ⟨_, loadKey_subjectPublicKeyInfo hfits, rfl, modulus, usable.hasModulus, hpublic⟩

theorem loadKeys_of_resolvesTo {ks : List Jwk} {keys : KeyMap} (h : List.Forall₂ Jwk.ResolvesTo ks keys)
    (inMemory : ∀ k ∈ ks, k.InMemory) :
    ∃ loaded, Verifier.loadKeys keys = .ok loaded ∧ List.Forall₂ Jwk.HeldAs ks loaded := by
  induction h with
  | nil => exact ⟨[], rfl, .nil⟩
  | @cons k entry ks keys hk _ ih =>
    obtain ⟨key, hkey, hheld⟩ := hk.loads (inMemory k List.mem_cons_self)
    obtain ⟨loaded, hloaded, hrest⟩ := ih fun k' hk' => inMemory k' (List.mem_cons_of_mem _ hk')
    refine ⟨(entry.1, key) :: loaded, ?_, .cons hheld hrest⟩
    rw [Verifier.loadKeys, hkey, hloaded]

theorem loadKeys_error {keys : KeyMap} {fault : LoadFault} (h : Verifier.loadKeys keys = .error fault) :
    ∃ keyId reason, fault = .invalidKey keyId reason ∧
      ∃ text, (keyId, text) ∈ keys ∧ loadKey text = .error reason := by
  fun_induction Verifier.loadKeys keys with
  | case1 => cases h
  | case2 keyId text rest reason hreason =>
    cases h
    exact ⟨keyId, reason, rfl, text, List.mem_cons_self, hreason⟩
  | case3 keyId text rest key hkey reason hrest ih =>
    obtain ⟨keyId', reason', hfault, text', hmem, htext⟩ := ih (by rw [hrest]; exact h)
    exact ⟨keyId', reason', hfault, text', List.mem_cons_of_mem _ hmem, htext⟩
  | case4 => cases h

theorem loadKeys_of_unloadable {keys : KeyMap} {entry : String × String} {reason : KeyFault}
    (hmem : entry ∈ keys) (h : loadKey entry.2 = .error reason) :
    ∃ fault, Verifier.loadKeys keys = .error fault := by
  fun_induction Verifier.loadKeys keys with
  | case1 => cases hmem
  | case2 => exact ⟨_, rfl⟩
  | case3 => exact ⟨_, rfl⟩
  | case4 keyId text rest key hkey loaded hrest ih =>
    rcases List.mem_cons.mp hmem with rfl | hlater
    · rw [hkey] at h
      cases h
    · obtain ⟨fault, hfault⟩ := ih hlater
      rw [hrest] at hfault
      cases hfault

theorem ofKeyMap_of_ne_nil {keys : KeyMap} (nonempty : keys ≠ []) (issuer : String) (leeway : Nat) :
    Verifier.ofKeyMap keys issuer leeway =
      (Verifier.loadKeys keys).map fun loaded => ⟨loaded, issuer, leeway⟩ := by
  rw [Verifier.ofKeyMap, if_neg (by simpa using nonempty)]

theorem ofKeyMap_error_iff {keys : KeyMap} {issuer : String} {leeway : Nat} {fault : LoadFault} :
    Verifier.ofKeyMap keys issuer leeway = .error fault ↔
      (keys = [] ∧ fault = .emptyKeySet) ∨ Verifier.loadKeys keys = .error fault := by
  by_cases hempty : keys = []
  · subst hempty
    constructor
    · intro h
      cases h
      exact Or.inl ⟨rfl, rfl⟩
    · rintro (⟨-, rfl⟩ | h)
      · rfl
      · cases h
  · rw [ofKeyMap_of_ne_nil hempty]
    cases Verifier.loadKeys keys with
    | error reason => simp [Except.map, hempty]
    | ok loaded => simp [Except.map, hempty]

/-- A verifier takes every set that resolves to at least one key, and holds each of its keys under its id. Of the maps in
general it refuses the empty one, and those with an entry that cannot be loaded, of which it names one. -/
theorem resolved_keys_load (issuer : String) (leeway : Nat) :
    (∀ (s : JwkSet) (keys : KeyMap), (∀ k ∈ s.keys, k.InMemory) → s.keys ≠ [] → s.resolve = .ok keys →
      ∃ v, Verifier.ofKeyMap keys issuer leeway = .ok v ∧ v.keyCount = s.keys.length ∧
        ∀ k ∈ s.keys, ∃ key, v.keys.lookup k.keyId = some key ∧ k.LoadedAs key) ∧
    ∀ keys : KeyMap,
      (Verifier.ofKeyMap keys issuer leeway = .error .emptyKeySet ↔ keys = []) ∧
      ((∃ keyId reason, Verifier.ofKeyMap keys issuer leeway = .error (.invalidKey keyId reason)) ↔
        ∃ entry ∈ keys, ∃ reason, loadKey entry.2 = .error reason) ∧
      ∀ keyId reason, Verifier.ofKeyMap keys issuer leeway = .error (.invalidKey keyId reason) →
        ∃ text, (keyId, text) ∈ keys ∧ loadKey text = .error reason := by
  have named : ∀ keys : KeyMap, ∀ keyId reason,
      Verifier.ofKeyMap keys issuer leeway = .error (.invalidKey keyId reason) →
        ∃ text, (keyId, text) ∈ keys ∧ loadKey text = .error reason := by
    intro keys keyId reason h
    rcases ofKeyMap_error_iff.mp h with ⟨-, hfault⟩ | hload
    · cases hfault
    · obtain ⟨keyId', reason', hfault, text, hmem, htext⟩ := loadKeys_error hload
      cases hfault
      exact ⟨text, hmem, htext⟩
  refine ⟨?_, fun keys => ⟨⟨?_, ?_⟩, ⟨?_, ?_⟩, named keys⟩⟩
  · intro s keys inMemory nonempty hresolve
    obtain ⟨hdistinct, hkeys⟩ := JwkSet.resolve_ok hresolve
    obtain ⟨loaded, hloaded, hheld⟩ := loadKeys_of_resolvesTo hkeys inMemory
    have hne : keys ≠ [] := by
      rintro rfl
      exact nonempty (List.forall₂_nil_right_iff.mp hkeys)
    refine ⟨⟨loaded, issuer, leeway⟩, ?_, hheld.length_eq.symm, ?_⟩
    · rw [ofKeyMap_of_ne_nil hne, hloaded]
      rfl
    · intro k hk
      obtain ⟨key, hlookup, held⟩ := lookup_of_forall₂ hheld (fun _ _ held => held.1) hdistinct k hk
      exact ⟨key, hlookup, held.2⟩
  · intro h
    rcases ofKeyMap_error_iff.mp h with ⟨hempty, -⟩ | hload
    · exact hempty
    · obtain ⟨keyId, reason, hfault, -⟩ := loadKeys_error hload
      cases hfault
  · rintro rfl
    rfl
  · rintro ⟨keyId, reason, h⟩
    obtain ⟨text, hmem, htext⟩ := named keys keyId reason h
    exact ⟨(keyId, text), hmem, reason, htext⟩
  · rintro ⟨entry, hmem, reason, h⟩
    obtain ⟨fault, hload⟩ := loadKeys_of_unloadable hmem h
    obtain ⟨keyId, reason', rfl, -⟩ := loadKeys_error hload
    exact ⟨keyId, reason', ofKeyMap_error_iff.mpr (Or.inr hload)⟩

/-- The modulus 255, and 65537 with its exponent in the longer spelling. -/
def smallKeys : JwkSet where
  keys := [
    { keyType := "RSA", keyId := "a", modulus := some "_w==", exponent := some "AQAB",
      algorithm := none, use := none },
    { keyType := "RSA", keyId := "b", modulus := some "AAEAAQ", exponent := some "AAEAAQ==",
      algorithm := some "RS256", use := some "sig" }]

theorem smallKeys_load :
    (∃ keys v, smallKeys.resolve = .ok keys ∧ Verifier.ofKeyMap keys "issuer" 60 = .ok v ∧
      v.keyCount = 2 ∧ ∃ key, v.keys.lookup "a" = some key ∧ key.publicKey? = some ⟨255, 65537⟩) ∧
    ∃ reason, Verifier.ofKeyMap [("a", "?")] "issuer" 60 = .error (.invalidKey "a" reason) ∧
      loadKey "?" = .error reason := by
  obtain ⟨resolved, general⟩ := resolved_keys_load "issuer" 60
  constructor
  · have inMemory : ∀ k ∈ smallKeys.keys, k.InMemory := by
      simp only [smallKeys, List.forall_mem_cons, Jwk.InMemory, Option.some.injEq, forall_eq']
      exact ⟨by decide +kernel, by decide +kernel, by simp⟩
    have hsome : smallKeys.resolve.toOption.isSome = true := by decide +kernel
    cases hresolve : smallKeys.resolve with
    | error fault =>
      rw [hresolve] at hsome
      cases hsome
    | ok keys =>
      obtain ⟨v, hv, hcount, hkeys⟩ := resolved smallKeys keys inMemory (by decide) hresolve
      obtain ⟨key, hkey, modulus, ⟨text, htext, hdecode⟩, hpublic⟩ := hkeys _ List.mem_cons_self
      have h255 : Base64.urlSafe.decode .indifferent (Bytes.ofText "_w==") = .ok [255] := by
        decide +kernel
      cases htext
      rw [h255] at hdecode
      cases hdecode
      exact ⟨keys, v, rfl, hv, hcount, key, hkey, hpublic⟩
  · have unloadable : loadKey "?" = .error (.undecodable (.symbol 63 0)) := by
      decide +kernel
    obtain ⟨keyId, reason', h⟩ := (general [("a", "?")]).2.1.mpr
      ⟨("a", "?"), List.mem_cons_self, _, unloadable⟩
    obtain ⟨text, hmem, htext⟩ := (general [("a", "?")]).2.2 keyId reason' h
    rw [List.mem_singleton] at hmem
    cases hmem
    exact ⟨reason', h, htext⟩

end DirectoryGateway.KeySet
