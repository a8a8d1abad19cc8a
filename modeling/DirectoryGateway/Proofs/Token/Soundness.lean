import DirectoryGateway.Proofs.Json.Slots
import DirectoryGateway.Proofs.Token.Drafts
import DirectoryGateway.Proofs.Token.Registered

/-!
# What an accepted token is

Acceptance is taken apart check by check: the parts of the token, the key that its header names, the signature over the
first two parts, and the claims with their issuer, kind and times.
-/

namespace DirectoryGateway.Token

open DirectoryGateway.Crypto (Rsa.PublicKey)

/-! ### Headers -/

/-- A header part for RS256 that names a key. -/
def NamesKey (part : List UInt8) (keyId : String) : Prop :=
  ∃ document v algorithm name, decodePart part = some document ∧ Json.read? document = some v ∧
    Json.Gives headerFields "alg" v algorithm ∧ enumeration? algorithm = some "RS256" ∧
    Json.Gives headerFields "kid" v name ∧ name.toText? = some keyId

theorem enumeration_of_isOneOf {name : String} {v : Json} (h : isOneOf [name] v = true) :
    enumeration? v = some name := by
  unfold isOneOf at h
  split at h
  · next given hgiven =>
    rw [hgiven, List.mem_singleton.mp (List.contains_iff_mem.mp h)]
  · cases h

theorem namesKey_of_headerKeyId? {part document : List UInt8} {v : Json} {keyId : String}
    (decoded : decodePart part = some document) (read : Json.read? document = some v)
    (h : headerKeyId? v = some keyId) : NamesKey part keyId := by
  unfold headerKeyId? at h
  split at h
  · next typ alg cty jku jwk kid x5u x5c x5t x5t256 hslots =>
    split at h
    · next passed =>
      simp only [Bool.and_eq_true] at passed
      have hasAlg : has (isOneOf ["RS256"]) alg = true := passed.1.1.1.1.1.1.1.2
      cases alg with
      | none => cases hasAlg
      | some algorithm =>
        cases kid with
        | none => cases h
        | some name =>
          have hname : (name.toText?.map some).bind id = some keyId := by
            cases name with
            | null => cases h
            | _ => exact h
          have text : name.toText? = some keyId := by
            cases htext : name.toText? with
            | none =>
              rw [htext] at hname
              cases hname
            | some given =>
              rw [htext] at hname
              exact hname
          exact ⟨document, v, algorithm, name, decoded, read,
            Json.gives_of_slots (i := 1) hslots rfl rfl, enumeration_of_isOneOf hasAlg,
            Json.gives_of_slots (i := 5) hslots rfl rfl, text⟩
    · cases h
  · cases h

/-! ### Keys and signatures -/

/-- A signature part over a message that verifies under the key that is stored for a key id. -/
def SignedUnder (keys : KeySet.KeyMap) (keyId : String) (message part : List UInt8) : Prop :=
  ∃ text key publicKey signature, keys.lookup keyId = some text ∧ loadKey text = .ok key ∧
    key.publicKey? = some publicKey ∧ decodePart part = some signature ∧
    publicKey.IsSignature message signature

theorem lookup_of_loadKeys {keys : KeySet.KeyMap} {loaded : List (String × LoadedKey)}
    (h : Verifier.loadKeys keys = .ok loaded) {keyId : String} {key : LoadedKey}
    (hkey : loaded.lookup keyId = some key) :
    ∃ text, keys.lookup keyId = some text ∧ loadKey text = .ok key := by
  induction keys generalizing loaded with
  | nil =>
    cases h
    cases hkey
  | cons entry keys ih =>
    obtain ⟨keyId', text⟩ := entry
    rw [Verifier.loadKeys] at h
    split at h
    · cases h
    · next key' loadedKey =>
      split at h
      · cases h
      · next rest loadedRest =>
        cases h
        rw [List.lookup_cons] at hkey ⊢
        split at hkey
        · cases hkey
          exact ⟨text, rfl, loadedKey⟩
        · exact ih loadedRest hkey

theorem ofKeyMap_eq_ok {keys : KeySet.KeyMap} {issuer : String} {leeway : Nat} {v : Verifier}
    (h : Verifier.ofKeyMap keys issuer leeway = .ok v) :
    Verifier.loadKeys keys = .ok v.keys ∧ v.issuer = issuer ∧ v.leeway = leeway := by
  unfold Verifier.ofKeyMap at h
  split at h
  · cases h
  · cases hload : Verifier.loadKeys keys with
    | error fault =>
      rw [hload] at h
      cases h
    | ok loaded =>
      rw [hload] at h
      cases h
      exact ⟨rfl, rfl, rfl⟩

theorem isSignature_of_verifies {key : LoadedKey} {message signature : List UInt8}
    (h : key.verifies message signature = true) :
    ∃ publicKey, key.publicKey? = some publicKey ∧ publicKey.IsSignature message signature := by
  unfold LoadedKey.verifies at h
  split at h
  · next publicKey hkey =>
    exact ⟨publicKey, hkey, ((publicKey.verifies_iff message signature).mp h).2⟩
  · cases h

/-! ### Claims -/

/-- A value that is the issuer, or a list of texts with the issuer in it. -/
def MentionsIssuer (issuer : String) (v : Json) : Prop :=
  v.toText? = some issuer ∨ ∃ items names, v = .list items ∧ items.mapM Json.toText? = some names ∧
    issuer ∈ names

theorem mentionsIssuer_of_namesIssuer {issuer : String} {v : Json} (h : namesIssuer issuer v = true) :
    MentionsIssuer issuer v := by
  unfold namesIssuer at h
  split at h
  · exact Or.inl (beq_iff_eq.mp h)
  · next items =>
    split at h
    · next names hnames => exact Or.inr ⟨items, names, rfl, hnames, List.contains_iff_mem.mp h⟩
    · cases h
  · cases h

/-- A payload part whose claims are these, with the issuer and the subject that its document gives. -/
def Carries (part : List UInt8) (issuer : String) (claims : Claims) : Prop :=
  ∃ document fields, decodePart part = some document ∧
    Json.read? document = some (.record fields) ∧ Claims.ofJson? (.record fields) = some claims ∧
    (∃ entry ∈ fields, Json.decode? entry.1 = some "iss") ∧
    (∀ entry ∈ fields, Json.decode? entry.1 = some "iss" → MentionsIssuer issuer entry.2) ∧
    ∃ entry ∈ fields, Json.decode? entry.1 = some "sub" ∧ entry.2.toText? = some claims.subject

theorem subject_of_ofJson? {fields : List (List UInt8 × Json)} {claims : Claims}
    (h : Claims.ofJson? (.record fields) = some claims) :
    ∃ entry ∈ fields, Json.decode? entry.1 = some "sub" ∧ entry.2.toText? = some claims.subject := by
  unfold Claims.ofJson? at h
  split at h
  · next sub exp iat use username groups client scope hslots =>
    cases sub with
    | none => cases h
    | some subject =>
      have text : subject.toText? = some claims.subject := by
        simp only [Json.required, Option.bind_eq_bind, Option.bind_eq_some_iff, Option.pure_def,
          Option.some.injEq] at h
        obtain ⟨name, hname, -, -, -, -, -, -, -, -, -, -, -, -, -, -, rfl⟩ := h
        exact hname
      rcases Json.gives_of_slots (i := 0) hslots rfl rfl with
        ⟨given, key, heq, hmem, hkey⟩ | ⟨items, -, -, heq, -⟩
      · cases heq
        exact ⟨(key, subject), hmem, hkey, text⟩
      · cases heq
  · cases h

theorem document_of_checkClaims {v : Verifier} {now : Nat} {payload : List UInt8} {claims : Claims}
    (h : v.checkClaims now payload = .ok claims) :
    ∃ document, decodePart payload = some document ∧ (Json.read? document).bind Claims.ofJson? = some claims ∧
      registeredInOrder v.issuer document = true ∧ claims.use ∈ acceptedUses ∧
      (now : Int) - v.leeway ≤ claims.expires ∧ claims.issued ≤ now + v.leeway := by
  unfold Verifier.checkClaims at h
  split at h
  · cases h
  · next document decoded =>
    split at h
    · cases h
    · next claims' read =>
      split at h
      · cases h
      · next inOrder =>
        split at h
        · cases h
        · next lasting =>
          split at h
          · cases h
          · next use =>
            split at h
            · cases h
            · next past =>
              cases h
              exact ⟨document, decoded, read, by simpa using inOrder, by simpa using use, by omega, by omega⟩

theorem checkClaims_eq_ok {v : Verifier} {now : Nat} {payload : List UInt8} {claims : Claims}
    (h : v.checkClaims now payload = .ok claims) :
    Carries payload v.issuer claims ∧ claims.use ∈ acceptedUses ∧
      (now : Int) - v.leeway ≤ claims.expires ∧ claims.issued ≤ now + v.leeway := by
  obtain ⟨document, decoded, hread, inOrder, use, lasting, past⟩ := document_of_checkClaims h
  obtain ⟨json, read, hclaims⟩ := Option.bind_eq_some_iff.mp hread
  obtain ⟨fields, rfl, issued⟩ := issued_of_registeredInOrder read inOrder
  have issuer : ∃ entry ∈ fields, Json.decode? entry.1 = some "iss" := by
    rcases issued.present with named | ⟨entry, hmem, isIss, -⟩
    · cases named
    · exact ⟨entry, hmem, isIss⟩
  refine ⟨⟨document, fields, decoded, read, hclaims, issuer, ?_, subject_of_ofJson? hclaims⟩, use, lasting, past⟩
  intro entry hmem isIss
  exact mentionsIssuer_of_namesIssuer (issued.every rfl entry hmem isIss)

/-! ### Tokens -/

theorem parts_of_verify {v : Verifier} {now : Nat} {token : List UInt8} {claims : Claims}
    (h : v.verify now token = .ok claims) :
    token.length ≤ maxTokenSize ∧ ∃ parts keyId key signature, Parts.ofToken? token = some parts ∧
      ((decodePart parts.header).bind Json.read?).bind headerKeyId? = some keyId ∧ v.keys.lookup keyId = some key ∧
      decodePart parts.signature = some signature ∧ key.verifies parts.signed signature = true ∧
      v.checkClaims now parts.payload = .ok claims := by
  unfold Verifier.verify at h
  split at h
  · cases h
  · next short =>
    refine ⟨Nat.le_of_not_lt short, ?_⟩
    split at h
    · cases h
    · next parts hparts =>
      split at h
      · cases h
      · next keyId hkeyId =>
        split at h
        · cases h
        · next key hkey =>
          split at h
          · cases h
          · next signature hsignature =>
            split at h
            · next verified => exact ⟨parts, keyId, key, signature, hparts, hkeyId, hkey, hsignature, verified, h⟩
            · cases h

theorem verify_eq_ok {v : Verifier} {now : Nat} {token : List UInt8} {claims : Claims}
    (h : v.verify now token = .ok claims) :
    token.length ≤ maxTokenSize ∧ ∃ parts keyId key signature, Parts.ofToken? token = some parts ∧
      NamesKey parts.header keyId ∧ v.keys.lookup keyId = some key ∧
      decodePart parts.signature = some signature ∧ key.verifies parts.signed signature = true ∧
      v.checkClaims now parts.payload = .ok claims := by
  obtain ⟨short, parts, keyId, key, signature, hparts, hkeyId, hkey, hsignature, verified, checked⟩ :=
    parts_of_verify h
  obtain ⟨json, hjson, hheader⟩ := Option.bind_eq_some_iff.mp hkeyId
  obtain ⟨document, decoded, read⟩ := Option.bind_eq_some_iff.mp hjson
  exact ⟨short, parts, keyId, key, signature, hparts, namesKey_of_headerKeyId? decoded read hheader, hkey, hsignature,
    verified, checked⟩

/-- A token is accepted only if it is short and in three parts, names RS256 and a loaded key, is signed under this key over
its first two parts as they stand, and carries the claims that are returned, from the issuer, of a known kind, and within
the leeway of its times. -/
theorem accepted_token_is_sound {keys : KeySet.KeyMap} {issuer : String} {leeway : Nat} {v : Verifier}
    (loaded : Verifier.ofKeyMap keys issuer leeway = .ok v) {now : Nat} {token : List UInt8}
    {claims : Claims} (accepted : v.verify now token = .ok claims) :
    token.length ≤ 8192 ∧
      ∃ header payload signature keyId,
        token = header ++ point :: (payload ++ point :: signature) ∧
        (point ∉ header ∧ point ∉ payload ∧ point ∉ signature) ∧
        NamesKey header keyId ∧
        SignedUnder keys keyId (header ++ point :: payload) signature ∧
        Carries payload issuer claims ∧
        (claims.use = "access" ∨ claims.use = "id") ∧
        (now : Int) - leeway ≤ claims.expires ∧ claims.issued ≤ now + leeway := by
  obtain ⟨loadedKeys, rfl, rfl⟩ := ofKeyMap_eq_ok loaded
  obtain ⟨short, parts, keyId, key, signature, hparts, names, hkey, hsignature, verified, checked⟩ :=
    verify_eq_ok accepted
  obtain ⟨split, apart⟩ := ofToken?_eq_some_iff.mp hparts
  obtain ⟨text, stored, hload⟩ := lookup_of_loadKeys loadedKeys hkey
  obtain ⟨publicKey, hpublic, signed⟩ := isSignature_of_verifies verified
  obtain ⟨carries, use, lasting, past⟩ := checkClaims_eq_ok checked
  exact ⟨short, parts.header, parts.payload, parts.signature, keyId, split, apart, names,
    ⟨text, key, publicKey, signature, stored, hload, hpublic, hsignature, signed⟩, carries,
    by simpa [acceptedUses] using use, lasting, past⟩

theorem adminToken_is_sound :
    ∃ v claims, Verifier.ofKeyMap Sample.primaryKeyMap Sample.primaryIssuer 60 = .ok v ∧
      v.verify sampleTime adminToken = .ok claims ∧ (sampleTime : Int) ≤ claims.expires + 60 ∧
      claims.issued ≤ sampleTime + 60 ∧
      ∃ header payload signature keyId,
        adminToken = header ++ point :: (payload ++ point :: signature) ∧
        SignedUnder Sample.primaryKeyMap keyId (header ++ point :: payload) signature := by
  obtain ⟨v, claims, loaded, accepted, -⟩ := adminToken_accepted
  obtain ⟨-, header, payload, signature, keyId, parts, -, -, signed, -, -, lasting, past⟩ :=
    accepted_token_is_sound loaded accepted
  exact ⟨v, claims, loaded, accepted, by omega, by omega,
    header, payload, signature, keyId, parts, signed⟩

end DirectoryGateway.Token
