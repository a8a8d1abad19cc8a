import DirectoryGateway.Proofs.Json.Canonical
import DirectoryGateway.Proofs.Token.InOrder
import DirectoryGateway.Proofs.Token.Signed

/-!
# Drafts that are signed

A draft is changed step by step and then signed. What the verifier reads in the token is the draft itself, so it can be
told from the steps whether the token is accepted and with which claims.
-/

namespace DirectoryGateway

namespace Sample

/-! ### Steps -/

inductive Step where
  | forUser (username : String)
  | inGroup (group : String)
  | withUse (use : String)
  | withIssuer (issuer : String)
  | withScope (scope : String)
  | issuedAt (time : Int)
  | expiresIn (clock : Nat) (seconds : Int)
  deriving Repr, DecidableEq

namespace Step

def apply : Step → Draft → Draft
  | forUser username, d => d.forUser username
  | inGroup group, d => d.inGroup group
  | withUse use, d => d.withUse use
  | withIssuer issuer, d => d.withIssuer issuer
  | withScope scope, d => d.withScope scope
  | issuedAt time, d => d.issuedAt time
  | expiresIn clock seconds, d => d.expiresIn clock seconds

def username? : Step → Option String
  | forUser username => some username
  | _ => none

def group? : Step → Option String
  | inGroup group => some group
  | _ => none

def use? : Step → Option String
  | withUse use => some use
  | _ => none

def issuer? : Step → Option String
  | withIssuer issuer => some issuer
  | _ => none

def scope? : Step → Option String
  | withScope scope => some scope
  | _ => none

def issued? : Step → Option Int
  | issuedAt time => some time
  | _ => none

def expires? : Step → Option Int
  | expiresIn clock seconds => some (clock + seconds)
  | _ => none

end Step

/-- A time that a clock of 64 bits can show. -/
def Representable (time : Int) : Prop :=
  -(Text.maxInt64 : Int) - 1 ≤ time ∧ time ≤ Text.maxInt64

instance (time : Int) : Decidable (Representable time) :=
  inferInstanceAs (Decidable (_ ∧ _))

/-- What the last step that sets something sets it to. -/
def lastSet {α : Type} (sets : Step → Option α) (start : α) (steps : List Step) : α :=
  (steps.reverse.findSome? sets).getD start

/-- The draft that is begun at a time and changed by steps. -/
def build (begun : Nat) (steps : List Step) : Draft :=
  steps.foldl (fun d step => step.apply d) (.fresh begun)

theorem lastSet_append {α : Type} (sets : Step → Option α) (start : α) (steps : List Step) (s : Step) :
    lastSet sets start (steps ++ [s]) = (sets s).getD (lastSet sets start steps) := by
  rw [lastSet, lastSet, List.reverse_append, List.reverse_singleton, List.singleton_append,
    List.findSome?_cons]
  cases sets s <;> rfl

/-- Each part of a draft is what the last step that sets it set it to; groups come one by one. -/
theorem build_eq (begun : Nat) (steps : List Step) :
    build begun steps =
      { subject := "0b7e4a52-test-subject"
        username := lastSet Step.username? "test-user" steps
        groups := steps.filterMap Step.group?
        use := lastSet Step.use? "access" steps
        issuer := lastSet Step.issuer? primaryIssuer steps
        scope := lastSet Step.scope? "aws.cognito.signin.user.admin" steps
        expires := lastSet Step.expires? (begun + 3600) steps
        issued := lastSet Step.issued? begun steps } := by
  induction steps using List.reverseRecOn with
  | nil => rfl
  | append_singleton steps s ih =>
    rw [build, List.foldl_append, List.foldl_cons, List.foldl_nil, ← build, ih]
    simp only [lastSet_append, List.filterMap_append]
    cases s with
    | inGroup group => rfl
    | _ => simp [Step.apply, Step.group?, Draft.forUser, Draft.withUse, Draft.withIssuer, Draft.withScope,
        Draft.issuedAt, Draft.expiresIn, Step.username?, Step.use?, Step.issuer?, Step.scope?, Step.issued?,
        Step.expires?]

theorem representable_lastSet {sets : Step → Option Int} {start : Int} (begins : Representable start)
    {steps : List Step} (h : ∀ s ∈ steps, ∀ time, sets s = some time → Representable time) :
    Representable (lastSet sets start steps) := by
  rw [lastSet]
  cases found : steps.reverse.findSome? sets with
  | none => exact begins
  | some time =>
    obtain ⟨s, mem, hs⟩ := List.exists_of_findSome?_eq_some found
    exact h s (List.mem_reverse.mp mem) time hs

namespace Draft

/-! ### Claims -/

/-- The claims of a draft in the order in which they are signed. -/
def signedFields (d : Draft) : List (String × Json) :=
  [("client_id", .str "test-client"), ("cognito:groups", .list (d.groups.map .str)), ("exp", .int d.expires),
    ("iat", .int d.issued), ("iss", .str d.issuer), ("scope", .str d.scope), ("sub", .str d.subject),
    ("token_use", .str d.use), ("username", .str d.username)]

/-- What a verifier is told by a draft. -/
def told (d : Draft) : Token.Claims where
  subject := d.subject
  expires := d.expires
  issued := d.issued
  use := d.use
  username := some d.username
  groups := d.groups
  client := some "test-client"
  scope := some d.scope

theorem sorted_signedFields (d : Draft) :
    Json.SortedFields (d.signedFields.map fun f => (Json.encode f.1, f.2)) := by
  have keys : (["client_id", "cognito:groups", "exp", "iat", "iss", "scope", "sub", "token_use", "username"].map
      Json.encode).Pairwise fun a b => Json.keyBefore a b = true := by
    decide +kernel
  exact Json.sortedFields_iff.mpr keys

theorem canonical_claims {d : Draft} (expires : Representable d.expires) (issued : Representable d.issued) :
    d.claims.canonical = .obj d.signedFields := by
  have canonical_time : ∀ {time : Int}, Representable time → (Json.int time).canonical = .int time := by
    rintro time ⟨least, greatest⟩
    refine Json.canonical_int ?_ ?_
    · exact least
    · exact Int.lt_of_le_of_lt greatest (by decide)
  have canonical_groups : (Json.list (d.groups.map .str)).canonical = .list (d.groups.map .str) := by
    refine Json.canonical_list ?_
    simp only [List.forall_mem_map]
    exact fun group _ => Json.canonical_str group
  refine Json.canonical_record (sorted_signedFields d) ?_ ?_
  · intro f
    simp only [signedFields, List.map_cons, List.map_nil, List.mem_cons, List.not_mem_nil, or_false]
    tauto
  · simp only [List.map_cons, List.map_nil, List.forall_mem_cons, List.not_mem_nil, false_implies, implies_true,
      Json.canonicalContent_encode, Json.canonical_str, canonical_time expires, canonical_time issued,
      canonical_groups, and_self]

theorem wellFormed_groups (groups : List String) : (Json.list (groups.map .str)).WellFormed := by
  refine Json.wellFormed_list ?_
  simp only [List.forall_mem_map]
  exact fun group _ => Json.wellFormed_str group

theorem wellFormed_signedFields (d : Draft) : (Json.obj d.signedFields).WellFormed := by
  refine Json.wellFormed_obj ?_
  simp only [signedFields, List.forall_mem_cons, List.not_mem_nil, false_implies, implies_true,
    Json.wellFormed_str, Json.wellFormed_int, wellFormed_groups, and_self]

/-- Each claim of a draft is got over: the scalars as they are, and the groups because they are no registered claim. -/
theorem readsOver_signedFields (issuer : String) (d : Draft) :
    ∀ f ∈ d.signedFields, Token.ReadsOver issuer f.1 f.2 := by
  have groups : Token.ReadsOver issuer "cognito:groups" (.list (d.groups.map .str)) :=
    Token.readsOver_unregistered (by decide) (wellFormed_groups d.groups)
  have text : ∀ name s, Token.ReadsOver issuer name (.str s) := fun name s =>
    Token.readsOver_steady name (Json.steady_str s)
  have time : ∀ name t, Token.ReadsOver issuer name (.int t) := fun name t =>
    Token.readsOver_steady name (Json.steady_int t)
  simp only [signedFields, List.forall_mem_cons, List.not_mem_nil, false_implies, implies_true, groups, text,
    time, and_self]

theorem namesIssuer_str (issuer s : String) : Token.namesIssuer issuer (.str s) = (s == issuer) := by
  rw [Json.str, Token.namesIssuer, Json.decode?_encode]
  rfl

theorem registeredInOrder_signedFields (issuer : String) (d : Draft) :
    Token.registeredInOrder issuer (Json.render (.obj d.signedFields)) = (d.issuer == issuer) := by
  have distinct : (d.signedFields.map Prod.fst).Nodup := by
    show ["client_id", "cognito:groups", "exp", "iat", "iss", "scope", "sub", "token_use", "username"].Nodup
    decide
  rw [Token.registeredInOrder_render (by simp [signedFields]) distinct (readsOver_signedFields issuer d)]
  simp [signedFields, namesIssuer_str]

theorem timeOfJson?_int {time : Int} (h : Representable time) :
    Token.Claims.timeOfJson? (.int time) = some time := by
  rw [Token.Claims.timeOfJson?, Json.int, Json.toInt?, Json.toInt?_int]
  exact if_pos h

theorem ofJson?_signedFields {d : Draft} (expires : Representable d.expires) (issued : Representable d.issued) :
    Token.Claims.ofJson? (.obj d.signedFields) = some d.told := by
  have slots : Json.slots Token.Claims.fields (.obj d.signedFields) =
      some [some (.str d.subject), some (.int d.expires), some (.int d.issued), some (.str d.use),
        some (.str d.username), some (.list (d.groups.map .str)), some (.str "test-client"),
        some (.str d.scope)] := by
    simp [Json.slots, Json.obj, signedFields, Token.Claims.fields, Json.fillSlots, Json.fillSlot]
  have text : ∀ s, Json.optional Json.toText? (some (.str s)) = some (some s) := by
    intro s
    exact congrArg (Option.map some) (Json.toText?_str s)
  have groups : Json.toList? Json.toText? (.list (d.groups.map .str)) = some d.groups :=
    Json.mapM_toText?_str d.groups
  rw [Token.Claims.ofJson?, slots]
  simp only [Json.required, Json.withDefault, Json.toText?_str, timeOfJson?_int expires, timeOfJson?_int issued,
    text, groups]
  rfl

end Draft

end Sample

namespace Token

open Crypto
open Sample (Draft Representable Step build lastSet)

/-! ### Verifying -/

/-- What a verifier asks of a draft whose token it has come to read. Nothing lies before the epoch, so an end before it
has passed, however large the leeway. -/
def Acceptable (v : Verifier) (now : Nat) (d : Draft) : Prop :=
  d.use ∈ acceptedUses ∧ d.issuer = v.issuer ∧ ((now - v.leeway : Nat) : Int) ≤ d.expires ∧
    d.issued ≤ now + v.leeway

/-- A verifier that gets to the claims of a draft takes them exactly if issuer, kind and times are as they should be. -/
theorem checkClaims_draft {d : Draft} (expires : Representable d.expires) (issued : Representable d.issued)
    {v : Verifier} {now : Nat} {claims : Claims} :
    v.checkClaims now (encodePart (Json.render d.claims.canonical)) = .ok claims ↔
      Acceptable v now d ∧ claims = d.told := by
  have read : (Json.read? (Json.render (.obj d.signedFields))).bind Claims.ofJson? = some d.told := by
    rw [Json.read?_render d.wellFormed_signedFields, Option.bind_some, Draft.ofJson?_signedFields expires issued]
  have inOrder : registeredInOrder v.issuer (Json.render (.obj d.signedFields)) = (d.issuer == v.issuer) :=
    Draft.registeredInOrder_signedFields v.issuer d
  rw [Draft.canonical_claims expires issued, Verifier.checkClaims, decodePart_encodePart]
  dsimp only
  rw [read]
  dsimp only [Draft.told]
  rw [inOrder]
  constructor
  · intro h
    -- One check after the other was passed, in the order in which they are made.
    split at h
    · cases h
    · next sameIssuer =>
      split at h
      · cases h
      · next lasting =>
        split at h
        · cases h
        · next use =>
          split at h
          · cases h
          · next past =>
            cases h
            exact ⟨⟨by simpa using use, by simpa using sameIssuer, by omega, by omega⟩, rfl⟩
  · rintro ⟨⟨use, sameIssuer, lasting, past⟩, rfl⟩
    have current : ¬ (d.expires < 0 ∨ d.expires < (now : Int) - v.leeway) := by omega
    have issuedBefore : ¬ (now : Int) + v.leeway < d.issued := by omega
    rw [sameIssuer, beq_self_eq_true, if_neg (by simp), if_neg current, if_neg (not_not.mpr use),
      if_neg issuedBefore]

theorem verify_draft {d : Draft} (expires : Representable d.expires) (issued : Representable d.issued)
    {v : Verifier} {held : LoadedKey} (holds : v.keys.lookup Sample.primaryKeyId = some held)
    (verified : held.verifies (signedMessage Sample.primaryKeyId d.claims)
      (Sample.primaryKey.sign (signedMessage Sample.primaryKeyId d.claims)) = true)
    {now : Nat} {claims : Claims} :
    v.verify now d.sign = .ok claims ↔
      (Acceptable v now d ∧ d.sign.length ≤ maxTokenSize) ∧ claims = d.told := by
  rcases Nat.lt_or_ge maxTokenSize d.sign.length with long | short
  · rw [verify_long long]
    constructor
    · intro h
      cases h
    · rintro ⟨⟨-, short⟩, -⟩
      omega
  · rw [Draft.sign, verify_sign short holds verified, checkClaims_draft expires issued]
    tauto

/-- The published key as it is loaded. -/
def primaryLoadedKey : LoadedKey :=
  ⟨Der.rsaPublicKey (Bytes.minimal Sample.primaryKey.modulus) (Bytes.minimal Sample.publicExponent)⟩

theorem primaryLoadedKey_publicKey :
    primaryLoadedKey.publicKey? = some ⟨Sample.primaryKey.modulus, Sample.publicExponent⟩ := by
  decide +kernel

theorem loadKey_primary :
    loadKey (Base64.standard.encodeText true Sample.primaryDer) = .ok primaryLoadedKey := by
  have evaluated : (loadPem (Pem.ofPublicKey Sample.primaryDer)).toOption = some primaryLoadedKey := by
    decide +kernel
  rw [loadKey_encodeText]
  cases loaded : loadPem (Pem.ofPublicKey Sample.primaryDer) with
  | error fault =>
    rw [loaded] at evaluated
    cases evaluated
  | ok key =>
    rw [loaded] at evaluated
    cases evaluated
    rfl

/-- A verifier that trusts the published key. -/
def primaryVerifier (issuer : String) (leeway : Nat) : Verifier :=
  ⟨[(Sample.primaryKeyId, primaryLoadedKey)], issuer, leeway⟩

theorem ofKeyMap_primary (issuer : String) (leeway : Nat) :
    Verifier.ofKeyMap Sample.primaryKeyMap issuer leeway = .ok (primaryVerifier issuer leeway) := by
  have keys : Verifier.loadKeys Sample.primaryKeyMap = .ok [(Sample.primaryKeyId, primaryLoadedKey)] := by
    rw [Sample.primaryKeyMap, Verifier.loadKeys, loadKey_primary, Verifier.loadKeys]
  rw [Verifier.ofKeyMap, if_neg (by simp [Sample.primaryKeyMap]), keys]
  rfl

theorem lookup_primary (issuer : String) (leeway : Nat) :
    (primaryVerifier issuer leeway).keys.lookup Sample.primaryKeyId = some primaryLoadedKey := by
  simp [primaryVerifier]

/-! ### A sample token -/

/-- A moment of the year 2023, at which the samples are set. -/
def sampleTime : Nat := 1700000000

/-- The claims of a member of the group `admins`. -/
def adminClaims : Json :=
  ((Sample.Draft.fresh sampleTime).inGroup "admins").claims

def adminToken : List UInt8 :=
  sign Sample.primaryKey Sample.primaryKeyId adminClaims

theorem length_adminToken : adminToken.length ≤ maxTokenSize := by
  have message : (signedMessage Sample.primaryKeyId adminClaims).length ≤ 4096 := by decide +kernel
  have width : Bytes.width Sample.primaryKey.modulus = 256 := by decide +kernel
  have length := length_sign Sample.primaryKey Sample.primaryKeyId adminClaims
  rw [width] at length
  show (sign _ _ _).length ≤ 8192
  omega

theorem adminMessage_signed :
    (⟨Sample.primaryKey.modulus, Sample.publicExponent⟩ : Rsa.PublicKey).verifies
      (signedMessage Sample.primaryKeyId adminClaims)
      (Sample.primaryKey.sign (signedMessage Sample.primaryKeyId adminClaims)) = true := by
  have numbers :
      let padded := Bytes.toNat (Rsa.paddedDigest (Bytes.width Sample.primaryKey.modulus)
        (signedMessage Sample.primaryKeyId adminClaims))
      let power := Rsa.powMod padded Sample.primaryKey.exponent Sample.primaryKey.modulus
      0 < power ∧ Rsa.powMod power Sample.publicExponent Sample.primaryKey.modulus = padded := by
    decide +kernel
  exact Rsa.PublicKey.verifies_sign (by decide +kernel) rfl rfl numbers.1 numbers.2

theorem adminToken_told :
    ∃ v, Verifier.ofKeyMap Sample.primaryKeyMap Sample.primaryIssuer 60 = .ok v ∧
      v.verify sampleTime adminToken = .ok ((Draft.fresh sampleTime).inGroup "admins").told := by
  have verified := adminMessage_signed
  rw [← verifies_of_publicKey primaryLoadedKey_publicKey] at verified
  have acceptable : Acceptable (primaryVerifier Sample.primaryIssuer 60) sampleTime
      ((Draft.fresh sampleTime).inGroup "admins") :=
    ⟨by decide, rfl, by decide, by decide⟩
  have taken := (verify_draft (by decide) (by decide) (lookup_primary Sample.primaryIssuer 60) verified).mpr
    ⟨⟨acceptable, length_adminToken⟩, rfl⟩
  exact ⟨_, ofKeyMap_primary _ _, taken⟩

theorem adminToken_accepted :
    ∃ v claims, Verifier.ofKeyMap Sample.primaryKeyMap Sample.primaryIssuer 60 = .ok v ∧
      v.verify sampleTime adminToken = .ok claims ∧ claims.groups = ["admins"] := by
  obtain ⟨v, loaded, told⟩ := adminToken_told
  exact ⟨v, _, loaded, told, rfl⟩

/-! ### Tokens that are built -/

/-- A token that was built step by step and signed is accepted exactly if the last kind set is one of the two, the last
issuer is the one trusted, the clock is between its times and it is not too long; and then its claims are those built.
Times count from the epoch. In its first minute `now - 60` is the epoch itself, since a token never ends before that; later
it is the difference. -/
theorem built_token_round_trips {begun now : Nat} {steps : List Step} (begins : Representable (begun + 3600))
    (times : ∀ s ∈ steps, ∀ time, s.expires? = some time ∨ s.issued? = some time → Representable time)
    (signed : (⟨Sample.primaryKey.modulus, Sample.publicExponent⟩ : Rsa.PublicKey).verifies
      (signedMessage Sample.primaryKeyId (build begun steps).claims)
      (Sample.primaryKey.sign (signedMessage Sample.primaryKeyId (build begun steps).claims)) = true) :
    ∃ v, Verifier.ofKeyMap Sample.primaryKeyMap Sample.primaryIssuer 60 = .ok v ∧
      ∀ claims, v.verify now (build begun steps).sign = .ok claims ↔
        ((lastSet Step.use? "access" steps = "access" ∨ lastSet Step.use? "access" steps = "id") ∧
          lastSet Step.issuer? Sample.primaryIssuer steps = Sample.primaryIssuer ∧
          ((now - 60 : Nat) : Int) ≤ lastSet Step.expires? (begun + 3600) steps ∧
          lastSet Step.issued? begun steps ≤ now + 60 ∧
          (build begun steps).sign.length ≤ 8192) ∧
        claims =
          { subject := "0b7e4a52-test-subject"
            expires := lastSet Step.expires? (begun + 3600) steps
            issued := lastSet Step.issued? begun steps
            use := lastSet Step.use? "access" steps
            username := some (lastSet Step.username? "test-user" steps)
            groups := steps.filterMap Step.group?
            client := some "test-client"
            scope := some (lastSet Step.scope? "aws.cognito.signin.user.admin" steps) } := by
  rw [← verifies_of_publicKey primaryLoadedKey_publicKey] at signed
  -- A draft is begun an hour before its first end, so this time can be shown too.
  have begins' : Representable begun := by
    obtain ⟨least, greatest⟩ := begins
    exact ⟨by omega, by omega⟩
  have expires : Representable (build begun steps).expires := by
    rw [Sample.build_eq]
    exact Sample.representable_lastSet begins fun s hs time h => times s hs time (Or.inl h)
  have issued : Representable (build begun steps).issued := by
    rw [Sample.build_eq]
    exact Sample.representable_lastSet begins' fun s hs time h => times s hs time (Or.inr h)
  refine ⟨_, ofKeyMap_primary _ _, ?_⟩
  intro claims
  rw [verify_draft expires issued (lookup_primary _ _) signed]
  rw [Sample.build_eq]
  simp only [Acceptable, primaryVerifier, acceptedUses, maxTokenSize, Draft.told, List.mem_cons, List.not_mem_nil,
    or_false, and_assoc, Int.cast_ofNat_Int]

/-- Steps that set some things twice, and come to the draft of the sample token. -/
def adminSteps : List Step :=
  [.withUse "refresh", .withIssuer "nobody", .inGroup "admins", .expiresIn sampleTime (-1),
    .withIssuer Sample.primaryIssuer, .withUse "access", .expiresIn sampleTime 3600]

theorem adminSteps_round_trip :
    ∃ v claims, Verifier.ofKeyMap Sample.primaryKeyMap Sample.primaryIssuer 60 = .ok v ∧
      v.verify sampleTime (build sampleTime adminSteps).sign = .ok claims ∧ claims.use = "access" ∧
      claims.expires = sampleTime + 3600 ∧ claims.groups = ["admins"] := by
  have times : ∀ s ∈ adminSteps, ∀ time, s.expires? = some time ∨ s.issued? = some time → Representable time := by
    have ends : Representable (sampleTime + -1) ∧ Representable (sampleTime + 3600) := by decide
    simpa [adminSteps, Step.expires?, Step.issued?] using ends
  -- The message is that of the sample token, whose signature has been checked already.
  have same : build sampleTime adminSteps = (Draft.fresh sampleTime).inGroup "admins" := by decide
  have signed := adminMessage_signed
  have short := length_adminToken
  rw [adminToken, adminClaims, ← same] at short
  rw [adminClaims, ← same] at signed
  obtain ⟨v, loaded, taken⟩ := @built_token_round_trips sampleTime sampleTime adminSteps (by decide) times signed
  have accepted := (taken _).mpr ⟨⟨Or.inl rfl, rfl, by decide, by decide, short⟩, rfl⟩
  exact ⟨v, _, loaded, accepted, rfl, rfl, rfl⟩

end Token

end DirectoryGateway
