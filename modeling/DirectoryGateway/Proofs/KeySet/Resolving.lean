import DirectoryGateway.KeySet.Resolve
import DirectoryGateway.Proofs.Encoding.Base64
import DirectoryGateway.Proofs.Text.Splitting
import Mathlib.Data.List.Forall2
import Mathlib.Data.List.Nodup

/-!
# Which key sets resolve

A key resolves exactly if it is usable; if not, the first of its faults in a fixed order is reported. A set resolves exactly if
every key is usable and no id is repeated, and its fault is that of the first key that spoils it.
-/

namespace DirectoryGateway.KeySet

/-! ### Exponents -/

/-- One of the two spellings of 65537, with any amount of padding behind it. -/
def WrittenExponent (text : String) : Prop :=
  ∃ spelling pads, (spelling = "AQAB" ∨ spelling = "AAEAAQ") ∧
    text.toList = spelling.toList ++ List.replicate pads '='

theorem withoutPadding_eq_iff {text core : String} :
    withoutPadding text = core ↔
      core.toList.getLast? ≠ some '=' ∧ ∃ pads, text.toList = core.toList ++ List.replicate pads '=' := by
  have hcut : withoutPadding text = core ↔ (text.toList.reverse.dropWhile (· == '=')).reverse = core.toList := by
    rw [withoutPadding, ← String.toList_inj, String.toList_ofList]
  rw [hcut, Text.reverse_dropWhile_eq_iff]
  apply and_congr
  · cases core.toList.getLast? <;> simp
  · constructor
    · rintro ⟨gone, htext, hgone⟩
      have hpads : gone = List.replicate gone.length '=' :=
        List.eq_replicate_iff.mpr ⟨rfl, fun c hc => beq_iff_eq.mp (hgone c hc)⟩
      exact ⟨gone.length, by rw [htext, ← hpads]⟩
    · rintro ⟨pads, htext⟩
      exact ⟨_, htext, fun c hc => beq_iff_eq.mpr (List.eq_of_mem_replicate hc)⟩

theorem withoutPadding_accepted_iff {text : String} :
    withoutPadding text ∈ acceptedExponents ↔ WrittenExponent text := by
  simp only [acceptedExponents, List.mem_cons, List.not_mem_nil, or_false]
  constructor
  · intro h
    obtain ⟨-, pads, htext⟩ := withoutPadding_eq_iff.mp (Eq.refl (withoutPadding text))
    exact ⟨withoutPadding text, pads, h, htext⟩
  · rintro ⟨spelling, pads, h, htext⟩
    have hlast : spelling.toList.getLast? ≠ some '=' := by
      rcases h with rfl | rfl <;> decide
    rw [withoutPadding_eq_iff.mpr ⟨hlast, pads, htext⟩]
    exact h

/-! ### One key -/

/-- The modulus is given, and its text stands for these bytes: without padding, with all of it or with some. -/
def Jwk.Spells (k : Jwk) (modulus : List UInt8) : Prop :=
  ∃ text, k.modulus = some text ∧ Base64.urlSafe.Spells .indifferent (Bytes.ofText text) modulus

def Jwk.HasExponent (k : Jwk) : Prop :=
  ∃ text, k.exponent = some text ∧ WrittenExponent text

structure Jwk.Usable (k : Jwk) (modulus : List UInt8) : Prop where
  keyType : k.keyType = "RSA"
  spells : k.Spells modulus
  nonzero : ∃ b ∈ modulus, b ≠ 0
  exponent : k.HasExponent

/-- What is wrong with a key: each fault stands for the first check that fails, after those before it. -/
inductive Jwk.HasFault (k : Jwk) : ResolveFault → Prop
  | keyType (other : k.keyType ≠ "RSA") : k.HasFault (.keyType k.keyId k.keyType)
  | missing (keyType : k.keyType = "RSA") (missing : k.modulus = none) :
    k.HasFault (.modulus k.keyId .missing)
  | undecodable {text : String} {fault : Base64.Fault} (keyType : k.keyType = "RSA")
      (given : k.modulus = some text) (unspelled : ∀ bytes, ¬ k.Spells bytes)
      (named : Base64.urlSafe.decode .indifferent (Bytes.ofText text) = .error fault) :
    k.HasFault (.modulus k.keyId (.undecodable fault))
  | zero {modulus : List UInt8} (keyType : k.keyType = "RSA") (spells : k.Spells modulus)
      (zero : ∀ b ∈ modulus, b = 0) : k.HasFault (.modulus k.keyId .zero)
  | exponent {modulus : List UInt8} (keyType : k.keyType = "RSA") (spells : k.Spells modulus)
      (nonzero : ∃ b ∈ modulus, b ≠ 0) (other : ¬ k.HasExponent) :
    k.HasFault (.exponent k.keyId (k.exponent.getD ""))

variable {k : Jwk} {ks : List Jwk}

theorem Jwk.Spells.unique {modulus modulus' : List UInt8} (h : k.Spells modulus) (h' : k.Spells modulus') :
    modulus = modulus' := by
  obtain ⟨text, htext, spells⟩ := h
  obtain ⟨text', htext', spells'⟩ := h'
  rw [htext] at htext'
  obtain rfl := Option.some.inj htext'
  have hdecode := Base64.decode_of_spells Base64.urlSafe_lawful spells
  rw [Base64.decode_of_spells Base64.urlSafe_lawful spells'] at hdecode
  exact (Except.ok.inj hdecode).symm

theorem readModulus_of_spells {modulus : List UInt8} (h : k.Spells modulus) :
    readModulus k.modulus = if modulus.all (· == 0) then .error .zero else .ok modulus := by
  obtain ⟨text, htext, spells⟩ := h
  rw [htext, readModulus, Base64.decode_of_spells Base64.urlSafe_lawful spells]

theorem all_zero_iff {bytes : List UInt8} : bytes.all (· == 0) = true ↔ ∀ b ∈ bytes, b = 0 := by
  simp only [List.all_eq_true, beq_iff_eq]

theorem not_all_zero_iff {bytes : List UInt8} : ¬ bytes.all (· == 0) = true ↔ ∃ b ∈ bytes, b ≠ 0 := by
  rw [all_zero_iff]
  simp only [not_forall, exists_prop]

theorem accepted_iff_hasExponent :
    withoutPadding (k.exponent.getD "") ∈ acceptedExponents ↔ k.HasExponent := by
  unfold Jwk.HasExponent
  cases k.exponent with
  | none => simpa using (by decide : withoutPadding "" ∉ acceptedExponents)
  | some text => simp only [Option.getD_some, withoutPadding_accepted_iff, Option.some.injEq, exists_eq_left']

theorem Jwk.resolve_of_usable {modulus : List UInt8} (h : k.Usable modulus) :
    k.resolve = .ok (Der.subjectPublicKeyInfo modulus (Bytes.minimal 65537)) := by
  have hexponent : exponentBytes = Bytes.minimal 65537 := by decide
  rw [Jwk.resolve, if_neg (not_not.mpr h.keyType), readModulus_of_spells h.spells,
    if_neg (not_all_zero_iff.mpr h.nonzero)]
  dsimp only
  rw [if_pos (accepted_iff_hasExponent.mpr h.exponent), hexponent]

theorem Jwk.resolve_of_hasFault {fault : ResolveFault} (h : k.HasFault fault) : k.resolve = .error fault := by
  rw [Jwk.resolve]
  cases h with
  | keyType other => rw [if_pos other]
  | missing keyType missing =>
    rw [if_neg (not_not.mpr keyType), missing]
    rfl
  | undecodable keyType given unspelled named =>
    rw [if_neg (not_not.mpr keyType), given, readModulus, named]
  | zero keyType spells zero =>
    rw [if_neg (not_not.mpr keyType), readModulus_of_spells spells, if_pos (all_zero_iff.mpr zero)]
  | exponent keyType spells nonzero other =>
    rw [if_neg (not_not.mpr keyType), readModulus_of_spells spells, if_neg (not_all_zero_iff.mpr nonzero)]
    dsimp only
    rw [if_neg (mt accepted_iff_hasExponent.mp other)]

theorem Jwk.usable_or_hasFault (k : Jwk) : (∃ modulus, k.Usable modulus) ∨ ∃ fault, k.HasFault fault := by
  by_cases keyType : k.keyType = "RSA"
  · cases given : k.modulus with
    | none => exact Or.inr ⟨_, .missing keyType given⟩
    | some text =>
      cases named : Base64.urlSafe.decode .indifferent (Bytes.ofText text) with
      | error fault =>
        refine Or.inr ⟨_, .undecodable keyType given ?_ named⟩
        rintro bytes ⟨text', given', spells⟩
        rw [given] at given'
        obtain rfl := Option.some.inj given'
        rw [Base64.decode_of_spells Base64.urlSafe_lawful spells] at named
        cases named
      | ok modulus =>
        have spells : k.Spells modulus := ⟨text, given, Base64.spells_of_decode named⟩
        by_cases zero : modulus.all (· == 0) = true
        · exact Or.inr ⟨_, .zero keyType spells (all_zero_iff.mp zero)⟩
        · have nonzero := not_all_zero_iff.mp zero
          by_cases exponent : k.HasExponent
          · exact Or.inl ⟨modulus, keyType, spells, nonzero, exponent⟩
          · exact Or.inr ⟨_, .exponent keyType spells nonzero exponent⟩
  · exact Or.inr ⟨_, .keyType keyType⟩

theorem Jwk.resolve_eq_ok_iff {der : List UInt8} :
    k.resolve = .ok der ↔
      ∃ modulus, k.Usable modulus ∧ der = Der.subjectPublicKeyInfo modulus (Bytes.minimal 65537) := by
  constructor
  · intro h
    rcases k.usable_or_hasFault with ⟨modulus, usable⟩ | ⟨fault, hasFault⟩
    · rw [Jwk.resolve_of_usable usable] at h
      exact ⟨modulus, usable, (Except.ok.inj h).symm⟩
    · rw [Jwk.resolve_of_hasFault hasFault] at h
      cases h
  · rintro ⟨modulus, usable, rfl⟩
    exact Jwk.resolve_of_usable usable

/-! ### Sets -/

/-- What a usable key adds to the map: its id, with its public key in base64. -/
def Jwk.ResolvesTo (k : Jwk) (entry : String × String) : Prop :=
  ∃ der, k.resolve = .ok der ∧ entry = (k.keyId, Base64.standard.encodeText true der)

/-- A key that spoils a set in which some ids are taken. -/
inductive Jwk.Spoils (taken : List String) (k : Jwk) : ResolveFault → Prop
  | unusable {fault : ResolveFault} (hasFault : k.HasFault fault) : k.Spoils taken fault
  | repeated {modulus : List UInt8} (usable : k.Usable modulus) (again : k.keyId ∈ taken) :
    k.Spoils taken (.duplicate k.keyId)

/-- Keys of which none spoils the set. -/
structure Clean (taken : List String) (ks : List Jwk) : Prop where
  usable : ∀ k ∈ ks, ∃ modulus, k.Usable modulus
  distinct : (taken ++ ks.map Jwk.keyId).Nodup

theorem clean_cons_iff {taken : List String} :
    Clean taken (k :: ks) ↔
      (∃ modulus, k.Usable modulus) ∧ k.keyId ∉ taken ∧ Clean (taken ++ [k.keyId]) ks := by
  have hids : taken ++ (k :: ks).map Jwk.keyId = taken ++ [k.keyId] ++ ks.map Jwk.keyId := by
    rw [List.map_cons, List.append_assoc, List.singleton_append]
  constructor
  · rintro ⟨usable, distinct⟩
    rw [hids] at distinct
    have hfirst := (List.nodup_append.mp distinct).1
    have fresh : k.keyId ∉ taken := by
      rw [List.nodup_append] at hfirst
      intro hmem
      exact hfirst.2.2 k.keyId hmem k.keyId List.mem_cons_self rfl
    exact ⟨usable k List.mem_cons_self, fresh, fun k' hk' => usable k' (List.mem_cons_of_mem _ hk'), distinct⟩
  · rintro ⟨first, -, usable, distinct⟩
    exact ⟨List.forall_mem_cons.mpr ⟨first, usable⟩, by rwa [hids]⟩

theorem lookup_isSome_iff {keys : KeyMap} {id : String} :
    (keys.lookup id).isSome = true ↔ id ∈ keys.map Prod.fst := by
  rw [← not_iff_not, Bool.not_eq_true, Option.isSome_eq_false_iff, Option.isNone_iff_eq_none,
    List.lookup_eq_none_iff]
  simp only [bne_iff_ne, List.mem_map, not_exists, not_and]
  exact ⟨fun h entry hmem hid => h entry hmem hid.symm, fun h entry hmem hid => h entry hmem hid.symm⟩

theorem resolveInto_cons {resolved : KeyMap} {modulus : List UInt8} (usable : k.Usable modulus)
    (fresh : k.keyId ∉ resolved.map Prod.fst) (ks : List Jwk) :
    ∃ entry, k.ResolvesTo entry ∧ entry.1 = k.keyId ∧
      resolveInto resolved (k :: ks) = resolveInto (resolved ++ [entry]) ks := by
  have hder := Jwk.resolve_of_usable usable
  refine ⟨_, ⟨_, hder, rfl⟩, rfl, ?_⟩
  rw [resolveInto, hder]
  dsimp only
  rw [if_neg (mt lookup_isSome_iff.mp fresh)]

theorem resolveInto_of_clean (resolved : KeyMap) (h : Clean (resolved.map Prod.fst) ks) :
    ∃ more, resolveInto resolved ks = .ok (resolved ++ more) ∧ List.Forall₂ Jwk.ResolvesTo ks more := by
  induction ks generalizing resolved with
  | nil => exact ⟨[], by rw [List.append_nil]; rfl, .nil⟩
  | cons k ks ih =>
    obtain ⟨⟨modulus, usable⟩, fresh, clean⟩ := clean_cons_iff.mp h
    obtain ⟨entry, hentry, hid, hstep⟩ := resolveInto_cons usable fresh ks
    have hids : (resolved ++ [entry]).map Prod.fst = resolved.map Prod.fst ++ [k.keyId] := by
      rw [List.map_append, List.map_singleton, hid]
    rw [← hids] at clean
    obtain ⟨more, hmore, hall⟩ := ih _ clean
    refine ⟨entry :: more, ?_, .cons hentry hall⟩
    rw [hstep, hmore, List.append_assoc, List.singleton_append]

theorem resolveInto_of_spoils (resolved : KeyMap) (after : List Jwk) {before : List Jwk} {fault : ResolveFault}
    (clean : Clean (resolved.map Prod.fst) before)
    (spoils : k.Spoils (resolved.map Prod.fst ++ before.map Jwk.keyId) fault) :
    resolveInto resolved (before ++ k :: after) = .error fault := by
  induction before generalizing resolved with
  | nil =>
    rw [List.map_nil, List.append_nil] at spoils
    rw [List.nil_append, resolveInto]
    cases spoils with
    | unusable hasFault => rw [Jwk.resolve_of_hasFault hasFault]
    | repeated usable again =>
      rw [Jwk.resolve_of_usable usable]
      dsimp only
      rw [if_pos (lookup_isSome_iff.mpr again)]
  | cons first before ih =>
    obtain ⟨⟨modulus, usable⟩, fresh, clean⟩ := clean_cons_iff.mp clean
    obtain ⟨entry, -, hid, hstep⟩ := resolveInto_cons usable fresh (before ++ k :: after)
    have hids : (resolved ++ [entry]).map Prod.fst = resolved.map Prod.fst ++ [first.keyId] := by
      rw [List.map_append, List.map_singleton, hid]
    rw [List.cons_append, hstep]
    apply ih
    · rwa [hids]
    · rwa [hids, List.append_assoc, List.singleton_append]

theorem clean_or_spoiled {taken : List String} (ks : List Jwk) (distinct : taken.Nodup) :
    Clean taken ks ∨ ∃ before k after fault, ks = before ++ k :: after ∧ Clean taken before ∧
      k.Spoils (taken ++ before.map Jwk.keyId) fault := by
  have none : Clean taken [] := ⟨by simp, by simpa using distinct⟩
  induction ks generalizing taken with
  | nil => exact Or.inl none
  | cons k ks ih =>
    rcases k.usable_or_hasFault with ⟨modulus, usable⟩ | ⟨fault, hasFault⟩
    · by_cases again : k.keyId ∈ taken
      · exact Or.inr ⟨[], k, ks, _, rfl, none, .repeated usable (by simpa using again)⟩
      · have hdistinct : (taken ++ [k.keyId]).Nodup := by
          rw [← List.concat_eq_append]
          exact distinct.concat again
        rcases ih hdistinct ⟨by simp, by simpa using hdistinct⟩ with
          clean | ⟨before, k', after, fault, rfl, clean, spoils⟩
        · exact Or.inl (clean_cons_iff.mpr ⟨⟨modulus, usable⟩, again, clean⟩)
        · refine Or.inr ⟨k :: before, k', after, fault, rfl, ?_, ?_⟩
          · exact clean_cons_iff.mpr ⟨⟨modulus, usable⟩, again, clean⟩
          · rwa [List.map_cons, ← List.singleton_append, ← List.append_assoc]
    · exact Or.inr ⟨[], k, ks, fault, rfl, none, .unusable hasFault⟩

theorem JwkSet.resolve_of_clean {s : JwkSet} (h : Clean [] s.keys) :
    ∃ keys, s.resolve = .ok keys ∧ List.Forall₂ Jwk.ResolvesTo s.keys keys := by
  obtain ⟨keys, hkeys, hall⟩ := resolveInto_of_clean [] h
  exact ⟨keys, hkeys, hall⟩

theorem JwkSet.resolve_eq_error_iff {s : JwkSet} {fault : ResolveFault} :
    s.resolve = .error fault ↔ ∃ before k after, s.keys = before ++ k :: after ∧ Clean [] before ∧
      k.Spoils (before.map Jwk.keyId) fault := by
  constructor
  · intro h
    rcases clean_or_spoiled s.keys List.nodup_nil with clean | ⟨before, k, after, fault', hkeys, clean, spoils⟩
    · obtain ⟨keys, hresolve, -⟩ := JwkSet.resolve_of_clean clean
      rw [hresolve] at h
      cases h
    · have hresolve := resolveInto_of_spoils [] after clean spoils
      rw [JwkSet.resolve, hkeys, hresolve] at h
      cases h
      exact ⟨before, k, after, hkeys, clean, spoils⟩
  · rintro ⟨before, k, after, hkeys, clean, spoils⟩
    rw [JwkSet.resolve, hkeys]
    exact resolveInto_of_spoils [] after clean spoils

theorem JwkSet.clean_of_resolve {s : JwkSet} {keys : KeyMap} (h : s.resolve = .ok keys) : Clean [] s.keys := by
  rcases clean_or_spoiled s.keys List.nodup_nil with clean | ⟨before, k, after, fault, hkeys, clean, spoils⟩
  · exact clean
  · rw [JwkSet.resolve_eq_error_iff.mpr ⟨before, k, after, hkeys, clean, spoils⟩] at h
    cases h

/-! ### Maps -/

section Maps

variable {α : Type} {R : Jwk → String × α → Prop} {entries : List (String × α)}

theorem ids_of_forall₂ (h : List.Forall₂ R ks entries) (named : ∀ k entry, R k entry → entry.1 = k.keyId) :
    entries.map Prod.fst = ks.map Jwk.keyId := by
  induction h with
  | nil => rfl
  | cons hk _ ih => rw [List.map_cons, List.map_cons, named _ _ hk, ih]

theorem lookup_of_forall₂ (h : List.Forall₂ R ks entries) (named : ∀ k entry, R k entry → entry.1 = k.keyId)
    (distinct : (ks.map Jwk.keyId).Nodup) :
    ∀ k ∈ ks, ∃ value, entries.lookup k.keyId = some value ∧ R k (k.keyId, value) := by
  induction h with
  | nil =>
    intro k hk
    cases hk
  | @cons first entry ks entries hfirst hrest ih =>
    obtain ⟨id, value⟩ := entry
    obtain rfl : id = first.keyId := named _ _ hfirst
    rw [List.map_cons, List.nodup_cons] at distinct
    intro k hk
    rcases List.mem_cons.mp hk with rfl | hlater
    · exact ⟨value, List.lookup_cons_self, hfirst⟩
    · -- The first entry's id is not among the later ones, so it does not stand in their way.
      obtain ⟨value', hvalue, hR⟩ := ih distinct.2 k hlater
      have hne : k.keyId ≠ first.keyId := by
        intro hsame
        exact distinct.1 (hsame ▸ List.mem_map_of_mem hlater)
      refine ⟨value', ?_, hR⟩
      rw [List.lookup_cons, beq_false_of_ne hne]
      exact hvalue

end Maps

theorem Jwk.ResolvesTo.named (k : Jwk) (entry : String × String) (h : k.ResolvesTo entry) :
    entry.1 = k.keyId := by
  obtain ⟨der, -, rfl⟩ := h
  rfl

theorem JwkSet.resolve_ok {s : JwkSet} {keys : KeyMap} (h : s.resolve = .ok keys) :
    (s.keys.map Jwk.keyId).Nodup ∧ List.Forall₂ Jwk.ResolvesTo s.keys keys := by
  have clean := JwkSet.clean_of_resolve h
  obtain ⟨keys', hresolve, hall⟩ := JwkSet.resolve_of_clean clean
  rw [h] at hresolve
  cases hresolve
  exact ⟨clean.distinct, hall⟩

/-- A set resolves exactly if every key is usable and no id is repeated. Then each id, and no other, is mapped to the public
key of its own key: its modulus with 65537. If not, there is no map, and the fault is that of the first key to spoil the
set. -/
theorem sets_resolve_exactly (s : JwkSet) :
    ((∃ keys, s.resolve = .ok keys) ↔
      (∀ k ∈ s.keys, ∃ modulus, k.Usable modulus) ∧ (s.keys.map Jwk.keyId).Nodup) ∧
    (∀ keys, s.resolve = .ok keys →
      keys.length = s.keys.length ∧ (keys.map Prod.fst).Nodup ∧
      (∀ id, (∃ text, keys.lookup id = some text) ↔ ∃ k ∈ s.keys, k.keyId = id) ∧
      ∀ k ∈ s.keys, ∃ modulus, k.Usable modulus ∧
        keys.lookup k.keyId = some (Base64.standard.encodeText true
          (Der.subjectPublicKeyInfo modulus (Bytes.minimal 65537)))) ∧
    ∀ fault, s.resolve = .error fault ↔
      ∃ before k after, s.keys = before ++ k :: after ∧
        ((∀ earlier ∈ before, ∃ modulus, earlier.Usable modulus) ∧ (before.map Jwk.keyId).Nodup) ∧
        k.Spoils (before.map Jwk.keyId) fault := by
  refine ⟨⟨?_, ?_⟩, ?_, ?_⟩
  · rintro ⟨keys, h⟩
    have clean := JwkSet.clean_of_resolve h
    exact ⟨clean.usable, clean.distinct⟩
  · rintro ⟨usable, distinct⟩
    obtain ⟨keys, hresolve, -⟩ := JwkSet.resolve_of_clean ⟨usable, distinct⟩
    exact ⟨keys, hresolve⟩
  · intro keys h
    obtain ⟨distinct, hall⟩ := JwkSet.resolve_ok h
    have hids := ids_of_forall₂ hall Jwk.ResolvesTo.named
    refine ⟨hall.length_eq.symm, by rwa [hids], ?_, ?_⟩
    · intro id
      rw [← Option.isSome_iff_exists, lookup_isSome_iff, hids, List.mem_map]
    · intro k hk
      obtain ⟨text, hlookup, der, hder, hentry⟩ := lookup_of_forall₂ hall Jwk.ResolvesTo.named distinct k hk
      obtain ⟨modulus, usable, rfl⟩ := Jwk.resolve_eq_ok_iff.mp hder
      obtain ⟨-, rfl⟩ := Prod.mk.inj hentry
      exact ⟨modulus, usable, hlookup⟩
  · intro fault
    rw [JwkSet.resolve_eq_error_iff]
    constructor
    · rintro ⟨before, k, after, hkeys, clean, spoils⟩
      exact ⟨before, k, after, hkeys, ⟨clean.usable, clean.distinct⟩, spoils⟩
    · rintro ⟨before, k, after, hkeys, ⟨usable, distinct⟩, spoils⟩
      exact ⟨before, k, after, hkeys, ⟨usable, distinct⟩, spoils⟩

/-- The modulus 255, without padding. -/
def shortKey (keyId exponent : String) : Jwk where
  keyType := "RSA"
  keyId := keyId
  modulus := some "_w"
  exponent := some exponent
  algorithm := none
  use := none

/-- Two usable keys resolve. Once the first is there again, this is the fault, whatever the type of the key behind it. -/
theorem shortKeys_resolve :
    (∃ keys, (JwkSet.mk [shortKey "a" "AQAB", shortKey "b" "AAEAAQ="]).resolve = .ok keys ∧ keys.length = 2 ∧
      keys.lookup "b" = some (Base64.standard.encodeText true
        (Der.subjectPublicKeyInfo [255] (Bytes.minimal 65537)))) ∧
    (JwkSet.mk [shortKey "a" "AQAB", shortKey "a" "AQAB", { shortKey "b" "AQAB" with keyType := "EC" }]).resolve =
      .error (.duplicate "a") := by
  have usable : ∀ keyId exponent, WrittenExponent exponent → (shortKey keyId exponent).Usable [255] := by
    intro keyId exponent written
    have spelled : Base64.urlSafe.decode .indifferent (Bytes.ofText "_w") = .ok [255] := by decide +kernel
    exact ⟨rfl, ⟨_, rfl, Base64.spells_of_decode spelled⟩, ⟨255, by decide, by decide⟩, ⟨_, rfl, written⟩⟩
  have first := usable "a" "AQAB" ⟨"AQAB", 0, Or.inl rfl, rfl⟩
  have second := usable "b" "AAEAAQ=" ⟨"AAEAAQ", 1, Or.inr rfl, rfl⟩
  constructor
  · obtain ⟨resolves, mapped, -⟩ := sets_resolve_exactly ⟨[shortKey "a" "AQAB", shortKey "b" "AAEAAQ="]⟩
    obtain ⟨keys, hkeys⟩ := resolves.mpr ⟨by simpa using ⟨⟨_, first⟩, ⟨_, second⟩⟩, by decide⟩
    obtain ⟨hlength, -, -, hown⟩ := mapped keys hkeys
    obtain ⟨modulus, usable', hlookup⟩ := hown (shortKey "b" "AAEAAQ=") (by simp)
    rw [usable'.spells.unique second.spells] at hlookup
    exact ⟨keys, hkeys, hlength, hlookup⟩
  · apply ((sets_resolve_exactly _).2.2 (.duplicate "a")).mpr
    exact ⟨[shortKey "a" "AQAB"], shortKey "a" "AQAB", _, rfl, ⟨by simpa using ⟨_, first⟩, by decide⟩,
      .repeated first (by decide)⟩

end DirectoryGateway.KeySet
