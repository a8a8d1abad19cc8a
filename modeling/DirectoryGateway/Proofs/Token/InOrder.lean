import DirectoryGateway.Proofs.Json.RoundTrip
import DirectoryGateway.Token.Registered

/-!
# Registered claims of a written record

Where a record was written out with names that are all different, the look at its registered claims never breaks off inside
of a value, so all it can find wanting is the issuer.
-/

namespace DirectoryGateway

namespace Json

/-! ### Attempts at written values -/

theorem tryKey_encode (name : String) (rest : List UInt8) :
    tryKey (quote :: encode name ++ quote :: ':'.toUInt8 :: rest) = (some name, rest) := by
  have colon : tryColon (':'.toUInt8 :: rest) = ⟨true, rest⟩ := by
    rw [tryColon, skipBlanks_cons_of_not (by decide)]
    rfl
  rw [List.cons_append, tryKey, if_pos rfl, tryText_encode]
  dsimp only
  rw [colon]
  rfl

theorem tryScalar_str (s : String) (rest : List UInt8) : tryScalar ((str s).render ++ rest) = ⟨true, rest⟩ := by
  rw [str, render, List.cons_append, List.cons_append, List.append_assoc, List.singleton_append, tryScalar,
    if_pos rfl, tryText_encode]
  rfl

theorem tryNumber_integer {n : Number} (fraction : n.fraction = []) (exponent : n.exponent = none)
    {rest : List UInt8} (ends : AtMark rest) : (tryNumber (n.render ++ rest)).rest = rest := by
  have digits : ∀ d ∈ n.fraction, d < 10 := by
    rw [fraction]
    simp
  -- Without an exponent there are no digits to stop at, even if the number is out of range.
  have reached : unreached Text.maxInt32 0 (digitList 0) = [] := by decide
  rw [tryNumber, readNumber_render digits ends]
  dsimp only
  split
  · rfl
  · rw [exponent, Option.getD_none, Int.natAbs_zero, reached]
    rfl

theorem tryScalar_int (i : Int) {rest : List UInt8} (ends : AtMark rest) :
    (tryScalar ((int i).render ++ rest)).rest = rest := by
  have number := tryNumber_integer (n := ⟨i < 0, i.natAbs, [], none⟩) rfl rfl ends
  obtain ⟨b, bytes, hrender, opens⟩ := Number.render_cons ⟨i < 0, i.natAbs, [], none⟩
  have hb : b = '-'.toUInt8 ∨ (digit? b).isSome = true := by
    simpa [opensNumber] using opens
  rw [hrender] at number
  rw [int, render, hrender, List.cons_append, tryScalar, if_neg (opensNumber_apart opens).2.2.2.1, if_pos hb]
  exact number

/-- A value that a reader of scalars passes, and reads if it could name an issuer. -/
structure Steady (v : Json) : Prop where
  scalar : v.isScalar = true
  wellFormed : v.WellFormed
  passes : ∀ rest, AtMark rest → (tryScalar (v.render ++ rest)).rest = rest
  read : (∃ content, v = .text content) → ∀ rest, (tryScalar (v.render ++ rest)).ok = true

theorem steady_str (s : String) : Steady (str s) where
  scalar := rfl
  wellFormed := wellFormed_str s
  passes rest _ := by rw [tryScalar_str]
  read _ rest := by rw [tryScalar_str]

theorem steady_int (i : Int) : Steady (int i) where
  scalar := rfl
  wellFormed := wellFormed_int i
  passes _ ends := tryScalar_int i ends
  read h := by
    obtain ⟨content, hcontent⟩ := h
    cases hcontent

/-- What stands before a part of a list or record: nothing before the first one, else a comma. -/
def lead (first : Bool) : List UInt8 :=
  if first then [] else [','.toUInt8]

theorem nextPart_lead {close : UInt8} (other : ','.toUInt8 ≠ close) (first : Bool) {part : List UInt8}
    (begins : Begins part) (more : ∀ rest, part ≠ close :: rest) :
    nextPart close first (lead first ++ part) = .ok part := by
  have start := begins.skipBlanks
  obtain ⟨b, rest, rfl, -⟩ := begins
  have hne : b ≠ close := by
    rintro rfl
    exact more rest rfl
  cases first with
  | true =>
    rw [lead, if_pos rfl, List.nil_append, nextPart, start]
    simp [hne]
  | false =>
    rw [lead, if_neg Bool.false_ne_true, List.singleton_append, nextPart, skipBlanks_cons_of_not (by decide)]
    simp [start, hne, other]

end Json

namespace Token

open Json (AtMark Begins Steady quote encode lead render renderFields skipBlanks nextPart tryScalar attempt)

variable {issuer : String}

/-! ### Values -/

/-- A claim whose value is got over, and tells the issuer if it is the one that names it. -/
def ReadsOver (issuer name : String) (v : Json) : Prop :=
  ∀ rest, AtMark rest →
    readRegistered issuer name (v.render ++ rest) = some (name == "iss" && namesIssuer issuer v, rest)

theorem readsOver_unregistered {name : String} (h : name ∉ registeredNames) {v : Json} (written : v.WellFormed) :
    ReadsOver issuer name v := by
  intro rest ends
  simp only [registeredNames, List.mem_cons, List.not_mem_nil, or_false, not_or] at h
  obtain ⟨exp, nbf, sub, iss, aud⟩ := h
  have notIssuer : (name == "iss") = false := beq_eq_false_iff_ne.mpr iss
  rw [readRegistered, if_neg (not_or.mpr ⟨exp, nbf⟩), if_neg sub, if_neg aud, notIssuer,
    Json.readValue_render written ends]
  rfl

theorem namesIssuer_of_scalar {v : Json} (scalar : v.isScalar = true) (h : namesIssuer issuer v = true) :
    ∃ content, v = .text content := by
  cases v with
  | text content => exact ⟨content, rfl⟩
  | list items => cases scalar
  | _ => cases h

theorem steady_start {v : Json} (steady : Steady v) (rest : List UInt8) :
    ∃ b bytes, skipBlanks (v.render ++ rest) = b :: bytes ∧ b :: bytes = v.render ++ rest ∧
      b ≠ '['.toUInt8 ∧ b ≠ '\x7b'.toUInt8 := by
  obtain ⟨b, bytes, hrender, noOpening⟩ := Json.scalar_begins steady.scalar
  refine ⟨b, bytes ++ rest, ?_, by rw [hrender]; rfl, ?_, ?_⟩
  · rw [((Json.render_begins v).append rest).skipBlanks, hrender]
    rfl
  · rintro rfl
    revert noOpening
    decide
  · rintro rfl
    revert noOpening
    decide

theorem tryPlain_steady {v : Json} (steady : Steady v) (rest : List UInt8) :
    tryPlain (v.render ++ rest) = tryScalar (v.render ++ rest) := by
  obtain ⟨b, bytes, start, same, noList, noRecord⟩ := steady_start steady rest
  rw [tryPlain, start, ← same]
  dsimp only
  rw [if_neg noList, if_neg noRecord]

theorem tryWord_steady {v : Json} (steady : Steady v) (rest : List UInt8) :
    tryWord (v.render ++ rest) = tryScalar (v.render ++ rest) := by
  obtain ⟨b, bytes, start, same, noList, noRecord⟩ := steady_start steady rest
  rw [tryWord, start, ← same]
  dsimp only
  rw [if_neg (not_or.mpr ⟨noList, noRecord⟩)]

theorem attempt_steady {v : Json} (steady : Steady v) (rest : List UInt8) :
    attempt (v.render ++ rest) = tryScalar (v.render ++ rest) := by
  obtain ⟨b, bytes, start, same, noList, noRecord⟩ := steady_start steady rest
  rw [attempt, Json.tryValue, start, ← same]
  dsimp only
  rw [if_neg noList, if_neg noRecord]

theorem readsOver_steady (name : String) {v : Json} (steady : Steady v) : ReadsOver issuer name v := by
  intro rest ends
  have passes := steady.passes rest ends
  have read := Json.readValue_render steady.wellFormed ends
  by_cases isIssuer : name = "iss"
  · subst isIssuer
    rw [readRegistered, if_neg (by decide), if_neg (by decide), if_neg (by decide), read]
    dsimp only
    rw [attempt_steady steady, passes]
    cases names : namesIssuer issuer v with
    | false => simp [names]
    | true => simp [names, steady.read (namesIssuer_of_scalar steady.scalar names) rest]
  · have other : (name == "iss") = false := beq_eq_false_iff_ne.mpr isIssuer
    rw [readRegistered, tryPlain_steady steady, tryWord_steady steady, attempt_steady steady, passes, other, read]
    simp

/-! ### Records -/

/-- A claim as it stands in a written record. -/
def claimText (name : String) (v : Json) : List UInt8 :=
  quote :: encode name ++ quote :: ':'.toUInt8 :: v.render

theorem claimText_begins (name : String) (v : Json) : Begins (claimText name v) :=
  ⟨quote, _, rfl, by decide, by decide⟩

theorem nextPart_claim (first : Bool) (name : String) (v : Json) (rest : List UInt8) :
    nextPart '\x7d'.toUInt8 first (lead first ++ (claimText name v ++ rest)) = .ok (claimText name v ++ rest) := by
  have begins := (claimText_begins name v).append rest
  exact Json.nextPart_lead (by decide) first begins (begins.not_closing (by decide))

/-- A claim that is got over leaves its name behind, if it is a registered one, and what it says of the issuer. -/
theorem claimsInOrder_claim {name : String} {v : Json} (passes : ReadsOver issuer name v) (fuel : Nat)
    {seen : List String} (fresh : name ∉ seen) (named first : Bool) {rest : List UInt8} (ends : AtMark rest) :
    claimsInOrder issuer (fuel + 1) seen named first (lead first ++ (claimText name v ++ rest)) =
      claimsInOrder issuer fuel (if registeredNames.contains name then name :: seen else seen)
        (named || (name == "iss" && namesIssuer issuer v)) false rest := by
  have key := Json.tryKey_encode name (v.render ++ rest)
  have unseen : seen.contains name = false := by
    simpa using fresh
  rw [claimsInOrder, nextPart_claim]
  dsimp only
  rw [show claimText name v ++ rest = quote :: encode name ++ quote :: ':'.toUInt8 :: (v.render ++ rest) by
    simp [claimText], key]
  dsimp only
  rw [unseen, if_neg Bool.false_ne_true, passes rest ends]

theorem claimsInOrder_end (fuel : Nat) (seen : List String) (named first : Bool) :
    claimsInOrder issuer (fuel + 1) seen named first ['\x7d'.toUInt8] = named := by
  have ended : nextPart '\x7d'.toUInt8 first ['\x7d'.toUInt8] = .error ⟨true, ['\x7d'.toUInt8]⟩ := by
    cases first <;> decide
  rw [claimsInOrder, ended]
  simp [skipBlanks]

theorem renderFields_claim (f : String × Json) (fields : List (String × Json)) :
    renderFields ((f :: fields).map fun f => (encode f.1, f.2)) =
      claimText f.1 f.2 ++
        (if fields = [] then [] else ','.toUInt8 :: renderFields (fields.map fun f => (encode f.1, f.2))) := by
  cases fields with
  | nil => simp [renderFields, claimText]
  | cons next fields => simp [renderFields, claimText]

/-- Going through the claims of a written record finds out whether one of them names the issuer. -/
theorem claimsInOrder_render {fields : List (String × Json)} (nonempty : fields ≠ [])
    (distinct : (fields.map Prod.fst).Nodup) (passes : ∀ f ∈ fields, ReadsOver issuer f.1 f.2) {fuel : Nat}
    (enough : fields.length < fuel) {seen : List String} (fresh : ∀ f ∈ fields, f.1 ∉ seen)
    (named first : Bool) :
    claimsInOrder issuer fuel seen named first
        (lead first ++ (renderFields (fields.map fun f => (encode f.1, f.2)) ++ ['\x7d'.toUInt8])) =
      (named || fields.any fun f => f.1 == "iss" && namesIssuer issuer f.2) := by
  -- Each claim is got over up to the comma or bracket behind it, and none of those that follow has its name.
  induction fields generalizing fuel seen named first with
  | nil => exact absurd rfl nonempty
  | cons f fields ih =>
    rw [List.length_cons] at enough
    obtain ⟨fuel, rfl⟩ : ∃ k, fuel = k + 1 := ⟨fuel - 1, by omega⟩
    have passes_f := passes f List.mem_cons_self
    have fresh_f := fresh f List.mem_cons_self
    have hclose : AtMark ['\x7d'.toUInt8] := Json.atMark_cons (by decide) []
    have hcomma : ∀ rest, AtMark (','.toUInt8 :: rest) := Json.atMark_cons (by decide)
    rw [renderFields_claim, List.any_cons, List.append_assoc]
    by_cases last : fields = []
    · subst last
      obtain ⟨fuel, rfl⟩ : ∃ k, fuel = k + 1 := ⟨fuel - 1, by omega⟩
      rw [if_pos rfl, List.nil_append, claimsInOrder_claim passes_f _ fresh_f named first hclose,
        claimsInOrder_end, List.any_nil, Bool.or_false]
    · rw [List.map_cons, List.nodup_cons] at distinct
      have unseen : ∀ g ∈ fields, g.1 ∉ if registeredNames.contains f.1 then f.1 :: seen else seen := by
        intro g hg hmem
        have hne : g.1 ≠ f.1 := by
          intro same
          exact distinct.1 (List.mem_map.mpr ⟨g, hg, same⟩)
        have hseen := fresh g (List.mem_cons_of_mem _ hg)
        split at hmem
        · exact (List.mem_cons.mp hmem).elim hne hseen
        · exact hseen hmem
      have later := ih last distinct.2 (fun g hg => passes g (List.mem_cons_of_mem _ hg))
        (show fields.length < fuel by omega) unseen (named || (f.1 == "iss" && namesIssuer issuer f.2)) false
      rw [if_neg last, List.cons_append, claimsInOrder_claim passes_f _ fresh_f named first (hcomma _),
        ← Bool.or_assoc, ← later]
      rfl

theorem length_renderFields_le (fields : List (String × Json)) :
    fields.length ≤ (renderFields (fields.map fun f => (encode f.1, f.2))).length := by
  induction fields with
  | nil => exact Nat.zero_le _
  | cons f fields ih =>
    have nonempty := (claimText_begins f.1 f.2).length_pos
    rw [renderFields_claim, List.length_append, List.length_cons]
    by_cases last : fields = []
    · subst last
      simp only [List.length_nil]
      omega
    · rw [if_neg last, List.length_cons]
      omega

/-- The registered claims of a written record are in order exactly if one of them names the issuer. -/
theorem registeredInOrder_render {fields : List (String × Json)} (nonempty : fields ≠ [])
    (distinct : (fields.map Prod.fst).Nodup) (passes : ∀ f ∈ fields, ReadsOver issuer f.1 f.2) :
    registeredInOrder issuer (render (.obj fields)) =
      fields.any fun f => f.1 == "iss" && namesIssuer issuer f.2 := by
  have start : skipBlanks (render (.obj fields)) =
      '\x7b'.toUInt8 :: (lead true ++ (renderFields (fields.map fun f => (encode f.1, f.2)) ++
        ['\x7d'.toUInt8])) := by
    rw [(Json.render_begins _).skipBlanks]
    rfl
  have enough := length_renderFields_le fields
  rw [registeredInOrder, start]
  dsimp only
  rw [claimsInOrder_render nonempty distinct passes ?_ (by simp) false true]
  · simp
  · rw [Json.obj, render, List.length_append, List.length_cons]
    omega

end Token

end DirectoryGateway
