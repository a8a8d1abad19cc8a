import DirectoryGateway.Proofs.Json.Attempts
import DirectoryGateway.Proofs.Json.Strings
import DirectoryGateway.Token.Registered

/-!
# The issuer that registered claims name

Registered claims are looked at by attempts, which may break off anywhere in a value, and what follows is read on from
there. Such a reading is accepted only if it never lost its place: inside of a string it cannot come to the end of the
document, and from further in it ends too early. So the issuer it found is a claim of the document itself.
-/

namespace DirectoryGateway.Token

open Json (Stop nextPart tryKey tryScalar attempt closeList closeRecord skipBlanks marks boundary
  Descends Settles Inside)

variable {issuer : String}

/-! ### Parts of a record -/

theorem nextPart_error {close : UInt8} {first : Bool} {bytes : List UInt8} {s : Stop}
    (h : nextPart close first bytes = .error s) (ok : s.ok = true) :
    ∃ rest, skipBlanks bytes = close :: rest ∧ s.rest = close :: rest := by
  unfold nextPart at h
  split at h
  · cases h
    cases ok
  · next b rest hbytes =>
    split at h
    · next closing =>
      subst closing
      cases h
      exact ⟨rest, hbytes, rfl⟩
    · split at h
      · cases h
      · split at h
        · split at h
          · cases h
            cases ok
          · split at h
            · cases h
              cases ok
            · cases h
        · cases h
          cases ok

theorem nextPart_ok {close : UInt8} {first : Bool} {bytes part : List UInt8}
    (h : nextPart close first bytes = .ok part) :
    (first = true ∧ part = skipBlanks bytes) ∨
      (first = false ∧ ∃ after, skipBlanks bytes = ','.toUInt8 :: after ∧ part = skipBlanks after) := by
  unfold nextPart at h
  split at h
  · cases h
  · next b rest hbytes =>
    split at h
    · cases h
    · split at h
      · next hfirst =>
        cases h
        exact Or.inl ⟨hfirst, hbytes.symm⟩
      · next hfirst =>
        split at h
        · next comma =>
          subst comma
          split at h
          · cases h
          · next c after hrest =>
            split at h
            · cases h
            · cases h
              exact Or.inr ⟨by simpa using hfirst, rest, hbytes, hrest.symm⟩
        · cases h

/-! ### Values of registered claims -/

theorem tryPlain_settles (bytes : List UInt8) : Settles bytes 0 (tryPlain bytes) := by
  have after := (Descends.refl bytes).skipBlanks
  unfold tryPlain
  split
  · exact Json.settles_end
  · next b rest hbytes =>
    rw [hbytes] at after
    split
    · next list =>
      subst list
      exact Json.closeList_settles (after.opening (by decide)).settles_at
    · split
      · next record =>
        subst record
        exact Json.closeRecord_settles (after.opening (by decide)).settles_at
      · exact Json.tryScalar_settles after

theorem tryWord_settles (bytes : List UInt8) : Settles bytes 0 (tryWord bytes) := by
  have after := (Descends.refl bytes).skipBlanks
  unfold tryWord
  split
  · exact Json.settles_end
  · next b rest hbytes =>
    rw [hbytes] at after
    split
    · exact after.settles_at
    · exact Json.tryScalar_settles after

/-- What is made of the value of a claim. -/
inductive RegisteredRead (issuer name : String) (start : List UInt8) : Bool → List UInt8 → Prop where
  | tried (s : Stop) (names : Bool) (registered : name ∈ registeredNames) (settles : Settles start 0 s)
      (named : names = true → name = "iss" ∧ ∃ fuel v rest,
        Json.readValue fuel start = some (v, rest) ∧ namesIssuer issuer v = true) :
    RegisteredRead issuer name start names s.rest
  | read (fuel : Nat) (v : Json) (rest : List UInt8) (unregistered : name ∉ registeredNames)
      (value : Json.readValue fuel start = some (v, rest)) : RegisteredRead issuer name start false rest

theorem readRegistered_cases {name : String} {start rest : List UInt8} {names : Bool}
    (h : readRegistered issuer name start = some (names, rest)) :
    RegisteredRead issuer name start names rest := by
  unfold readRegistered at h
  split at h
  · next times =>
    cases h
    refine .tried _ false ?_ (tryPlain_settles start) (by simp)
    rcases times with rfl | rfl <;> decide
  · next noTimes =>
    split at h
    · next subject =>
      cases h
      exact .tried _ false (by rw [subject]; decide) (tryWord_settles start) (by simp)
    · next noSubject =>
      split at h
      · next audience =>
        cases h
        exact .tried _ false (by rw [audience]; decide) (Json.attempt_settles start) (by simp)
      · next noAudience =>
        split at h
        · next names' value noIssuer =>
          obtain ⟨⟨v, rest'⟩, read, heq⟩ := Option.map_eq_some_iff.mp h
          cases heq
          refine .read (start.length + 1) v _ ?_ read
          simp only [not_or] at noTimes
          have hne : name ≠ "iss" := beq_eq_false_iff_ne.mp noIssuer
          simp [registeredNames, noTimes, noSubject, noAudience, hne]
        · next v rest' isIssuer hvalue =>
          cases h
          have hname : name = "iss" := beq_iff_eq.mp isIssuer
          refine .tried _ _ (by rw [hname]; decide) (Json.attempt_settles start) ?_
          intro named
          exact ⟨hname, _, v, rest', hvalue, (Bool.and_eq_true_iff.mp named).2⟩
        · next isIssuer hvalue =>
          cases h
          have hname : name = "iss" := beq_iff_eq.mp isIssuer
          exact .tried _ false (by rw [hname]; decide) (Json.attempt_settles start) (by simp)

theorem RegisteredRead.names {name : String} {start rest : List UInt8} {names : Bool}
    (h : RegisteredRead issuer name start names rest) {fuel : Nat} {value : Json} {next : List UInt8}
    (read : Json.readValue fuel start = some (value, next)) (named : names = true) :
    name = "iss" ∧ namesIssuer issuer value = true := by
  cases h with
  | tried s names registered settles issued =>
    obtain ⟨hname, fuel', v, rest', read', hv⟩ := issued named
    rw [(Prod.mk.inj (Json.readValue_unique read read')).1]
    exact ⟨hname, hv⟩
  | read fuel' v rest unregistered value' => cases named

/-! ### Accepted records -/

/-- What an accepted rest of a record is: its end, or a claim and an accepted rest. -/
inductive Accepted (issuer : String) (fuel : Nat) (seen : List String) (named first : Bool)
    (bytes : List UInt8) : Prop where
  | ended (rest : List UInt8) (closing : skipBlanks bytes = '\x7d'.toUInt8 :: rest)
      (blank : skipBlanks rest = []) (issued : named = true)
  | claim (part start rest : List UInt8) (name : String) (names : Bool)
      (next : nextPart '\x7d'.toUInt8 first bytes = .ok part) (key : tryKey part = (some name, start))
      (unseen : name ∉ seen) (value : RegisteredRead issuer name start names rest)
      (more : claimsInOrder issuer fuel (if registeredNames.contains name then name :: seen else seen)
        (named || names) false rest = true)

theorem claimsInOrder_cases {fuel : Nat} {seen : List String} {named first : Bool} {bytes : List UInt8}
    (h : claimsInOrder issuer (fuel + 1) seen named first bytes = true) :
    Accepted issuer fuel seen named first bytes := by
  rw [claimsInOrder] at h
  split at h
  · next s hs =>
    simp only [Bool.and_eq_true, List.isEmpty_iff] at h
    obtain ⟨⟨ok, issued⟩, blank⟩ := h
    obtain ⟨rest, closing, hrest⟩ := nextPart_error hs ok
    rw [hrest] at blank
    exact .ended rest closing blank issued
  · next part hpart =>
    split at h
    · cases h
    · next name start hkey =>
      split at h
      · cases h
      · next unseen =>
        split at h
        · cases h
        · next names rest hvalue =>
          exact .claim part start rest name names hpart hkey (by simpa using unseen)
            (readRegistered_cases hvalue) h

theorem not_claimsInOrder_nil {fuel : Nat} {seen : List String} {named first : Bool} :
    claimsInOrder issuer fuel seen named first [] = false := by
  cases fuel <;> rfl

/-! ### A reading inside of a string -/

/-- No registered claim has a name that could stand outside of strings. -/
theorem registered_not_outside {key : List UInt8} {name : String} (registered : name ∈ registeredNames)
    (hkey : Json.decode? key = some name) : ¬ ∀ b ∈ key, Json.isOutside b = true := by
  intro outside
  have hnames : ∀ name ∈ registeredNames, (Bytes.ofText name).all Json.isOutside = false := by
    decide +kernel
  have hname := hnames name registered
  rw [Json.ofText_of_outside outside hkey, List.all_eq_true.mpr outside] at hname
  cases hname

theorem Inside.nextPart {close : UInt8} {first : Bool} {bytes part : List UInt8} (h : Inside bytes)
    (next : Json.nextPart close first bytes = .ok part) : Inside part := by
  rcases nextPart_ok next with ⟨-, rfl⟩ | ⟨-, after, comma, rfl⟩
  · exact h.skipBlanks
  · exact (h.next comma (by decide)).skipBlanks

theorem not_inside_of_claimsInOrder {fuel : Nat} {seen : List String} {named first : Bool}
    {bytes : List UInt8} (h : claimsInOrder issuer fuel seen named first bytes = true) :
    ¬ Inside bytes := by
  induction fuel generalizing seen named first bytes with
  | zero => cases h
  | succ fuel ih =>
    intro inside
    -- Inside and outside of strings are swapped for this reader: its keys are made of brackets, digits and the like.
    cases claimsInOrder_cases h with
    | ended rest closing blank issued =>
      exact Json.not_inside_of_blank blank (inside.next closing (by decide))
    | claim part start rest name names next key unseen value more =>
      obtain ⟨content, colon, hkey, hname, hcolon⟩ := Json.tryKey_some key
      obtain ⟨after, outside⟩ := (Inside.nextPart inside next).readString hkey
      have begun : Inside start := after.next hcolon (by decide)
      cases value with
      | tried s names registered settles named =>
        exact registered_not_outside registered hname outside
      | read fuel' v rest unregistered value =>
        exact ih more ((Json.read_inside fuel').1 value begun)

/-! ### A reading further in -/

theorem marks_nextPart {close : UInt8} {first : Bool} {bytes part : List UInt8} {ms : Json.Marks}
    (next : nextPart close first bytes = .ok part) (h : marks false bytes = some ms) :
    ∃ ms', marks false part = some ms' ∧ ∀ above, boundary false above ms = boundary false above ms' := by
  rcases nextPart_ok next with ⟨-, rfl⟩ | ⟨-, after, comma, rfl⟩
  · exact ⟨ms, by rwa [Json.marks_skipBlanks], fun _ => rfl⟩
  · rw [← Json.marks_skipBlanks, comma, Json.marks_mark (by decide)] at h
    obtain ⟨ms', h', rfl⟩ := Option.map_eq_some_iff.mp h
    refine ⟨ms', by rwa [Json.marks_skipBlanks], ?_⟩
    intro above
    exact Json.boundary_over_comma (Or.inl rfl) _ _

theorem marks_tryKey {part start : List UInt8} {name : String} (h : tryKey part = (some name, start)) :
    marks false part = marks false start := by
  obtain ⟨key, colon, hkey, -, hcolon⟩ := Json.tryKey_some h
  have plain : Json.isPlain ':'.toUInt8 = true := by decide
  rw [Json.marks_of_readString hkey, ← Json.marks_skipBlanks colon, hcolon, Json.marks_plain plain]

/-- An attempt at a value that an accepted rest follows stopped outside of strings. -/
theorem outside_of_settles {start : List UInt8} {s : Stop} (settles : Settles start 0 s) {fuel : Nat}
    {seen : List String} {named first : Bool}
    (more : claimsInOrder issuer fuel seen named first s.rest = true) :
    ∃ deeper, Descends start false s.rest deeper := by
  rcases settles with ⟨-, ended⟩ | ⟨inside, deeper, -, place, -⟩
  · rw [ended, not_claimsInOrder_nil] at more
    cases more
  · cases inside with
    | false => exact ⟨deeper, place⟩
    | true =>
      refine ⟨deeper, ?_⟩
      intro ms lexed
      obtain ⟨ms', h', -⟩ := place ms lexed
      exact absurd (by rw [Inside, h']; rfl) (not_inside_of_claimsInOrder more)

/-- Nothing around the record is left open at its end. -/
theorem boundary_of_claimsInOrder {fuel : Nat} {seen : List String} {named first : Bool}
    {bytes : List UInt8} (h : claimsInOrder issuer fuel seen named first bytes = true)
    {ms : Json.Marks} (hms : marks false bytes = some ms) (above : Nat) :
    boundary false (above + 1) ms = none := by
  induction fuel generalizing seen named first bytes ms above with
  | zero => cases h
  | succ fuel ih =>
    cases claimsInOrder_cases h with
    | ended rest closing blank issued =>
      rw [← Json.marks_skipBlanks, closing, Json.marks_mark (by decide),
        Json.marks_of_skipBlanks_nil blank] at hms
      cases hms
      exact Json.boundary_closing (by decide) _ _ _ _
    | claim part start rest name names next key unseen value more =>
      obtain ⟨ms₁, h₁, same₁⟩ := marks_nextPart next hms
      rw [marks_tryKey key] at h₁
      rw [same₁]
      cases value with
      | tried s names registered settles named =>
        obtain ⟨deeper, place⟩ := outside_of_settles settles more
        obtain ⟨ms₂, h₂, same₂⟩ := place ms₁ h₁
        rw [same₂, Nat.add_right_comm]
        exact ih more h₂ (above + deeper)
      | read fuel' v rest unregistered value =>
        obtain ⟨between, balanced, across⟩ := (Json.read_across fuel').1 value
        rw [across] at h₁
        obtain ⟨ms₂, h₂, rfl⟩ := Option.map_eq_some_iff.mp h₁
        rw [balanced]
        exact ih more h₂ above

/-! ### A reading in its place -/

theorem boundary_of_accepted {fuel : Nat} {seen : List String} {named : Bool} {bytes : List UInt8}
    (h : claimsInOrder issuer fuel seen named false bytes = true) {ms : Json.Marks}
    (hms : marks false bytes = some ms) : boundary true 0 ms = some (skipBlanks bytes) := by
  cases fuel with
  | zero => cases h
  | succ fuel =>
    rw [← Json.marks_skipBlanks] at hms
    cases claimsInOrder_cases h with
    | ended rest closing blank issued =>
      rw [closing, Json.marks_mark (by decide)] at hms
      obtain ⟨ms', -, rfl⟩ := Option.map_eq_some_iff.mp hms
      rw [closing, Json.boundary_end (by decide)]
    | claim part start rest name names next key unseen value more =>
      rcases nextPart_ok next with ⟨first, -⟩ | ⟨-, after, comma, -⟩
      · cases first
      · rw [comma, Json.marks_mark (by decide)] at hms
        obtain ⟨ms', -, rfl⟩ := Option.map_eq_some_iff.mp hms
        rw [comma, Json.boundary_comma, if_pos ⟨rfl, rfl⟩]

theorem named_of_accepted_end {fuel : Nat} {seen : List String} {named : Bool} {bytes rest : List UInt8}
    (h : claimsInOrder issuer fuel seen named false bytes = true)
    (closing : skipBlanks bytes = '\x7d'.toUInt8 :: rest) : named = true := by
  cases fuel with
  | zero => cases h
  | succ fuel =>
    cases claimsInOrder_cases h with
    | ended rest closing blank issued => exact issued
    | claim part start rest name names next key unseen value more =>
      rcases nextPart_ok next with ⟨first, -⟩ | ⟨-, after, comma, -⟩
      · cases first
      · rw [closing] at comma
        exact absurd (List.head_eq_of_cons_eq comma) (by decide)

/-- A value in a record that ends: `next` is what follows it. -/
structure ValueEnds (start next : List UInt8) (ms : Json.Marks) : Prop where
  lexed : marks false start = some ms
  ends : (boundary false 0 ms).isSome = true
  goesOn : boundary true 0 ms = some (skipBlanks next)

/-- After a value whose end is known, an accepted reading stands behind it. -/
theorem skipBlanks_eq_of_accepted {fuel : Nat} {seen : List String} {named names : Bool} {name : String}
    {fuel' : Nat} {start next rest : List UInt8} {value : Json} {ms : Json.Marks}
    (ends : ValueEnds start next ms) (read : Json.readValue fuel' start = some (value, next))
    (made : RegisteredRead issuer name start names rest)
    (more : claimsInOrder issuer fuel seen named false rest = true) :
    skipBlanks rest = skipBlanks next := by
  cases made with
  | tried s names registered settles named =>
    obtain ⟨deeper, place⟩ := outside_of_settles settles more
    obtain ⟨ms', h', same⟩ := place ms ends.lexed
    cases deeper with
    | zero =>
      -- On the level of the record, the next comma or the end of the record shows the place.
      have hboundary := boundary_of_accepted more h'
      rw [← Nat.add_zero 0, ← same, ends.goesOn] at hboundary
      exact (Option.some.inj hboundary).symm
    | succ deeper =>
      -- From further in, the accepted rest would have to close more than is open.
      have hend := ends.ends
      rw [same, Nat.zero_add, boundary_of_claimsInOrder more h'] at hend
      cases hend
  | read fuel'' v rest unregistered value' => rw [(Prod.mk.inj (Json.readValue_unique read value')).2]

theorem valueEnds_last {fuel : Nat} {start next rest : List UInt8} {value : Json}
    (read : Json.readValue fuel start = some (value, next))
    (closing : skipBlanks next = '\x7d'.toUInt8 :: rest) (blank : skipBlanks rest = []) :
    ∃ ms, ValueEnds start next ms := by
  obtain ⟨between, balanced, across⟩ := (Json.read_across fuel).1 read
  have hnext : marks false next = some [('\x7d'.toUInt8, rest)] := by
    rw [← Json.marks_skipBlanks, closing, Json.marks_mark (by decide),
      Json.marks_of_skipBlanks_nil blank]
    rfl
  refine ⟨between ++ [('\x7d'.toUInt8, rest)], by rw [across, hnext]; rfl, ?_, ?_⟩
  · rw [balanced, Json.boundary_end (by decide), Option.isSome_some]
  · rw [balanced, Json.boundary_end (by decide), closing]

theorem valueEnds_more {fuel fuel' : Nat} {start next after rest : List UInt8} {value : Json}
    {fields : List (List UInt8 × Json)} (read : Json.readValue fuel start = some (value, next))
    (comma : skipBlanks next = ','.toUInt8 :: after)
    (tail : Json.readFields fuel' after = some (fields, rest)) (blank : skipBlanks rest = []) :
    ∃ ms, ValueEnds start next ms := by
  obtain ⟨between, balanced, across⟩ := (Json.read_across fuel).1 read
  obtain ⟨later, closing, acrossLater⟩ := (Json.read_across fuel').2.2 tail
  have hnext : marks false next = some ((','.toUInt8, after) :: (later ++ [])) := by
    rw [← Json.marks_skipBlanks, comma, Json.marks_mark (by decide), acrossLater,
      Json.marks_of_skipBlanks_nil blank]
    rfl
  refine ⟨between ++ (','.toUInt8, after) :: (later ++ []), by rw [across, hnext]; rfl, ?_, ?_⟩
  · rw [balanced, Json.boundary_over_comma (Or.inl rfl), closing.ends]
  · rw [balanced, Json.boundary_comma, if_pos ⟨rfl, rfl⟩, comma]

/-! ### The issuer -/

def isIssuer (entry : List UInt8 × Json) : Prop :=
  Json.decode? entry.1 = some "iss"

/-- Where an issuer is asked for, the fields name it, and once only. -/
structure Issued (issuer : String) (seen : List String) (named : Bool)
    (fields : List (List UInt8 × Json)) : Prop where
  present : named = true ∨ ∃ entry ∈ fields, isIssuer entry ∧ namesIssuer issuer entry.2 = true
  once : "iss" ∈ seen → ∀ entry ∈ fields, ¬ isIssuer entry
  every : named = false → ∀ entry ∈ fields, isIssuer entry → namesIssuer issuer entry.2 = true

theorem issued_nil {seen : List String} : Issued issuer seen true [] where
  present := Or.inl rfl
  once := by simp
  every := by simp

theorem Issued.cons {seen : List String} {named names : Bool} {name : String} {key : List UInt8}
    {value : Json} {fields : List (List UInt8 × Json)}
    (h : Issued issuer (if registeredNames.contains name then name :: seen else seen) (named || names)
      fields)
    (hkey : Json.decode? key = some name) (unseen : name ∉ seen)
    (hnames : names = true → name = "iss" ∧ namesIssuer issuer value = true) :
    Issued issuer seen named ((key, value) :: fields) := by
  have hiss : isIssuer (key, value) ↔ name = "iss" := by
    simp [isIssuer, hkey]
  have hseen : "iss" ∈ seen → "iss" ∈ if registeredNames.contains name then name :: seen else seen := by
    intro hmem
    split
    · exact List.mem_cons_of_mem _ hmem
    · exact hmem
  refine ⟨?_, ?_, ?_⟩
  · rcases h.present with hnamed | ⟨entry, hmem, hentry⟩
    · cases named with
      | true => exact Or.inl rfl
      | false =>
        obtain ⟨hname, hvalue⟩ := hnames (by simpa using hnamed)
        exact Or.inr ⟨_, List.mem_cons_self, hiss.mpr hname, hvalue⟩
    · exact Or.inr ⟨entry, List.mem_cons_of_mem _ hmem, hentry⟩
  · intro hmem entry hentry
    rcases List.mem_cons.mp hentry with rfl | htail
    · rw [hiss]
      rintro rfl
      exact unseen hmem
    · exact h.once (hseen hmem) entry htail
  · intro hnamed entry hentry isIss
    by_cases hname : name = "iss"
    · -- Nothing after this claim names the issuer again, so this one does.
      subst hname
      have none_ : ∀ entry ∈ fields, ¬ isIssuer entry := h.once (by simp [registeredNames])
      rcases List.mem_cons.mp hentry with rfl | htail
      · rcases h.present with hor | ⟨entry, hmem, hother, -⟩
        · exact (hnames (by simpa [hnamed] using hor)).2
        · exact absurd hother (none_ entry hmem)
      · exact absurd isIss (none_ entry htail)
    · have hfalse : names = false := by
        cases names with
        | false => rfl
        | true => exact absurd (hnames rfl).1 hname
      rcases List.mem_cons.mp hentry with rfl | htail
      · exact absurd (hiss.mp isIss) hname
      · exact h.every (by simp [hnamed, hfalse]) entry htail isIss

/-- An accepted reading goes through the fields that the reader takes, one by one. -/
theorem issued_of_claimsInOrder {fuel fuel' : Nat} {bytes place rest : List UInt8}
    {fields : List (List UInt8 × Json)} {seen : List String} {named first : Bool}
    (read : Json.readFields fuel bytes = some (fields, rest)) (blank : skipBlanks rest = [])
    (stands : skipBlanks place = if first then skipBlanks bytes else ','.toUInt8 :: bytes)
    (accepted : claimsInOrder issuer fuel' seen named first place = true) :
    Issued issuer seen named fields := by
  induction fuel generalizing fuel' bytes place fields seen named first with
  | zero => cases read
  | succ fuel ih =>
    cases fuel' with
    | zero => cases accepted
    | succ fuel' =>
      have fieldsRead := Json.readFields_iff.mp read
      have noEnd : ∀ after, skipBlanks place ≠ '\x7d'.toUInt8 :: after := by
        intro after hplace
        rw [stands] at hplace
        cases first with
        | false => exact absurd (List.head_eq_of_cons_eq hplace) (by decide)
        | true =>
          have hstring : ∀ key colon, Json.readString (skipBlanks bytes) ≠ some (key, colon) := by
            intro key colon
            rw [show skipBlanks bytes = '\x7d'.toUInt8 :: after from hplace, Json.readString,
              if_neg (by decide)]
            simp
          cases fieldsRead with
          | last key_ between read closing => exact hstring _ _ key_
          | more key_ between read comma tail => exact hstring _ _ key_
      cases claimsInOrder_cases accepted with
      | ended after closing blank' issued => exact absurd closing (noEnd after)
      | claim part start after name names next key unseen made more =>
        have hpart : part = skipBlanks bytes := by
          rcases nextPart_ok next with ⟨hfirst, rfl⟩ | ⟨hfirst, after', comma, rfl⟩
          · rw [stands, hfirst, if_pos rfl]
          · rw [stands, hfirst, if_neg (by simp)] at comma
            rw [List.tail_eq_of_cons_eq comma]
        -- Both readings take the same key; after its value they meet again, by what can follow a value.
        obtain ⟨key', colon', hkey, hname, hcolon⟩ := Json.tryKey_some key
        rw [hpart] at hkey
        cases fieldsRead with
        | @last _ _ _ follows _ value key_ between value_ closing =>
          rw [hkey] at key_
          cases key_
          rw [hcolon] at between
          cases between
          obtain ⟨ms, ends⟩ := valueEnds_last value_ closing blank
          have same := skipBlanks_eq_of_accepted ends value_ made more
          rw [closing] at same
          have issued := named_of_accepted_end more same
          refine Issued.cons ?_ hname unseen (made.names value_)
          rw [issued]
          exact issued_nil
        | @more _ _ _ follows _ _ value fields' key_ between value_ comma tail =>
          rw [hkey] at key_
          cases key_
          rw [hcolon] at between
          cases between
          obtain ⟨ms, ends⟩ := valueEnds_more value_ comma tail blank
          have same := skipBlanks_eq_of_accepted ends value_ made more
          rw [comma] at same
          exact Issued.cons (ih tail (by simpa using same) more) hname unseen (made.names value_)

/-- A document whose registered claims are in order is a record, and what it gives as issuer is the issuer asked for. -/
theorem issued_of_registeredInOrder {document : List UInt8} {v : Json}
    (read : Json.read? document = some v) (inOrder : registeredInOrder issuer document = true) :
    ∃ fields, v = .record fields ∧ Issued issuer [] false fields := by
  have hne : '\x7b'.toUInt8 ≠ '['.toUInt8 := by decide
  unfold registeredInOrder at inOrder
  split at inOrder
  · cases inOrder
  · next b inner opening =>
    simp only [Bool.and_eq_true, decide_eq_true_eq] at inOrder
    obtain ⟨rfl, accepted⟩ := inOrder
    unfold Json.read? at read
    split at read
    · next w rest value =>
      split at read
      · next blank =>
        cases read
        rw [List.isEmpty_iff] at blank
        cases Json.readValue_iff.mp value with
        | emptyList opening' closing =>
          rw [opening] at opening'
          exact absurd (List.head_eq_of_cons_eq opening') hne
        | list opening' filled read =>
          rw [opening] at opening'
          exact absurd (List.head_eq_of_cons_eq opening') hne
        | emptyRecord opening' closing =>
          rw [opening] at opening'
          cases opening'
          cases claimsInOrder_cases accepted with
          | ended rest closing blank issued => cases issued
          | claim part start rest name names next key unseen value more =>
            rcases nextPart_ok next with ⟨-, rfl⟩ | ⟨first, -⟩
            · obtain ⟨content, colon, hkey, -⟩ := Json.tryKey_some key
              rw [closing, Json.readString, if_neg (by decide)] at hkey
              cases hkey
            · cases first
        | record opening' filled read =>
          rw [opening] at opening'
          cases opening'
          refine ⟨_, rfl, issued_of_claimsInOrder read blank ?_ accepted⟩
          rw [if_pos rfl, Json.skipBlanks_idem]
        | scalar noList noRecord read => exact absurd opening (noRecord inner)
      · cases read
    · cases read

end DirectoryGateway.Token
