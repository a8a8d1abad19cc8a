import DirectoryGateway.Json.Attempt
import DirectoryGateway.Proofs.Json.Marks

/-!
# Where an attempt leaves off

An attempt at a value that fails stops somewhere in it: maybe inside of a string, maybe some levels further in than it began,
but never further out. One that succeeds stops on the level on which it began.
-/

namespace DirectoryGateway.Json

/-! ### Places -/

/-- From the start of a reader its place is `deeper` levels further in, outside or inside of a string. -/
def Descends (start : List UInt8) (inside : Bool) (place : List UInt8) (deeper : Nat) : Prop :=
  ∀ ms, marks false start = some ms → ∃ ms', marks inside place = some ms' ∧
    ∀ comma above, boundary comma above ms = boundary comma (above + deeper) ms'

variable {start place rest : List UInt8} {inside : Bool} {deeper : Nat} {b : UInt8}

theorem Descends.refl (start : List UInt8) : Descends start false start 0 :=
  fun ms h => ⟨ms, h, fun _ _ => rfl⟩

theorem Descends.step {inside' : Bool} {deeper' : Nat} (h : Descends start inside place deeper)
    (next : ∀ ms, marks inside place = some ms → ∃ ms', marks inside' rest = some ms' ∧
      ∀ comma above, boundary comma (above + deeper) ms = boundary comma (above + deeper') ms') :
    Descends start inside' rest deeper' := by
  intro ms hms
  obtain ⟨ms₁, h₁, same₁⟩ := h ms hms
  obtain ⟨ms₂, h₂, same₂⟩ := next ms₁ h₁
  exact ⟨ms₂, h₂, fun comma above => (same₁ comma above).trans (same₂ comma above)⟩

/-- A reader that passes no mark stays on its level. -/
theorem Descends.of_eq {inside' : Bool} (h : Descends start inside place deeper)
    (same : ∀ ms, marks inside place = some ms → marks inside' rest = some ms) :
    Descends start inside' rest deeper :=
  h.step fun ms hms => ⟨ms, same ms hms, fun _ _ => rfl⟩

theorem Descends.opening (h : Descends start false (b :: rest) deeper) (hb : isOpening b = true) :
    Descends start false rest (deeper + 1) := by
  refine h.step ?_
  intro ms hms
  rw [marks_mark (mark_of_opening hb)] at hms
  obtain ⟨ms', h', rfl⟩ := Option.map_eq_some_iff.mp hms
  refine ⟨ms', h', ?_⟩
  intro comma above
  rw [boundary_opening hb, Nat.add_assoc]

theorem Descends.closing (h : Descends start false (b :: rest) (deeper + 1)) (hb : isClosing b = true) :
    Descends start false rest deeper := by
  refine h.step ?_
  intro ms hms
  rw [marks_mark (mark_of_closing hb)] at hms
  obtain ⟨ms', h', rfl⟩ := Option.map_eq_some_iff.mp hms
  refine ⟨ms', h', ?_⟩
  intro comma above
  rw [← Nat.add_assoc, boundary_closing hb]

theorem Descends.comma (h : Descends start false (','.toUInt8 :: rest) (deeper + 1)) :
    Descends start false rest (deeper + 1) := by
  refine h.step ?_
  intro ms hms
  rw [marks_mark (by decide)] at hms
  obtain ⟨ms', h', rfl⟩ := Option.map_eq_some_iff.mp hms
  refine ⟨ms', h', ?_⟩
  intro comma above
  rw [boundary_over_comma (Or.inr (by omega))]

theorem Descends.plainUpTo (h : Descends start false place deeper) (plain : PlainUpTo place rest) :
    Descends start false rest deeper :=
  h.of_eq fun _ hms => (marks_of_plainUpTo plain).symm.trans hms

theorem Descends.plain (h : Descends start false (b :: rest) deeper) (hb : isPlain b = true) :
    Descends start false rest deeper :=
  h.plainUpTo (.cons hb (.refl rest))

theorem Descends.quote (h : Descends start false (Json.quote :: rest) deeper) :
    Descends start true rest deeper :=
  h.of_eq fun _ hms => (marks_quote rest).symm.trans hms

theorem Descends.endQuote (h : Descends start true (Json.quote :: rest) deeper) :
    Descends start false rest deeper :=
  h.of_eq fun _ hms => (marks_endQuote rest).symm.trans hms

theorem Descends.ordinary (h : Descends start true (b :: rest) deeper) (noQuote : b ≠ Json.quote)
    (noBackslash : b ≠ backslash) : Descends start true rest deeper :=
  h.of_eq fun _ hms => marks_of_ordinary noQuote noBackslash hms

theorem Descends.escape {e : UInt8} (h : Descends start true (backslash :: e :: rest) deeper)
    (unit : e ≠ 'u'.toUInt8) : Descends start true rest deeper := by
  have hne : backslash ≠ Json.quote := by decide
  refine h.of_eq ?_
  intro ms hms
  by_cases known : (escapeValue e).isSome = true
  · rwa [marks_escape unit known] at hms
  · rw [marks.eq_def] at hms
    simp [hne, unit, known] at hms

theorem Descends.unit {x y z w : UInt8}
    (h : Descends start true (backslash :: 'u'.toUInt8 :: x :: y :: z :: w :: rest) deeper) :
    Descends start true rest deeper := by
  have hne : backslash ≠ Json.quote := by decide
  refine h.of_eq ?_
  intro ms hms
  by_cases digits : (hexUnit x y z w).isSome = true
  · rwa [marks_unit digits] at hms
  · rw [marks.eq_def] at hms
    simp [hne, digits] at hms

theorem marks_of_skipBlanks {bytes : List UInt8} {ms : Marks} (h : marks inside bytes = some ms) :
    marks inside (skipBlanks bytes) = some ms := by
  cases inside with
  | false => rwa [marks_skipBlanks]
  | true =>
    induction bytes with
    | nil => exact h
    | cons b rest ih =>
      by_cases blank : isBlankByte b = true
      · rw [skipBlanks, List.dropWhile_cons, if_pos blank]
        exact ih (marks_of_insidePlain (plain_of_blank blank) h)
      · rw [skipBlanks_cons_of_not (by simpa using blank)]
        exact h

theorem Descends.skipBlanks (h : Descends start inside place deeper) :
    Descends start inside (Json.skipBlanks place) deeper :=
  h.of_eq fun _ hms => marks_of_skipBlanks hms

theorem Descends.insideMark (h : Descends start true (b :: rest) deeper) (hb : isMark b = true) :
    Descends start true rest deeper :=
  h.of_eq fun _ hms => marks_of_insideMark hb hms

/-! ### Stops -/

/-- A reader that began `deeper` levels in stops at the end of the bytes, or no further out. -/
def Settles (start : List UInt8) (deeper : Nat) (s : Stop) : Prop :=
  (s.ok = false ∧ s.rest = []) ∨
    ∃ inside deeper', deeper ≤ deeper' ∧ Descends start inside s.rest deeper' ∧
      (s.ok = true → inside = false ∧ deeper' = deeper)

theorem settles_end : Settles start deeper (.at []) :=
  Or.inl ⟨rfl, rfl⟩

theorem Descends.settles_at (h : Descends start inside rest deeper) : Settles start deeper (.at rest) :=
  Or.inr ⟨inside, deeper, le_rfl, h, by simp [Stop.at]⟩

theorem Descends.settles_ok (h : Descends start false rest deeper) (ok : Bool) :
    Settles start deeper ⟨ok, rest⟩ :=
  Or.inr ⟨false, deeper, le_rfl, h, fun _ => ⟨rfl, rfl⟩⟩

/-! ### Strings -/

/-- After an escape a reader is inside of the string still, unless it failed. -/
def Resumes (start : List UInt8) (deeper : Nat) (s : Stop) : Prop :=
  (s.ok = false ∧ s.rest = []) ∨
    ∃ inside, Descends start inside s.rest deeper ∧ (s.ok = true → inside = true)

theorem Descends.resumes (h : Descends start true rest deeper) (ok : Bool) :
    Resumes start deeper ⟨ok, rest⟩ :=
  Or.inr ⟨true, h, fun _ => rfl⟩

theorem tryTrail_resumes (h : Descends start true place deeper) :
    Resumes start deeper (tryTrail place) := by
  unfold tryTrail
  split
  · next s u rest =>
    split
    · next hs =>
      subst hs
      split
      · next hu =>
        subst hu
        split
        · next a b c d rest =>
          split
          · exact h.unit.resumes _
          · exact h.unit.resumes false
        · exact Or.inl ⟨rfl, rfl⟩
      · next hu => exact (h.escape hu).resumes false
    · next hs =>
      -- The byte that is lost may be the one that ends the string.
      by_cases hquote : s = quote
      · subst hquote
        exact Or.inr ⟨false, h.endQuote, by simp [Stop.at]⟩
      · exact (h.ordinary hquote hs).resumes false
  · next short =>
    refine Or.inl ⟨rfl, ?_⟩
    match place, short with
    | [], _ => rfl
    | [s], _ => rfl
    | s :: u :: rest, short => exact absurd rfl (short s u rest)

theorem tryEscape_resumes (h : Descends start true (backslash :: place) deeper) :
    Resumes start deeper (tryEscape place) := by
  unfold tryEscape
  split
  · exact Or.inl ⟨rfl, rfl⟩
  · next e rest =>
    split
    · next he =>
      subst he
      split
      · next a b c d rest =>
        split
        · split
          · exact h.unit.resumes false
          · split
            · exact tryTrail_resumes h.unit
            · exact h.unit.resumes true
        · exact h.unit.resumes false
      · exact Or.inl ⟨rfl, rfl⟩
    · next he => exact (h.escape he).resumes _

theorem tryContent_settles (fuel : Nat) (h : Descends start true place deeper) :
    Settles start deeper (tryContent fuel place) := by
  induction fuel generalizing place with
  | zero => exact h.settles_at
  | succ fuel ih =>
    cases place with
    | nil => exact settles_end
    | cons b rest =>
      rw [tryContent]
      split
      · next hquote =>
        subst hquote
        exact h.endQuote.settles_ok true
      · next noQuote =>
        split
        · next hbackslash =>
          subst hbackslash
          dsimp only
          have after := tryEscape_resumes h
          cases hok : (tryEscape rest).ok with
          | true =>
            rcases after with ⟨failed, -⟩ | ⟨inside, place', intact⟩
            · rw [hok] at failed
              cases failed
            · cases intact hok
              exact ih place'
          | false =>
            rcases after with ended | ⟨inside, place', -⟩
            · exact Or.inl ended
            · exact Or.inr ⟨inside, deeper, le_rfl, place', by simp [hok]⟩
        · next noBackslash =>
          have next := h.ordinary noQuote noBackslash
          split
          · exact next.settles_at
          · exact ih next

theorem tryText_settles (h : Descends start true place deeper) :
    Settles start deeper ⟨(tryText place).1.isSome, (tryText place).2⟩ := by
  unfold tryText
  rcases tryContent_settles place.length h with ⟨failed, ended⟩ | ⟨inside, deeper', hle, place', intact⟩
  · exact Or.inl ⟨by simp [failed], ended⟩
  · refine Or.inr ⟨inside, deeper', hle, place', ?_⟩
    intro text
    refine intact ?_
    by_contra failed
    simp [failed] at text

/-! ### Numbers and scalars -/

theorem unreached_subset (limit n : Nat) (ds : List Nat) : unreached limit n ds ⊆ ds := by
  induction ds generalizing n with
  | nil => exact List.Subset.refl _
  | cons d ds ih =>
    rw [unreached]
    split
    · exact List.subset_cons_self d ds
    · exact List.Subset.trans (ih _) (List.subset_cons_self d ds)

theorem lt_ten_of_mem_digitList {n d : Nat} (h : d ∈ digitList n) : d < 10 := by
  obtain ⟨c, hc, rfl⟩ := List.mem_map.mp h
  have digit : c.isDigit = true := Nat.isDigit_of_mem_toDigits (by omega) (by omega) hc
  simp only [Char.isDigit, Bool.and_eq_true, decide_eq_true_eq] at digit
  have hle : c.toNat ≤ 57 := digit.2
  show c.toNat - 48 < 10
  omega

/-- The digits of an exponent that were not reached are read again as plain bytes. -/
theorem plainUpTo_digits {ds : List Nat} (h : ∀ d ∈ ds, d < 10) (rest : List UInt8) :
    PlainUpTo (ds.map (fun d => UInt8.ofNat (48 + d)) ++ rest) rest := by
  have hplain : ∀ d : Fin 10, isPlain (UInt8.ofNat (48 + d)) = true := by decide
  refine ⟨_, rfl, ?_⟩
  intro b hb
  obtain ⟨d, hd, rfl⟩ := List.mem_map.mp hb
  exact hplain ⟨d, h d hd⟩

theorem tryNumber_settles (h : Descends start false place deeper) :
    Settles start deeper (tryNumber place) := by
  unfold tryNumber
  split
  · exact settles_end
  · next n rest read =>
    have after := h.plainUpTo (plainUpTo_readNumber read)
    split
    · exact after.settles_ok true
    · have digits : ∀ d ∈ unreached Text.maxInt32 0 (digitList (n.exponent.getD 0).natAbs), d < 10 := by
        intro d hd
        exact lt_ten_of_mem_digitList (unreached_subset _ _ _ hd)
      have again : Descends start false _ deeper :=
        after.of_eq fun _ hms => (marks_of_plainUpTo (plainUpTo_digits digits rest)).trans hms
      exact again.settles_at

theorem tryScalar_settles (h : Descends start false place deeper) :
    Settles start deeper (tryScalar place) := by
  unfold tryScalar
  cases place with
  | nil => exact settles_end
  | cons b rest =>
    dsimp only
    split
    · next hquote =>
      subst hquote
      exact tryText_settles h.quote
    · next noQuote =>
      split
      · exact tryNumber_settles h
      · split
        · next v rest' read =>
          rcases readScalar_cases read with ⟨content, inner, heq, -⟩ | plain
          · exact absurd (List.head_eq_of_cons_eq heq) noQuote
          · exact (h.plainUpTo plain).settles_ok true
        · exact h.settles_at

/-! ### Lists and records -/

theorem Descends.settles_closing {ok : Bool} (h : Descends start inside (b :: rest) deeper)
    {deeper' : Nat} (hle : deeper' + 1 ≤ deeper) (hb : isClosing b = true)
    (intact : ok = true → inside = false ∧ deeper = deeper' + 1) : Settles start deeper' ⟨ok, rest⟩ := by
  cases inside with
  | true =>
    refine Or.inr ⟨true, deeper, by omega, h.insideMark (mark_of_closing hb), ?_⟩
    intro hok
    cases (intact hok).1
  | false =>
    obtain ⟨k, rfl⟩ : ∃ k, deeper = k + 1 := ⟨deeper - 1, by omega⟩
    refine Or.inr ⟨false, k, by omega, h.closing hb, ?_⟩
    intro hok
    exact ⟨rfl, Nat.succ.inj (intact hok).2⟩

theorem Descends.settles_out (h : Descends start inside rest deeper) {deeper' : Nat}
    (hle : deeper' ≤ deeper) : Settles start deeper' (.at rest) :=
  Or.inr ⟨inside, deeper, hle, h, by simp [Stop.at]⟩

theorem closeList_settles {s : Stop} (h : Settles start (deeper + 1) s) :
    Settles start deeper (closeList s) := by
  unfold closeList
  rcases h with ⟨-, ended⟩ | ⟨inside, deeper', hle, place', intact⟩
  · rw [ended]
    exact settles_end
  · have after := place'.skipBlanks
    split
    · exact settles_end
    · next b rest hrest =>
      rw [hrest] at after
      split
      · next closing =>
        subst closing
        exact after.settles_closing hle (by decide) intact
      · split
        · next comma =>
          subst comma
          cases inside with
          | true => exact (after.insideMark (by decide)).skipBlanks.settles_out (by omega)
          | false =>
            obtain ⟨k, rfl⟩ : ∃ k, deeper' = k + 1 := ⟨deeper' - 1, by omega⟩
            exact after.comma.skipBlanks.settles_out (by omega)
        · exact after.settles_out (by omega)

theorem closeRecord_settles {s : Stop} (h : Settles start (deeper + 1) s) :
    Settles start deeper (closeRecord s) := by
  unfold closeRecord
  rcases h with ⟨-, ended⟩ | ⟨inside, deeper', hle, place', intact⟩
  · rw [ended]
    exact settles_end
  · have after := place'.skipBlanks
    split
    · exact settles_end
    · next b rest hrest =>
      rw [hrest] at after
      split
      · next closing =>
        subst closing
        exact after.settles_closing hle (by decide) intact
      · exact after.settles_out (by omega)

/-- Inside of a list or record, going on to the next part stays there. -/
theorem nextPart_settles (close : UInt8) (first : Bool) (h : Descends start false place (deeper + 1)) :
    match nextPart close first place with
    | .error s => Settles start (deeper + 1) s
    | .ok part => Descends start false part (deeper + 1) := by
  have after := h.skipBlanks
  unfold nextPart
  cases hplace : Json.skipBlanks place with
  | nil => exact settles_end
  | cons b rest =>
    rw [hplace] at after
    dsimp only
    by_cases closing : b = close
    · rw [if_pos closing]
      exact after.settles_ok true
    · rw [if_neg closing]
      cases first with
      | true => exact after
      | false =>
        by_cases comma : b = ','.toUInt8
        · subst comma
          have next := after.comma.skipBlanks
          rw [if_neg (by simp), if_pos rfl]
          cases hrest : Json.skipBlanks rest with
          | nil => exact settles_end
          | cons c after' =>
            rw [hrest] at next
            dsimp only
            split
            · next s hs =>
              split at hs
              · cases hs
                exact next.settles_at
              · cases hs
            · next part hs =>
              split at hs
              · cases hs
              · cases hs
                exact next
        · rw [if_neg (by simp), if_neg comma]
          exact after.settles_at

theorem tryColon_settles (h : Descends start false place deeper) :
    Settles start deeper (tryColon place) := by
  have after := h.skipBlanks
  unfold tryColon
  split
  · exact settles_end
  · next b rest hplace =>
    rw [hplace] at after
    split
    · next colon =>
      subst colon
      exact (after.plain (by decide)).settles_ok true
    · exact after.settles_at

theorem tryKey_settles (h : Descends start false place deeper) :
    Settles start deeper ⟨(tryKey place).1.isSome, (tryKey place).2⟩ := by
  unfold tryKey
  cases place with
  | nil => exact settles_end
  | cons b rest =>
    dsimp only
    split
    · next hquote =>
      subst hquote
      have text := tryText_settles h.quote
      split
      · next name rest' htext =>
        rw [htext] at text
        rcases text with ⟨failed, -⟩ | ⟨inside, deeper', -, place', intact⟩
        · cases failed
        · obtain ⟨rfl, rfl⟩ := intact rfl
          have colon := tryColon_settles place'
          cases hok : (tryColon rest').ok with
          | true => simpa [hok, Settles] using colon
          | false => simpa [hok, Settles] using colon
      · next rest' htext =>
        rw [htext] at text
        exact text
    · exact h.settles_at

theorem try_settles (fuel : Nat) :
    (∀ {deeper : Nat} {place : List UInt8} (depth : Nat), Descends start false place deeper →
      Settles start deeper (tryValue fuel depth place)) ∧
    (∀ {deeper : Nat} {place : List UInt8} (depth : Nat) (first : Bool),
      Descends start false place (deeper + 1) →
      Settles start (deeper + 1) (tryItems fuel depth first place)) ∧
    ∀ {deeper : Nat} {place : List UInt8} (depth : Nat) (first : Bool),
      Descends start false place (deeper + 1) →
      Settles start (deeper + 1) (tryFields fuel depth first place) := by
  induction fuel with
  | zero => exact ⟨fun _ h => h.settles_at, fun _ _ h => h.settles_at, fun _ _ h => h.settles_at⟩
  | succ fuel ih =>
    obtain ⟨ihValue, ihItems, ihFields⟩ := ih
    refine ⟨?_, ?_, ?_⟩
    · intro deeper place depth h
      have after := h.skipBlanks
      rw [tryValue]
      split
      · exact settles_end
      · next b rest hplace =>
        rw [hplace] at after
        split
        · next list =>
          subst list
          split
          · exact after.settles_at
          · exact closeList_settles (ihItems _ true (after.opening (by decide)))
        · split
          · next record =>
            subst record
            split
            · exact after.settles_at
            · exact closeRecord_settles (ihFields _ true (after.opening (by decide)))
          · exact tryScalar_settles after
    · intro deeper place depth first h
      have next := nextPart_settles ']'.toUInt8 first h
      rw [tryItems]
      split
      · next s hs =>
        rw [hs] at next
        exact next
      · next part hs =>
        rw [hs] at next
        have value := ihValue depth next
        dsimp only
        -- Another item is tried only after one that ended on the level of the list.
        cases hok : (tryValue fuel depth part).ok with
        | true =>
          rcases value with ⟨failed, -⟩ | ⟨inside, deeper', -, place', intact⟩
          · rw [hok] at failed
            cases failed
          · obtain ⟨rfl, rfl⟩ := intact hok
            exact ihItems depth false place'
        | false => exact value
    · intro deeper place depth first h
      have next := nextPart_settles '\x7d'.toUInt8 first h
      rw [tryFields]
      split
      · next s hs =>
        rw [hs] at next
        exact next
      · next part hs =>
        rw [hs] at next
        have key := tryKey_settles next
        split
        · next rest hkey =>
          rw [hkey] at key
          exact key
        · next name rest hkey =>
          rw [hkey] at key
          rcases key with ⟨failed, -⟩ | ⟨inside, deeper', -, place', intact⟩
          · cases failed
          · obtain ⟨rfl, rfl⟩ := intact rfl
            have value := ihValue depth place'
            dsimp only
            cases hok : (tryValue fuel depth rest).ok with
            | true =>
              rcases value with ⟨failed, -⟩ | ⟨inside, deeper'', -, place'', intact'⟩
              · rw [hok] at failed
                cases failed
              · obtain ⟨rfl, rfl⟩ := intact' hok
                exact ihFields depth false place''
            | false => exact value

theorem attempt_settles (bytes : List UInt8) : Settles bytes 0 (attempt bytes) :=
  (try_settles _).1 _ (.refl bytes)

end DirectoryGateway.Json
