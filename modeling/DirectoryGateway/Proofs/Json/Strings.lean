import DirectoryGateway.Json.Attempt
import DirectoryGateway.Proofs.Encoding.Text
import DirectoryGateway.Proofs.Json.Marks

/-!
# Strings, seen from inside and outside

What an attempt takes for a string is one to the reader too. A reader that goes on inside of a string takes what lies between
strings for their contents, and stays in this error: it never comes to stand outside of them by reading whole values.
-/

namespace DirectoryGateway.Json

/-! ### Attempts at strings -/

/-- An escape that an attempt passes is one that the reader takes into the content. -/
def Escapes (place rest : List UInt8) : Prop :=
  ∃ escaped, place = escaped ++ rest ∧ ∀ content after, readContent rest = some (content, after) →
    readContent (backslash :: place) = some (backslash :: escaped ++ content, after)

theorem escapes_letter {e : UInt8} (unit : e ≠ 'u'.toUInt8) (known : (escapeValue e).isSome = true)
    (rest : List UInt8) : Escapes (e :: rest) rest := by
  have hne : backslash ≠ quote := by decide
  refine ⟨[e], rfl, ?_⟩
  intro content after h
  rw [readContent.eq_def]
  simp [hne, unit, known, h]

theorem escapes_unit {x y z w : UInt8} (digits : (hexUnit x y z w).isSome = true) (rest : List UInt8) :
    Escapes ('u'.toUInt8 :: x :: y :: z :: w :: rest) rest := by
  have hne : backslash ≠ quote := by decide
  refine ⟨['u'.toUInt8, x, y, z, w], rfl, ?_⟩
  intro content after h
  rw [readContent.eq_def]
  simp [hne, digits, h]

theorem Escapes.trans {place rest rest' : List UInt8} (h : Escapes place (backslash :: rest))
    (h' : Escapes rest rest') : Escapes place rest' := by
  obtain ⟨escaped, rfl, read⟩ := h
  obtain ⟨escaped', rfl, read'⟩ := h'
  refine ⟨escaped ++ backslash :: escaped', by simp, ?_⟩
  intro content after hcontent
  rw [read _ _ (read' _ _ hcontent)]
  simp

theorem tryTrail_ok {place : List UInt8} (h : (tryTrail place).ok = true) :
    ∃ rest, place = backslash :: rest ∧ Escapes rest (tryTrail place).rest := by
  unfold tryTrail at h ⊢
  split at h
  · next s u rest =>
    split at h
    · next hs =>
      split at h
      · next hu =>
        split at h
        · next a b c d rest =>
          split at h
          · next m digits =>
            have unit : Escapes ('u'.toUInt8 :: a :: b :: c :: d :: rest) rest :=
              escapes_unit (by simp [digits]) rest
            subst hs hu
            exact ⟨_, rfl, by simpa [digits] using unit⟩
          · cases h
        · cases h
      · cases h
    · cases h
  · cases h

theorem tryEscape_ok {place : List UInt8} (h : (tryEscape place).ok = true) :
    Escapes place (tryEscape place).rest := by
  unfold tryEscape at h ⊢
  split at h
  · cases h
  · next e rest =>
    split at h
    · next he =>
      subst he
      split at h
      · next a b c d rest =>
        split at h
        · next n digits =>
          have unit : Escapes ('u'.toUInt8 :: a :: b :: c :: d :: rest) rest :=
            escapes_unit (by simp [digits]) rest
          split at h
          · cases h
          · next noTrail =>
            split at h
            · next lead =>
              obtain ⟨rest', hrest, escapes⟩ := tryTrail_ok h
              rw [hrest] at unit
              have joined : Escapes ('u'.toUInt8 :: a :: b :: c :: d :: rest) (tryTrail rest).rest := by
                rw [hrest] at escapes ⊢
                exact unit.trans escapes
              simpa [digits, noTrail, lead] using joined
            · next noLead => simpa [digits, noTrail, noLead] using unit
        · cases h
      · cases h
    · next unit => simpa [unit] using escapes_letter unit h rest

theorem tryContent_ok {fuel : Nat} {bytes : List UInt8} (h : (tryContent fuel bytes).ok = true) :
    ∃ content, bytes = content ++ quote :: (tryContent fuel bytes).rest ∧
      readContent bytes = some (content, (tryContent fuel bytes).rest) := by
  induction fuel generalizing bytes with
  | zero => cases h
  | succ fuel ih =>
    cases bytes with
    | nil => cases h
    | cons b rest =>
      rw [tryContent] at h ⊢
      by_cases hquote : b = quote
      · subst hquote
        refine ⟨[], by simp, ?_⟩
        rw [readContent.eq_def]
        simp
      · rw [if_neg hquote] at h ⊢
        by_cases hbackslash : b = backslash
        · subst hbackslash
          rw [if_pos rfl] at h ⊢
          dsimp only at h ⊢
          cases escape : (tryEscape rest).ok with
          | false =>
            rw [escape, if_neg (by simp), escape] at h
            cases h
          | true =>
            rw [escape, if_pos rfl] at h
            rw [if_pos rfl]
            obtain ⟨escaped, hrest, read⟩ := tryEscape_ok escape
            obtain ⟨content, hsplit, hread⟩ := ih h
            refine ⟨backslash :: escaped ++ content, ?_, read _ _ hread⟩
            rw [List.append_assoc, ← hsplit, List.cons_append, ← hrest]
        · rw [if_neg hbackslash] at h ⊢
          by_cases control : b.toNat < 32
          · rw [if_pos control] at h
            cases h
          · rw [if_neg control] at h ⊢
            obtain ⟨content, hsplit, hread⟩ := ih h
            refine ⟨b :: content, by rw [List.cons_append, ← hsplit], ?_⟩
            rw [readContent.eq_def]
            simp [hquote, hbackslash, control, hread]

theorem tryText_some {bytes rest : List UInt8} {name : String} (h : tryText bytes = (some name, rest)) :
    ∃ content, readContent bytes = some (content, rest) ∧ decode? content = some name := by
  unfold tryText at h
  obtain ⟨hname, hrest⟩ := Prod.mk.inj h
  split at hname
  · next ok =>
    obtain ⟨content, hsplit, hread⟩ := tryContent_ok ok
    rw [hrest] at hsplit hread hname
    refine ⟨content, hread, ?_⟩
    have hlength : bytes.length - rest.length - 1 = content.length := by
      rw [hsplit, List.length_append, List.length_cons]
      omega
    rw [hlength, hsplit, List.take_left] at hname
    exact hname
  · cases hname

theorem tryKey_some {part start : List UInt8} {name : String} (h : tryKey part = (some name, start)) :
    ∃ key colon, readString part = some (key, colon) ∧ decode? key = some name ∧
      skipBlanks colon = ':'.toUInt8 :: start := by
  unfold tryKey at h
  split at h
  · cases h
  · next b rest =>
    split at h
    · next hquote =>
      split at h
      · next name' colon htext =>
        obtain ⟨key, hread, hdecode⟩ := tryText_some htext
        unfold tryColon at h
        split at h
        · cases h
        · next c rest' hcolon =>
          split at h
          · next hc =>
            subst hc
            cases h
            exact ⟨key, colon, by rw [readString, if_pos hquote, hread], hdecode, hcolon⟩
          · cases h
      · cases h
    · cases h

/-! ### Contents without escapes -/

/-- Whether a byte may stand outside of strings at all. -/
def isOutside (b : UInt8) : Bool :=
  isMark b || isPlain b

theorem unescape_of_outside {content : List UInt8} (h : ∀ b ∈ content, isOutside b = true) :
    unescape content = some content := by
  have hne : ∀ b, isOutside b = true → b ≠ backslash := by
    intro b hb
    rcases Bool.or_eq_true_iff.mp hb with mark | plain
    · exact (mark_apart mark).2
    · exact (plain_apart plain).2.1
  induction content with
  | nil => rfl
  | cons b rest ih =>
    rw [unescape.eq_def]
    simp [hne b (h b List.mem_cons_self), ih fun c hc => h c (List.mem_cons_of_mem _ hc)]

theorem ofText_of_outside {content : List UInt8} {name : String} (h : ∀ b ∈ content, isOutside b = true)
    (hname : decode? content = some name) : Bytes.ofText name = content := by
  rw [decode?, unescape_of_outside h] at hname
  exact Bytes.ofText_of_toText? hname

/-! ### Readers that stand inside of a string -/

/-- A place inside of a string of a document. -/
def Inside (bytes : List UInt8) : Prop :=
  (marks true bytes).isSome = true

theorem Inside.outsideByte {b : UInt8} {rest : List UInt8} (h : Inside (b :: rest))
    (hb : isOutside b = true) : Inside rest := by
  obtain ⟨ms, hms⟩ := Option.isSome_iff_exists.mp h
  rcases Bool.or_eq_true_iff.mp hb with mark | plain
  · exact Option.isSome_iff_exists.mpr ⟨ms, marks_of_insideMark mark hms⟩
  · exact Option.isSome_iff_exists.mpr ⟨ms, marks_of_insidePlain plain hms⟩

theorem Inside.plainUpTo {bytes rest : List UInt8} (h : Inside bytes) (plain : PlainUpTo bytes rest) :
    Inside rest := by
  obtain ⟨taken, rfl, hplain⟩ := plain
  induction taken with
  | nil => exact h
  | cons b taken ih =>
    have hb : isOutside b = true := by
      simp [isOutside, hplain b List.mem_cons_self]
    exact ih (fun c hc => hplain c (List.mem_cons_of_mem _ hc)) (h.outsideByte hb)

theorem Inside.skipBlanks {bytes : List UInt8} (h : Inside bytes) : Inside (Json.skipBlanks bytes) :=
  h.plainUpTo (plainUpTo_skipBlanks bytes)

/-- Blanks alone do not end a string. -/
theorem not_inside_of_blank {bytes : List UInt8} (h : skipBlanks bytes = []) : ¬ Inside bytes := by
  intro inside
  have := inside.skipBlanks
  rw [h] at this
  cases this

/-- To a reader inside of a string, the next string is what lies outside up to the one after. -/
theorem inside_of_readContent {bytes content after : List UInt8}
    (lexed : (marks false bytes).isSome = true) (h : readContent bytes = some (content, after)) :
    Inside after ∧ ∀ b ∈ content, isOutside b = true := by
  have hbackslash : isMark backslash = false ∧ isPlain backslash = false := by decide
  have hne : backslash ≠ quote := by decide
  -- There is no backslash outside of strings, so what is read here has no escapes.
  have stuck : ∀ rest, ¬ (marks false (backslash :: rest)).isSome = true := by
    intro rest
    simp [marks, hbackslash, hne]
  induction bytes generalizing content with
  | nil => cases h
  | cons b rest ih =>
    by_cases hquote : b = quote
    · subst hquote
      rw [readContent.eq_def] at h
      simp only [if_pos, Option.some.injEq, Prod.mk.injEq] at h
      obtain ⟨rfl, rfl⟩ := h
      rw [marks_quote] at lexed
      exact ⟨lexed, by simp⟩
    · by_cases hb : b = backslash
      · subst hb
        exact absurd lexed (stuck rest)
      · have step : isOutside b = true ∧ (marks false rest).isSome = true := by
          rw [marks, if_neg hquote] at lexed
          split at lexed
          · next mark => exact ⟨by simp [isOutside, mark], by simpa using lexed⟩
          · split at lexed
            · next plain => exact ⟨by simp [isOutside, plain], lexed⟩
            · cases lexed
        rw [readContent.eq_def] at h
        simp only [hquote, hb, if_false] at h
        split at h
        · cases h
        · split at h
          · next content' after' hread =>
            cases h
            obtain ⟨inside, outside⟩ := ih step.2 hread
            refine ⟨inside, ?_⟩
            intro c hc
            rcases List.mem_cons.mp hc with rfl | hmem
            · exact step.1
            · exact outside c hmem
          · cases h

theorem Inside.readString {bytes key rest : List UInt8} (h : Inside bytes)
    (read : Json.readString bytes = some (key, rest)) :
    Inside rest ∧ ∀ b ∈ key, isOutside b = true := by
  cases bytes with
  | nil => cases read
  | cons b inner =>
    rw [Json.readString] at read
    split at read
    · next hquote =>
      subst hquote
      rw [Inside, marks_endQuote] at h
      exact inside_of_readContent h read
    · cases read

theorem Inside.readScalar {bytes rest : List UInt8} {v : Json} (h : Inside bytes)
    (read : Json.readScalar bytes = some (v, rest)) : Inside rest := by
  rcases readScalar_cases read with ⟨content, inner, rfl, hread, -⟩ | plain
  · rw [Inside, marks_endQuote] at h
    exact (inside_of_readContent h hread).1
  · exact h.plainUpTo plain

theorem Inside.next {bytes rest : List UInt8} {b : UInt8} (h : Inside bytes)
    (hbytes : Json.skipBlanks bytes = b :: rest) (hb : isOutside b = true) : Inside rest := by
  have := h.skipBlanks
  rw [hbytes] at this
  exact this.outsideByte hb

theorem read_inside (fuel : Nat) :
    (∀ {bytes rest : List UInt8} {v : Json}, readValue fuel bytes = some (v, rest) → Inside bytes →
      Inside rest) ∧
    (∀ {bytes rest : List UInt8} {items : List Json}, readItems fuel bytes = some (items, rest) →
      Inside bytes → Inside rest) ∧
    ∀ {bytes rest : List UInt8} {fields : List (List UInt8 × Json)},
      readFields fuel bytes = some (fields, rest) → Inside bytes → Inside rest := by
  have hopenList : isOutside '['.toUInt8 = true := by decide
  have hcloseList : isOutside ']'.toUInt8 = true := by decide
  have hopenRecord : isOutside '\x7b'.toUInt8 = true := by decide
  have hcloseRecord : isOutside '\x7d'.toUInt8 = true := by decide
  have hcomma : isOutside ','.toUInt8 = true := by decide
  have hcolon : isOutside ':'.toUInt8 = true := by decide
  induction fuel with
  | zero =>
    refine ⟨?_, ?_, ?_⟩
    · intro bytes rest v h
      cases h
    · intro bytes rest items h
      cases h
    · intro bytes rest fields h
      cases h
  | succ fuel ih =>
    obtain ⟨ihValue, ihItems, ihFields⟩ := ih
    refine ⟨?_, ?_, ?_⟩
    · intro bytes rest v h inside
      cases readValue_iff.mp h with
      | emptyList opening closing => exact (inside.next opening hopenList).next closing hcloseList
      | list opening filled read => exact ihItems read (inside.next opening hopenList).skipBlanks
      | emptyRecord opening closing =>
        exact (inside.next opening hopenRecord).next closing hcloseRecord
      | record opening filled read => exact ihFields read (inside.next opening hopenRecord).skipBlanks
      | scalar noList noRecord read => exact inside.skipBlanks.readScalar read
    · intro bytes rest items h inside
      cases readItems_iff.mp h with
      | last read closing => exact (ihValue read inside).next closing hcloseList
      | more read comma tail => exact ihItems tail ((ihValue read inside).next comma hcomma)
    · intro bytes rest fields h inside
      cases readFields_iff.mp h with
      | last key_ between read closing =>
        have start := (inside.skipBlanks.readString key_).1.next between hcolon
        exact (ihValue read start).next closing hcloseRecord
      | more key_ between read comma tail =>
        have start := (inside.skipBlanks.readString key_).1.next between hcolon
        exact ihFields tail ((ihValue read start).next comma hcomma)

end DirectoryGateway.Json
