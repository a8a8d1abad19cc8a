import DirectoryGateway.Proofs.Json.Reading

/-!
# Brackets and commas of a document

The marks of a document are the brackets and commas outside of its strings. They are found without reading any value, so
they can be compared wherever in a document a reader stands: what a value takes up is balanced, and the place where the
list or record around a reader ends can be told from the marks that are left.
-/

namespace DirectoryGateway.Json

/-! ### Marks -/

/-- Brackets and commas, each with the bytes after it. -/
abbrev Marks := List (UInt8 × List UInt8)

/-- The marks to the end of a document, from a place outside or inside of a string; nothing if some bytes may not stand
where they are. -/
def marks : (inside : Bool) → List UInt8 → Option Marks
  | false, [] => some []
  | true, [] => none
  | false, b :: rest =>
    if b = quote then marks true rest
    else if isMark b then (marks false rest).map ((b, rest) :: ·)
    else if isPlain b then marks false rest
    else none
  | true, b :: rest =>
    if b = quote then marks false rest
    else if b = backslash then
      match rest with
      | e :: rest =>
        if e = 'u'.toUInt8 then
          match rest with
          | x :: y :: z :: w :: rest => if (hexUnit x y z w).isSome then marks true rest else none
          | _ => none
        else if (escapeValue e).isSome then marks true rest
        else none
      | [] => none
    else if b.toNat < 32 then none
    else marks true rest

/-- Where the list or record `above` levels further out is closed, or, with `comma`, where it goes on. -/
def boundary (comma : Bool) : (above : Nat) → Marks → Option (List UInt8)
  | _, [] => none
  | above, (b, rest) :: ms =>
    if isOpening b then boundary comma (above + 1) ms
    else if isClosing b then
      if above = 0 then some (b :: rest) else boundary comma (above - 1) ms
    else if comma && above == 0 then some (b :: rest)
    else boundary comma above ms

theorem marks_quote (rest : List UInt8) : marks false (quote :: rest) = marks true rest := by
  rw [marks, if_pos rfl]

theorem marks_mark {b : UInt8} (h : isMark b = true) (rest : List UInt8) :
    marks false (b :: rest) = (marks false rest).map ((b, rest) :: ·) := by
  rw [marks, if_neg (mark_apart h).1, if_pos h]

theorem marks_plain {b : UInt8} (h : isPlain b = true) (rest : List UInt8) :
    marks false (b :: rest) = marks false rest := by
  rw [marks, if_neg (plain_apart h).1, if_neg (by simp [(plain_apart h).2.2]), if_pos h]

theorem marks_of_plainUpTo {bytes rest : List UInt8} (h : PlainUpTo bytes rest) :
    marks false bytes = marks false rest := by
  obtain ⟨taken, rfl, plain⟩ := h
  induction taken with
  | nil => rfl
  | cons b taken ih =>
    rw [List.cons_append, marks_plain (plain b List.mem_cons_self),
      ih fun c hc => plain c (List.mem_cons_of_mem _ hc)]

theorem plainUpTo_skipBlanks (bytes : List UInt8) : PlainUpTo bytes (skipBlanks bytes) := by
  refine ⟨bytes.takeWhile isBlankByte, (List.takeWhile_append_dropWhile).symm, ?_⟩
  intro b hb
  exact plain_of_blank (List.mem_takeWhile_imp hb)

@[simp] theorem marks_skipBlanks (bytes : List UInt8) :
    marks false (skipBlanks bytes) = marks false bytes :=
  (marks_of_plainUpTo (plainUpTo_skipBlanks bytes)).symm

theorem marks_of_skipBlanks_nil {bytes : List UInt8} (h : skipBlanks bytes = []) :
    marks false bytes = some [] := by
  rw [← marks_skipBlanks, h]
  rfl

theorem marks_endQuote (rest : List UInt8) : marks true (quote :: rest) = marks false rest := by
  rw [marks.eq_def]
  simp

theorem marks_escape {e : UInt8} (unit : e ≠ 'u'.toUInt8) (known : (escapeValue e).isSome = true)
    (rest : List UInt8) : marks true (backslash :: e :: rest) = marks true rest := by
  have hne : backslash ≠ quote := by decide
  rw [marks.eq_def]
  simp [hne, unit, known]

theorem marks_unit {x y z w : UInt8} (digits : (hexUnit x y z w).isSome = true) (rest : List UInt8) :
    marks true (backslash :: 'u'.toUInt8 :: x :: y :: z :: w :: rest) = marks true rest := by
  have hne : backslash ≠ quote := by decide
  rw [marks.eq_def]
  simp [hne, digits]

theorem marks_ordinary {b : UInt8} (noQuote : b ≠ quote) (noBackslash : b ≠ backslash)
    (noControl : ¬ b.toNat < 32) (rest : List UInt8) : marks true (b :: rest) = marks true rest := by
  rw [marks.eq_def]
  simp [noQuote, noBackslash, noControl]

/-- What follows an ordinary byte of a string is inside of the string, if the byte is. -/
theorem marks_of_ordinary {b : UInt8} {rest : List UInt8} {ms : Marks} (noQuote : b ≠ quote)
    (noBackslash : b ≠ backslash) (h : marks true (b :: rest) = some ms) :
    marks true rest = some ms := by
  by_cases control : b.toNat < 32
  · rw [marks.eq_def] at h
    simp [noQuote, noBackslash, control] at h
  · rwa [marks_ordinary noQuote noBackslash control] at h

theorem marks_of_insidePlain {b : UInt8} {rest : List UInt8} {ms : Marks} (plain : isPlain b = true)
    (h : marks true (b :: rest) = some ms) : marks true rest = some ms :=
  marks_of_ordinary (plain_apart plain).1 (plain_apart plain).2.1 h

theorem marks_of_insideMark {b : UInt8} {rest : List UInt8} {ms : Marks} (mark : isMark b = true)
    (h : marks true (b :: rest) = some ms) : marks true rest = some ms :=
  marks_of_ordinary (mark_apart mark).1 (mark_apart mark).2 h

theorem marks_of_readContent {bytes content after : List UInt8}
    (h : readContent bytes = some (content, after)) : marks true bytes = marks false after := by
  fun_induction readContent bytes generalizing content after <;>
    simp_all [marks_endQuote, marks_escape, marks_unit, marks_ordinary]

/-! ### Balanced marks -/

/-- Marks that open as much as they close, and neither close nor separate anything around them. -/
def Balanced (ms : Marks) : Prop :=
  ∀ comma above later, boundary comma above (ms ++ later) = boundary comma above later

/-- Marks up to and with the end of the list or record around them. -/
structure Closing (ms : Marks) : Prop where
  out : ∀ comma above later, boundary comma (above + 1) (ms ++ later) = boundary comma above later
  ends : ∀ later, (boundary false 0 (ms ++ later)).isSome = true

/-- Between two places there are these marks. -/
def Across (bytes rest : List UInt8) (between : Marks) : Prop :=
  marks false bytes = (marks false rest).map (between ++ ·)

theorem Across.of_eq {bytes rest : List UInt8} (h : marks false bytes = marks false rest) :
    Across bytes rest [] := by
  simp [Across, h]

theorem Across.mark {b : UInt8} (h : isMark b = true) (rest : List UInt8) :
    Across (b :: rest) rest [(b, rest)] := by
  rw [Across, marks_mark h]
  rfl

theorem Across.trans {bytes rest rest' : List UInt8} {between between' : Marks}
    (h : Across bytes rest between) (h' : Across rest rest' between') :
    Across bytes rest' (between ++ between') := by
  rw [Across, h, h', Option.map_map]
  congr 1
  funext ms
  simp

theorem Across.skipBlanks_left {bytes rest : List UInt8} {between : Marks}
    (h : Across (skipBlanks bytes) rest between) : Across bytes rest between := by
  rwa [Across, marks_skipBlanks] at h

theorem Across.of_mark {b : UInt8} {bytes rest : List UInt8} (h : isMark b = true)
    (hbytes : skipBlanks bytes = b :: rest) : Across bytes rest [(b, rest)] := by
  refine Across.skipBlanks_left ?_
  rw [hbytes]
  exact .mark h rest

theorem balanced_nil : Balanced [] :=
  fun _ _ _ => rfl

theorem boundary_opening {b : UInt8} (h : isOpening b = true) (comma : Bool) (above : Nat)
    (rest : List UInt8) (ms : Marks) :
    boundary comma above ((b, rest) :: ms) = boundary comma (above + 1) ms := by
  rw [boundary, if_pos h]

theorem boundary_closing {b : UInt8} (h : isClosing b = true) (comma : Bool) (above : Nat)
    (rest : List UInt8) (ms : Marks) :
    boundary comma (above + 1) ((b, rest) :: ms) = boundary comma above ms := by
  rw [boundary, if_neg (by simp [closing_not_opening h]), if_pos h, if_neg (Nat.succ_ne_zero above),
    Nat.add_sub_cancel]

theorem boundary_end {b : UInt8} (h : isClosing b = true) (comma : Bool) (rest : List UInt8)
    (ms : Marks) : boundary comma 0 ((b, rest) :: ms) = some (b :: rest) := by
  rw [boundary, if_neg (by simp [closing_not_opening h]), if_pos h, if_pos rfl]

theorem boundary_comma (comma : Bool) (above : Nat) (rest : List UInt8) (ms : Marks) :
    boundary comma above ((','.toUInt8, rest) :: ms) =
      if comma = true ∧ above = 0 then some (','.toUInt8 :: rest) else boundary comma above ms := by
  have hopen : isOpening ','.toUInt8 = false := by decide
  have hclose : isClosing ','.toUInt8 = false := by decide
  rw [boundary, if_neg (by simp [hopen]), if_neg (by simp [hclose])]
  simp

theorem boundary_over_comma {comma : Bool} {above : Nat} (h : comma = false ∨ above ≠ 0)
    (rest : List UInt8) (ms : Marks) :
    boundary comma above ((','.toUInt8, rest) :: ms) = boundary comma above ms := by
  rw [boundary_comma, if_neg]
  rintro ⟨rfl, rfl⟩
  simp at h

theorem Closing.opened {b : UInt8} (h : isOpening b = true) (rest : List UInt8) {ms : Marks}
    (hms : Closing ms) : Balanced ((b, rest) :: ms) := by
  intro comma above later
  rw [List.cons_append, boundary_opening h, hms.out]

theorem closing_single {b : UInt8} (h : isClosing b = true) (rest : List UInt8) :
    Closing [(b, rest)] where
  out comma above later := boundary_closing h comma above rest later
  ends later := by rw [List.singleton_append, boundary_end h, Option.isSome_some]

theorem Balanced.append_closing {ms ms' : Marks} (h : Balanced ms) (h' : Closing ms') :
    Closing (ms ++ ms') where
  out comma above later := by rw [List.append_assoc, h, h'.out]
  ends later := by rw [List.append_assoc, h, h'.ends]

theorem Closing.after_comma {ms : Marks} (h : Closing ms) (rest : List UInt8) :
    Closing ((','.toUInt8, rest) :: ms) where
  out comma above later := by
    rw [List.cons_append, boundary_over_comma (Or.inr (by omega)), h.out]
  ends later := by rw [List.cons_append, boundary_over_comma (Or.inl rfl), h.ends]

/-- What stands between an opening bracket and its partner, both included. -/
theorem balanced_bracket {b : UInt8} {bytes inner rest : List UInt8} {between : Marks}
    (hb : isOpening b = true) (opening : skipBlanks bytes = b :: inner) (closing : Closing between)
    (across : Across (skipBlanks inner) rest between) :
    ∃ between, Balanced between ∧ Across bytes rest between :=
  ⟨(b, inner) :: between, closing.opened hb inner,
    (Across.of_mark (mark_of_opening hb) opening).trans across.skipBlanks_left⟩

theorem balanced_empty {b c : UInt8} {bytes inner rest : List UInt8} (hb : isOpening b = true)
    (hc : isClosing c = true) (opening : skipBlanks bytes = b :: inner)
    (closing : skipBlanks inner = c :: rest) :
    ∃ between, Balanced between ∧ Across bytes rest between := by
  refine balanced_bracket hb opening (closing_single hc rest) ?_
  rw [closing]
  exact .mark (mark_of_closing hc) rest

/-! ### What is read is balanced -/

theorem marks_of_readString {bytes key rest : List UInt8} (h : readString bytes = some (key, rest)) :
    marks false bytes = marks false rest := by
  cases bytes with
  | nil => cases h
  | cons b inner =>
    rw [readString] at h
    split at h
    · next hquote =>
      rw [hquote, marks_quote, marks_of_readContent h]
    · cases h

theorem marks_of_readScalar {bytes rest : List UInt8} {v : Json} (h : readScalar bytes = some (v, rest)) :
    marks false bytes = marks false rest := by
  rcases readScalar_cases h with ⟨content, inner, rfl, read, -⟩ | plain
  · rw [marks_quote, marks_of_readContent read]
  · exact marks_of_plainUpTo plain

theorem marks_of_key {bytes key colon start : List UInt8}
    (hkey : readString (skipBlanks bytes) = some (key, colon))
    (hcolon : skipBlanks colon = ':'.toUInt8 :: start) : marks false bytes = marks false start := by
  have plain : isPlain ':'.toUInt8 = true := by decide
  rw [← marks_skipBlanks bytes, marks_of_readString hkey, ← marks_skipBlanks colon, hcolon,
    marks_plain plain]

theorem read_across (fuel : Nat) :
    (∀ {bytes rest : List UInt8} {v : Json}, readValue fuel bytes = some (v, rest) →
      ∃ between, Balanced between ∧ Across bytes rest between) ∧
    (∀ {bytes rest : List UInt8} {items : List Json}, readItems fuel bytes = some (items, rest) →
      ∃ between, Closing between ∧ Across bytes rest between) ∧
    ∀ {bytes rest : List UInt8} {fields : List (List UInt8 × Json)},
      readFields fuel bytes = some (fields, rest) →
      ∃ between, Closing between ∧ Across bytes rest between := by
  have hList : isOpening '['.toUInt8 = true := by decide
  have hRecord : isOpening '\x7b'.toUInt8 = true := by decide
  have hListEnd : isClosing ']'.toUInt8 = true := by decide
  have hRecordEnd : isClosing '\x7d'.toUInt8 = true := by decide
  have hcomma : isMark ','.toUInt8 = true := by decide
  -- Items and fields are read up to the bracket that closes what is around them, so they are no balanced marks.
  induction fuel with
  | zero =>
    refine ⟨?_, ?_, ?_⟩
    · intro bytes rest v h
      cases h
    · intro bytes rest items h
      cases h
    · intro bytes rest fields h
      cases h
  | succ fuel ih =>
    obtain ⟨ihValue, ihItems, ihFields⟩ := ih
    refine ⟨?_, ?_, ?_⟩
    · intro bytes rest v h
      cases readValue_iff.mp h with
      | emptyList opening closing => exact balanced_empty hList hListEnd opening closing
      | list opening filled read =>
        obtain ⟨between, closing, across⟩ := ihItems read
        exact balanced_bracket hList opening closing across
      | emptyRecord opening closing => exact balanced_empty hRecord hRecordEnd opening closing
      | record opening filled read =>
        obtain ⟨between, closing, across⟩ := ihFields read
        exact balanced_bracket hRecord opening closing across
      | scalar noList noRecord read =>
        refine ⟨[], balanced_nil, Across.of_eq ?_⟩
        rw [← marks_skipBlanks, marks_of_readScalar read]
    · intro bytes rest items h
      cases readItems_iff.mp h with
      | last read closing =>
        obtain ⟨between, balanced, across⟩ := ihValue read
        exact ⟨_, balanced.append_closing (closing_single hListEnd rest),
          across.trans (Across.of_mark (mark_of_closing hListEnd) closing)⟩
      | more read comma tail =>
        obtain ⟨between, balanced, across⟩ := ihValue read
        obtain ⟨later, closing, acrossLater⟩ := ihItems tail
        exact ⟨_, balanced.append_closing (closing.after_comma _),
          across.trans ((Across.of_mark hcomma comma).trans acrossLater)⟩
    · intro bytes rest fields h
      cases readFields_iff.mp h with
      | last key_ colon read closing =>
        obtain ⟨between, balanced, across⟩ := ihValue read
        exact ⟨_, balanced.append_closing (closing_single hRecordEnd rest),
          (Across.of_eq (marks_of_key key_ colon)).trans (across.trans (Across.of_mark (mark_of_closing hRecordEnd) closing))⟩
      | more key_ colon read comma tail =>
        obtain ⟨between, balanced, across⟩ := ihValue read
        obtain ⟨later, closing, acrossLater⟩ := ihFields tail
        exact ⟨_, balanced.append_closing (closing.after_comma _),
          (Across.of_eq (marks_of_key key_ colon)).trans
            (across.trans ((Across.of_mark hcomma comma).trans acrossLater))⟩

end DirectoryGateway.Json
