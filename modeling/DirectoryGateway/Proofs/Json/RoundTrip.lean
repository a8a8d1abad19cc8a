import DirectoryGateway.Proofs.Json.Writing

/-!
# Values as they are written

Reading a written value gives the value back, with whatever stands behind it: its strings as they stand between their quotes,
its fields in their order. What is asked of the value is only that its contents and digits are such as a reader finds.
-/

namespace DirectoryGateway.Json

/-! ### Well-formed values -/

mutual

/-- A value whose strings are contents and whose fractions are digits. -/
def WellFormed : Json → Prop
  | .number n => ∀ d ∈ n.fraction, d < 10
  | .text content => IsContent content
  | .list items => WellFormedItems items
  | .record fields => WellFormedFields fields
  | _ => True

def WellFormedItems : List Json → Prop
  | [] => True
  | item :: items => WellFormed item ∧ WellFormedItems items

def WellFormedFields : List (List UInt8 × Json) → Prop
  | [] => True
  | (key, value) :: fields => IsContent key ∧ WellFormed value ∧ WellFormedFields fields

end

theorem wellFormed_str (s : String) : (str s).WellFormed :=
  isContent_encode s

theorem wellFormed_int (i : Int) : (int i).WellFormed := by
  intro d hd
  cases hd

theorem wellFormedItems_iff {items : List Json} : WellFormedItems items ↔ ∀ item ∈ items, item.WellFormed := by
  induction items with
  | nil => simp [WellFormedItems]
  | cons item items ih => rw [WellFormedItems, ih, List.forall_mem_cons]

theorem wellFormed_list {items : List Json} (h : ∀ item ∈ items, item.WellFormed) :
    (list items).WellFormed :=
  wellFormedItems_iff.mpr h

theorem wellFormed_obj {fields : List (String × Json)} (h : ∀ field ∈ fields, field.2.WellFormed) :
    (obj fields).WellFormed := by
  show WellFormedFields (fields.map fun f => (encode f.1, f.2))
  induction fields with
  | nil => trivial
  | cons field fields ih =>
    exact ⟨isContent_encode field.1, h field List.mem_cons_self,
      ih fun f hf => h f (List.mem_cons_of_mem _ hf)⟩

/-! ### First bytes -/

theorem null_bytes : "null".toUTF8.toList = ['n', 'u', 'l', 'l'].map Char.toUInt8 := by decide +kernel

theorem true_bytes : "true".toUTF8.toList = ['t', 'r', 'u', 'e'].map Char.toUInt8 := by decide +kernel

theorem false_bytes : "false".toUTF8.toList = ['f', 'a', 'l', 's', 'e'].map Char.toUInt8 := by
  decide +kernel

/-- What a value begins with: nothing that a reader would skip or take for the end of a list. -/
def Begins (bytes : List UInt8) : Prop :=
  ∃ b rest, bytes = b :: rest ∧ isBlankByte b = false ∧ isClosing b = false

theorem Begins.append {bytes : List UInt8} (h : Begins bytes) (rest : List UInt8) : Begins (bytes ++ rest) := by
  obtain ⟨b, bytes, rfl, blank, closing⟩ := h
  exact ⟨b, bytes ++ rest, rfl, blank, closing⟩

theorem Begins.skipBlanks {bytes : List UInt8} (h : Begins bytes) : Json.skipBlanks bytes = bytes := by
  obtain ⟨b, bytes, rfl, blank, -⟩ := h
  exact skipBlanks_cons_of_not blank bytes

theorem Begins.length_pos {bytes : List UInt8} (h : Begins bytes) : 0 < bytes.length := by
  obtain ⟨b, bytes, rfl, -⟩ := h
  simp

theorem Begins.not_closing {bytes : List UInt8} (h : Begins bytes) {b : UInt8} (hb : isClosing b = true)
    (rest : List UInt8) : bytes ≠ b :: rest := by
  obtain ⟨c, bytes, rfl, -, closing⟩ := h
  intro heq
  rw [List.head_eq_of_cons_eq heq, hb] at closing
  cases closing

/-- The byte that a number begins with. -/
def opensNumber (b : UInt8) : Bool :=
  b == '-'.toUInt8 || (digit? b).isSome

theorem opensNumber_apart {b : UInt8} : opensNumber b = true →
    isBlankByte b = false ∧ isClosing b = false ∧ isOpening b = false ∧
      b ≠ quote ∧ b ≠ 'n'.toUInt8 ∧ b ≠ 't'.toUInt8 ∧ b ≠ 'f'.toUInt8 :=
  forall_byte (P := fun b => opensNumber b = true →
    isBlankByte b = false ∧ isClosing b = false ∧ isOpening b = false ∧
      b ≠ quote ∧ b ≠ 'n'.toUInt8 ∧ b ≠ 't'.toUInt8 ∧ b ≠ 'f'.toUInt8) (by decide +kernel) b

theorem Number.render_cons (n : Number) : ∃ b rest, n.render = b :: rest ∧ opensNumber b = true := by
  rw [Number.render_eq]
  cases n.negative with
  | true => exact ⟨_, _, rfl, by decide⟩
  | false =>
    obtain ⟨b, bytes, hdigits, digit⟩ := natDigits_cons n.whole
    rw [hdigits]
    exact ⟨b, _, rfl, by simp [opensNumber, digit]⟩

theorem render_begins (v : Json) : Begins v.render := by
  cases v with
  | null => exact ⟨'n'.toUInt8, _, null_bytes, by decide, by decide⟩
  | bool b =>
    cases b with
    | true => exact ⟨'t'.toUInt8, _, true_bytes, by decide, by decide⟩
    | false => exact ⟨'f'.toUInt8, _, false_bytes, by decide, by decide⟩
  | number n =>
    obtain ⟨b, rest, hrender, opens⟩ := n.render_cons
    obtain ⟨blank, closing, -⟩ := opensNumber_apart opens
    exact ⟨b, rest, hrender, blank, closing⟩
  | text content => exact ⟨quote, _, rfl, by decide, by decide⟩
  | list items => exact ⟨'['.toUInt8, _, rfl, by decide, by decide⟩
  | record fields => exact ⟨'\x7b'.toUInt8, _, rfl, by decide, by decide⟩

/-! ### Scalars -/

/-- Whether a value is neither a list nor a record. -/
def isScalar : Json → Bool
  | .list _ | .record _ => false
  | _ => true

theorem takeWord_append (word rest : List UInt8) : takeWord word (word ++ rest) = some rest := by
  induction word with
  | nil => cases rest <;> rfl
  | cons w word ih =>
    rw [List.cons_append, takeWord, if_pos rfl]
    exact ih

/-- A scalar is read as a string, a fixed word or a number, each told from the others by its first byte. -/
theorem readScalar_render {v : Json} (scalar : v.isScalar = true) (h : v.WellFormed) {rest : List UInt8}
    (ends : AtMark rest) : readScalar (v.render ++ rest) = some (v, rest) := by
  cases v with
  | null =>
    have word := takeWord_append "null".toUTF8.toList rest
    rw [render]
    rw [null_bytes] at word ⊢
    rw [List.map_cons, List.cons_append] at word ⊢
    rw [readScalar, if_neg (by decide), if_pos rfl, null_bytes]
    exact congrArg (Option.map (Json.null, ·)) word
  | bool b =>
    cases b with
    | true =>
      have word := takeWord_append "true".toUTF8.toList rest
      rw [render]
      rw [true_bytes] at word ⊢
      rw [List.map_cons, List.cons_append] at word ⊢
      rw [readScalar, if_neg (by decide), if_neg (by decide), if_pos rfl, true_bytes]
      exact congrArg (Option.map (Json.bool true, ·)) word
    | false =>
      have word := takeWord_append "false".toUTF8.toList rest
      rw [render]
      rw [false_bytes] at word ⊢
      rw [List.map_cons, List.cons_append] at word ⊢
      rw [readScalar, if_neg (by decide), if_neg (by decide), if_neg (by decide), if_pos rfl, false_bytes]
      exact congrArg (Option.map (Json.bool false, ·)) word
  | number n =>
    have number := readNumber_render h ends
    obtain ⟨b, bytes, hrender, opens⟩ := n.render_cons
    obtain ⟨-, -, -, noQuote, noNull, noTrue, noFalse⟩ := opensNumber_apart opens
    rw [hrender] at number
    rw [render, hrender, List.cons_append, readScalar, if_neg noQuote, if_neg noNull, if_neg noTrue,
      if_neg noFalse, ← List.cons_append, number]
    rfl
  | text content =>
    have read := h rest
    rw [render, List.cons_append, List.cons_append, List.append_assoc, List.singleton_append, readScalar,
      if_pos rfl, readString, if_pos rfl, read]
    rfl
  | list items => cases scalar
  | record fields => cases scalar

theorem scalar_begins {v : Json} (scalar : v.isScalar = true) :
    ∃ b rest, v.render = b :: rest ∧ isOpening b = false := by
  cases v with
  | null => exact ⟨'n'.toUInt8, _, null_bytes, by decide⟩
  | bool b =>
    cases b with
    | true => exact ⟨'t'.toUInt8, _, true_bytes, by decide⟩
    | false => exact ⟨'f'.toUInt8, _, false_bytes, by decide⟩
  | number n =>
    obtain ⟨b, rest, hrender, opens⟩ := n.render_cons
    exact ⟨b, rest, hrender, (opensNumber_apart opens).2.2.1⟩
  | text content => exact ⟨quote, _, rfl, by decide⟩
  | list items => cases scalar
  | record fields => cases scalar

theorem readValue_scalar (fuel : Nat) {v : Json} (scalar : v.isScalar = true) (h : v.WellFormed)
    {rest : List UInt8} (ends : AtMark rest) : readValue (fuel + 1) (v.render ++ rest) = some (v, rest) := by
  have start := ((render_begins v).append rest).skipBlanks
  obtain ⟨b, bytes, hrender, noOpening⟩ := scalar_begins scalar
  have apart : ∀ c, isOpening c = true → ∀ inner, skipBlanks (v.render ++ rest) ≠ c :: inner := by
    intro c hc inner heq
    rw [start, hrender] at heq
    rw [← List.head_eq_of_cons_eq heq, noOpening] at hc
    cases hc
  refine readValue_iff.mpr (.scalar (apart _ (by decide)) (apart _ (by decide)) ?_)
  rw [start, readScalar_render scalar h ends]

/-! ### Lists and records -/

theorem renderItems_cons (item : Json) {items : List Json} (more : items ≠ []) :
    renderItems (item :: items) = item.render ++ ','.toUInt8 :: renderItems items := by
  cases items with
  | nil => exact absurd rfl more
  | cons next items => rfl

theorem renderFields_cons (key : List UInt8) (value : Json) {fields : List (List UInt8 × Json)}
    (more : fields ≠ []) :
    renderFields ((key, value) :: fields) =
      quote :: key ++ quote :: ':'.toUInt8 :: value.render ++ ','.toUInt8 :: renderFields fields := by
  cases fields with
  | nil => exact absurd rfl more
  | cons next fields => rfl

theorem renderItems_begins {items : List Json} (nonempty : items ≠ []) : Begins (renderItems items) := by
  cases items with
  | nil => exact absurd rfl nonempty
  | cons item items =>
    by_cases last : items = []
    · subst last
      exact render_begins item
    · rw [renderItems_cons item last]
      exact (render_begins item).append _

theorem renderFields_begins {fields : List (List UInt8 × Json)} (nonempty : fields ≠ []) :
    Begins (renderFields fields) := by
  cases fields with
  | nil => exact absurd rfl nonempty
  | cons field fields =>
    obtain ⟨key, value⟩ := field
    cases fields <;> exact ⟨quote, _, rfl, by decide, by decide⟩

theorem readString_content {content : List UInt8} (h : IsContent content) (rest : List UInt8) :
    readString (quote :: content ++ quote :: rest) = some (content, rest) := by
  rw [List.cons_append, readString, if_pos rfl]
  exact h rest

/-- What a written value, written items and written fields are read as; the fuel is the length of what is read. -/
theorem read_render (fuel : Nat) :
    (∀ {v : Json} {rest : List UInt8}, v.WellFormed → AtMark rest → v.render.length ≤ fuel →
      readValue fuel (v.render ++ rest) = some (v, rest)) ∧
    (∀ {items : List Json} {rest : List UInt8}, items ≠ [] → WellFormedItems items →
      (renderItems items).length < fuel →
      readItems fuel (renderItems items ++ ']'.toUInt8 :: rest) = some (items, rest)) ∧
    ∀ {fields : List (List UInt8 × Json)} {rest : List UInt8}, fields ≠ [] → WellFormedFields fields →
      (renderFields fields).length < fuel →
      readFields fuel (renderFields fields ++ '\x7d'.toUInt8 :: rest) = some (fields, rest) := by
  -- What a list or record holds is shorter than it by its brackets, which pays for the fuel that is passed down.
  induction fuel with
  | zero =>
    refine ⟨?_, ?_, ?_⟩
    · intro v rest h ends short
      have := (render_begins v).length_pos
      omega
    · intro items rest nonempty h short
      omega
    · intro fields rest nonempty h short
      omega
  | succ fuel ih =>
    obtain ⟨ihValue, ihItems, ihFields⟩ := ih
    have hcomma : ∀ rest, AtMark (','.toUInt8 :: rest) := atMark_cons (by decide)
    have hclose : isMark '\x7d'.toUInt8 = true := by decide
    refine ⟨?_, ?_, ?_⟩
    · intro v rest h ends short
      cases v with
      | list items =>
        have opening : skipBlanks ((list items).render ++ rest) =
            '['.toUInt8 :: (renderItems items ++ ']'.toUInt8 :: rest) := by
          rw [((render_begins _).append rest).skipBlanks, render]
          simp
        refine readValue_iff.mpr ?_
        by_cases empty : items = []
        · subst empty
          exact .emptyList opening (skipBlanks_cons_of_not (by decide) rest)
        · have inner := (renderItems_begins empty).append (']'.toUInt8 :: rest)
          refine .list opening ?_ ?_
          · rw [inner.skipBlanks]
            exact inner.not_closing (by decide)
          · rw [inner.skipBlanks]
            refine ihItems empty h ?_
            simp only [render, List.length_append, List.length_cons, List.length_nil] at short
            omega
      | record fields =>
        have opening : skipBlanks ((record fields).render ++ rest) =
            '\x7b'.toUInt8 :: (renderFields fields ++ '\x7d'.toUInt8 :: rest) := by
          rw [((render_begins _).append rest).skipBlanks, render]
          simp
        refine readValue_iff.mpr ?_
        by_cases empty : fields = []
        · subst empty
          exact .emptyRecord opening (skipBlanks_cons_of_not (by decide) rest)
        · have inner := (renderFields_begins empty).append ('\x7d'.toUInt8 :: rest)
          refine .record opening ?_ ?_
          · rw [inner.skipBlanks]
            exact inner.not_closing (by decide)
          · rw [inner.skipBlanks]
            refine ihFields empty h ?_
            simp only [render, List.length_append, List.length_cons, List.length_nil] at short
            omega
      | null => exact readValue_scalar fuel rfl h ends
      | bool b => exact readValue_scalar fuel rfl h ends
      | number n => exact readValue_scalar fuel rfl h ends
      | text content => exact readValue_scalar fuel rfl h ends
    · intro items rest nonempty h short
      cases items with
      | nil => exact absurd rfl nonempty
      | cons item items =>
        obtain ⟨first, others⟩ := h
        refine readItems_iff.mpr ?_
        by_cases last : items = []
        · subst last
          rw [renderItems] at short ⊢
          exact .last (ihValue first (atMark_cons (by decide) rest) (by omega))
            (skipBlanks_cons_of_not (by decide) rest)
        · rw [renderItems_cons item last] at short ⊢
          rw [List.length_append, List.length_cons] at short
          rw [List.append_assoc, List.cons_append]
          have size := (renderItems_begins last).length_pos
          exact .more (ihValue first (hcomma _) (by omega)) (skipBlanks_cons_of_not (by decide) _)
            (ihItems last others (by omega))
    · intro fields rest nonempty h short
      cases fields with
      | nil => exact absurd rfl nonempty
      | cons field fields =>
        obtain ⟨key, value⟩ := field
        obtain ⟨content, first, others⟩ := h
        have skip : ∀ bytes, skipBlanks (quote :: bytes) = quote :: bytes :=
          skipBlanks_cons_of_not (by decide)
        refine readFields_iff.mpr ?_
        by_cases last : fields = []
        · subst last
          have short' : value.render.length ≤ fuel := by
            simp only [renderFields, List.length_append, List.length_cons] at short
            omega
          have hkey := readString_content content (':'.toUInt8 :: (value.render ++ '\x7d'.toUInt8 :: rest))
          have read := ihValue first (atMark_cons hclose rest) short'
          refine .last ?_ (skipBlanks_cons_of_not (by decide) _) read (skipBlanks_cons_of_not (by decide) rest)
          simpa [renderFields, skip] using hkey
        · rw [renderFields_cons key value last] at short ⊢
          simp only [List.length_append, List.length_cons] at short
          have size := (renderFields_begins last).length_pos
          have hkey := readString_content content
            (':'.toUInt8 :: (value.render ++ ','.toUInt8 :: (renderFields fields ++ '\x7d'.toUInt8 :: rest)))
          have read := ihValue first (hcomma (renderFields fields ++ '\x7d'.toUInt8 :: rest)) (by omega)
          refine .more ?_ (skipBlanks_cons_of_not (by decide) _) read (skipBlanks_cons_of_not (by decide) _)
            (ihFields last others (by omega))
          simpa [skip] using hkey

/-- With the length of the document as fuel a written value is read, whatever stands behind it. -/
theorem readValue_render {v : Json} (h : v.WellFormed) {rest : List UInt8} (ends : AtMark rest) :
    readValue ((v.render ++ rest).length + 1) (v.render ++ rest) = some (v, rest) := by
  refine (read_render _).1 h ends ?_
  rw [List.length_append]
  omega

/-- A document that is a written value is read as this value. -/
theorem read?_render {v : Json} (h : v.WellFormed) : read? v.render = some v := by
  have read := readValue_render h atMark_nil
  rw [List.append_nil] at read
  rw [read?, read]
  rfl

end DirectoryGateway.Json
