import DirectoryGateway.Json.Record
import DirectoryGateway.Proofs.Json.RoundTrip

/-!
# Records that are read back

A record that is written with the first names of its known fields is read back slot by slot, whichever of its values are absent.
What a name is spelled like does not matter as long as it is a name of the same field, and a field that is named twice is no field.
-/

namespace DirectoryGateway.Json

variable {α : Type}

/-! ### Values that are read back -/

/-- A value that can be written, and from which `x` is read. -/
structure Tells (read : Json → Option α) (v : Json) (x : α) : Prop where
  wellFormed : v.WellFormed
  read : read v = some x

theorem Tells.document {read : Json → Option α} {v : Json} {x : α} (h : Tells read v x) :
    (read? v.render).bind read = some x := by
  rw [read?_render h.wellFormed, Option.bind_some, h.read]

theorem tells_str (s : String) : Tells toText? (.str s) s :=
  ⟨wellFormed_str s, toText?_str s⟩

theorem tells_bool (b : Bool) : Tells toBool? (.bool b) b :=
  ⟨trivial, rfl⟩

theorem tells_int {least greatest i : Int} (atLeast : least ≤ i) (atMost : i ≤ greatest) :
    Tells (toInt? least greatest) (.int i) i := by
  refine ⟨wellFormed_int i, ?_⟩
  rw [int, toInt?, toInt?_int]
  exact if_pos ⟨atLeast, atMost⟩

theorem tells_nat {limit n : Nat} (atMost : n ≤ limit) : Tells (toNat? limit) (.nat n) n := by
  have h : Tells (toInt? 0 limit) (.int n) n := tells_int (by omega) (by omega)
  refine ⟨h.wellFormed, ?_⟩
  rw [toNat?, nat, h.read]
  rfl

theorem tells_list {read : Json → Option α} {write : α → Json} {xs : List α}
    (h : ∀ x ∈ xs, Tells read (write x) x) : Tells (toList? read) (.list (xs.map write)) xs := by
  refine ⟨wellFormed_list ?_, ?_⟩
  · intro item hitem
    obtain ⟨x, hx, rfl⟩ := List.mem_map.mp hitem
    exact (h x hx).wellFormed
  · show (xs.map write).mapM read = some xs
    induction xs with
    | nil => rfl
    | cons x xs ih =>
      have others := ih fun y hy => h y (List.mem_cons_of_mem _ hy)
      rw [List.map_cons, List.mapM_cons, (h x List.mem_cons_self).read, others]
      rfl

/-! ### Slots that are filled -/

/-- A slot that can be written, and from which `x` is read. -/
structure Fills (read : Option Json → Option α) (slot : Option Json) (x : α) : Prop where
  wellFormed : ∀ v ∈ slot, v.WellFormed
  read : read slot = some x

theorem fills_required {read : Json → Option α} {v : Json} {x : α} (h : Tells read v x) :
    Fills (required read) (some v) x := by
  refine ⟨?_, h.read⟩
  rintro _ ⟨⟩
  exact h.wellFormed

/-- An absent value is left out, so a value that is there must not look like null. -/
theorem fills_optional {read : Json → Option α} {write : α → Json} (notNull : ∀ x, write x ≠ .null)
    {value : Option α} (h : ∀ x ∈ value, Tells read (write x) x) :
    Fills (optional read) (value.map write) value := by
  cases value with
  | none => exact ⟨by simp, rfl⟩
  | some x =>
    obtain ⟨wellFormed, hread⟩ := h x rfl
    refine ⟨?_, ?_⟩
    · rintro _ ⟨⟩
      exact wellFormed
    · rw [Option.map_some, optional, hread]
      · rfl
      · exact notNull x

theorem fills_optional_str (value : Option String) : Fills (optional toText?) (value.map .str) value := by
  refine fills_optional ?_ fun s _ => tells_str s
  intro s h
  cases h

/-- An empty collection is left out and stands for itself when it is missing. -/
theorem fills_withDefault {β : Type} [DecidableEq β] {read : Json → Option (List β)} {v : Json} {xs : List β}
    (h : Tells read v xs) : Fills (withDefault [] read) (if xs = [] then none else some v) xs := by
  by_cases empty : xs = []
  · rw [if_pos empty, empty]
    exact ⟨by simp, rfl⟩
  · rw [if_neg empty]
    refine ⟨?_, h.read⟩
    rintro _ ⟨⟩
    exact h.wellFormed

/-! ### Records that are written -/

@[simp] theorem field?_some (name : String) (v : Json) : field? name (some v) = [(name, v)] := rfl

@[simp] theorem field?_none (name : String) : field? name none = [] := rfl

/-- The fields of a record, each under its first name, without those that are absent. -/
def written : List Field → Slots → List (String × Json)
  | f :: fs, s :: ss => field? (f.names.headD "") s ++ written fs ss
  | _, _ => []

/-- Every field has a name, and no two have one in common. -/
def Distinct (fields : List Field) : Prop :=
  (∀ f ∈ fields, f.names ≠ []) ∧ fields.Pairwise fun f g => ∀ name ∈ f.names, name ∉ g.names

instance (fields : List Field) : Decidable (Distinct fields) :=
  inferInstanceAs (Decidable (_ ∧ _))

theorem mem_written {fields : List Field} {values : Slots} {field : String × Json}
    (h : field ∈ written fields values) : some field.2 ∈ values := by
  induction fields generalizing values with
  | nil => cases values <;> cases h
  | cons f fields ih =>
    cases values with
    | nil => cases h
    | cons s values =>
      rcases List.mem_append.mp h with first | later
      · cases s with
        | none => cases first
        | some v =>
          rw [List.mem_singleton.mp first]
          exact List.mem_cons_self
      · exact List.mem_cons_of_mem _ (ih later)

theorem fillSlot_cons (name : String) (value : Json) (f : Field) (fields : List Field) (s : Option Json) (slots : Slots) :
    fillSlot name value (f :: fields) (s :: slots) =
      if name ∈ f.names then
        match s with
        | none => some (some value :: slots)
        | some _ => none
      else (fillSlot name value fields slots).map (s :: ·) := rfl

theorem fillSlot_append {name : String} (value : Json) {before : List Field} {done : Slots}
    (aligned : done.length = before.length) (other : ∀ f ∈ before, name ∉ f.names) (fields : List Field)
    (slots : Slots) :
    fillSlot name value (before ++ fields) (done ++ slots) = (fillSlot name value fields slots).map (done ++ ·) := by
  induction before generalizing done with
  | nil =>
    rw [List.length_eq_zero_iff.mp aligned]
    exact Option.map_id'.symm
  | cons f before ih =>
    cases done with
    | nil => cases aligned
    | cons s done =>
      rw [List.forall_mem_cons] at other
      rw [List.cons_append, List.cons_append, fillSlot_cons, if_neg other.1, ih (by simpa using aligned) other.2,
        Option.map_map]
      rfl

/-- What was written under the first names of `fields` goes to their slots, behind those of the fields before them. -/
theorem fillSlots_written (before : List Field) {fields : List Field} (done : Slots) {values : Slots}
    (aligned : done.length = before.length) (fits : values.length = fields.length)
    (distinct : Distinct (before ++ fields)) :
    fillSlots (before ++ fields) ((written fields values).map fun f => (encode f.1, f.2))
      (done ++ fields.map fun _ => none) = some (done ++ values) := by
  induction fields generalizing before done values with
  | nil =>
    rw [List.length_eq_zero_iff.mp fits]
    rfl
  | cons f fields ih =>
    obtain ⟨s, values, rfl⟩ := List.exists_cons_of_length_eq_add_one fits
    have others := ih (before ++ [f]) (done ++ [s]) (by simp [aligned]) (Nat.succ.inj fits) (by simpa using distinct)
    rw [List.append_assoc, List.append_assoc, List.append_assoc] at others
    cases s with
    | none => exact others
    | some v =>
      obtain ⟨name, names, hnames⟩ := List.exists_cons_of_ne_nil (distinct.1 f (by simp))
      have apart : ∀ g ∈ before, name ∉ g.names := by
        intro g hg mem
        exact (List.pairwise_append.mp distinct.2).2.2 g hg f List.mem_cons_self name mem
          (by rw [hnames]; exact List.mem_cons_self)
      have filled : fillSlot name v (before ++ f :: fields) (done ++ none :: fields.map fun _ => none) =
          some (done ++ some v :: fields.map fun _ => none) := by
        rw [fillSlot_append v aligned apart, fillSlot_cons, if_pos (by rw [hnames]; exact List.mem_cons_self)]
        rfl
      have named : f.names.headD "" = name := by rw [hnames]; rfl
      rw [written, named]
      show fillSlots _ ((encode name, v) :: _) _ = _
      rw [fillSlots, decode?_encode, List.map_cons]
      dsimp only
      rw [filled]
      exact others

theorem slots_written {fields : List Field} {values : Slots} (fits : values.length = fields.length)
    (distinct : Distinct fields) : slots fields (.obj (written fields values)) = some values :=
  fillSlots_written [] [] rfl fits distinct

/-- Whatever reads `x` from the slots that were written reads it from the record. -/
theorem tells_written {fields : List Field} {values : Slots} {read : Json → Option α} {x : α}
    (fits : values.length = fields.length) (distinct : Distinct fields)
    (wellFormed : ∀ slot ∈ values, ∀ v ∈ slot, v.WellFormed)
    (reads : ∀ v, slots fields v = some values → read v = some x) :
    Tells read (.obj (written fields values)) x := by
  refine ⟨wellFormed_obj ?_, reads _ (slots_written fits distinct)⟩
  intro field hfield
  exact wellFormed _ (mem_written hfield) field.2 rfl

/-! ### Other names of a field -/

/-- Whether two names are names of the same fields. -/
def Alike (fields : List Field) (a b : String) : Prop :=
  ∀ f ∈ fields, a ∈ f.names ↔ b ∈ f.names

instance (fields : List Field) (a b : String) : Decidable (Alike fields a b) :=
  inferInstanceAs (Decidable (∀ f ∈ fields, _))

/-- A field with its name spelled `b` where it was `a`. -/
def respelled (a b : String) (entry : List UInt8 × Json) : List UInt8 × Json :=
  if decode? entry.1 = some a then (encode b, entry.2) else entry

def Named (given : List (List UInt8 × Json)) (name : String) : Prop :=
  ∃ entry ∈ given, decode? entry.1 = some name

theorem named_cons {entry : List UInt8 × Json} {given : List (List UInt8 × Json)} {name : String} :
    Named (entry :: given) name ↔ decode? entry.1 = some name ∨ Named given name := by
  simp [Named]

section

variable {fields : List Field} {slots slots' : Slots} {a b name : String} {value : Json}

theorem fillSlot_alike (alike : Alike fields a b) : fillSlot a value fields slots = fillSlot b value fields slots := by
  induction fields generalizing slots with
  | nil => cases slots <;> rfl
  | cons f fields ih =>
    cases slots with
    | nil => rfl
    | cons s slots =>
      have others : fillSlot a value fields slots = fillSlot b value fields slots :=
        ih fun g hg => alike g (List.mem_cons_of_mem _ hg)
      simp only [fillSlot_cons, alike f List.mem_cons_self, others]

theorem fillSlots_respelled (alike : Alike fields a b) (given : List (List UInt8 × Json)) (slots : Slots) :
    fillSlots fields (given.map (respelled a b)) slots = fillSlots fields given slots := by
  induction given generalizing slots with
  | nil => rfl
  | cons entry given ih =>
    obtain ⟨key, v⟩ := entry
    rw [List.map_cons, respelled]
    by_cases here : decode? key = some a
    · rw [if_pos here, fillSlots, fillSlots, decode?_encode, here]
      dsimp only
      rw [← fillSlot_alike alike]
      simp only [ih]
    · rw [if_neg here, fillSlots, fillSlots]
      simp only [ih]

theorem slots_respelled (alike : Alike fields a b) (given : List (List UInt8 × Json)) :
    Json.slots fields (.record (given.map (respelled a b))) = Json.slots fields (.record given) :=
  fillSlots_respelled alike given _

/-! ### Fields that are named twice -/

/-- Whether the slot that a name goes to has a value. -/
def taken (name : String) : List Field → Slots → Bool
  | f :: fields, s :: slots => if name ∈ f.names then s.isSome else taken name fields slots
  | _, _ => false

theorem taken_of_fillSlot (aligned : slots.length = fields.length) (known : ∃ f ∈ fields, name ∈ f.names)
    (h : fillSlot name value fields slots = some slots') : taken name fields slots' = true := by
  induction fields generalizing slots slots' with
  | nil =>
    obtain ⟨f, hf, -⟩ := known
    cases hf
  | cons f fields ih =>
    obtain ⟨s, slots, rfl⟩ := List.exists_cons_of_length_eq_add_one aligned
    rw [fillSlot_cons] at h
    by_cases here : name ∈ f.names
    · rw [if_pos here] at h
      cases s with
      | none =>
        cases h
        rw [taken, if_pos here]
        rfl
      | some held => cases h
    · rw [if_neg here] at h
      obtain ⟨rest, hrest, rfl⟩ := Option.map_eq_some_iff.mp h
      obtain ⟨g, hg, named⟩ := known
      have later : ∃ g ∈ fields, name ∈ g.names := by
        rcases List.mem_cons.mp hg with rfl | hg
        · exact absurd named here
        · exact ⟨g, hg, named⟩
      rw [taken, if_neg here]
      exact ih (by simpa using aligned) later hrest

theorem taken_fillSlot (h : fillSlot name value fields slots = some slots') (before : taken a fields slots = true) :
    taken a fields slots' = true := by
  induction fields generalizing slots slots' with
  | nil => cases before
  | cons f fields ih =>
    cases slots with
    | nil => cases before
    | cons s slots =>
      rw [fillSlot_cons] at h
      rw [taken] at before
      by_cases here : name ∈ f.names
      · rw [if_pos here] at h
        cases s with
        | some held => cases h
        | none =>
          cases h
          rw [taken]
          split at before
          · cases before
          · next other => rw [if_neg other, before]
      · rw [if_neg here] at h
        obtain ⟨rest, hrest, rfl⟩ := Option.map_eq_some_iff.mp h
        rw [taken]
        split at before
        · next mine => rw [if_pos mine, before]
        · next other => rw [if_neg other, ih hrest before]

theorem fillSlot_taken (h : taken name fields slots = true) : fillSlot name value fields slots = none := by
  induction fields generalizing slots with
  | nil => cases h
  | cons f fields ih =>
    cases slots with
    | nil => cases h
    | cons s slots =>
      rw [taken] at h
      rw [fillSlot_cons]
      split at h
      · next here =>
        obtain ⟨held, rfl⟩ := Option.isSome_iff_exists.mp h
        rw [if_pos here]
      · next other => rw [if_neg other, ih h, Option.map_none]

theorem length_fillSlot (h : fillSlot name value fields slots = some slots') : slots'.length = slots.length := by
  induction fields generalizing slots slots' with
  | nil =>
    cases slots <;> (cases h; rfl)
  | cons f fields ih =>
    cases slots with
    | nil =>
      cases h
      rfl
    | cons s slots =>
      rw [fillSlot_cons] at h
      split at h
      · split at h
        · cases h
          rfl
        · cases h
      · obtain ⟨rest, hrest, rfl⟩ := Option.map_eq_some_iff.mp h
        rw [List.length_cons, ih hrest, List.length_cons]

/-- A slot that is taken is not filled again. -/
theorem fillSlots_taken {given : List (List UInt8 × Json)} (named : Named given name)
    (h : taken name fields slots = true) : fillSlots fields given slots = none := by
  induction given generalizing slots with
  | nil =>
    obtain ⟨entry, mem, -⟩ := named
    cases mem
  | cons entry given ih =>
    obtain ⟨key, v⟩ := entry
    rw [fillSlots]
    rcases named_cons.mp named with here | later
    · rw [here]
      dsimp only
      rw [fillSlot_taken h]
    · split
      · rfl
      · split
        · rfl
        · next filled => exact ih later (taken_fillSlot filled h)

/-- A record that names a field twice is not one of these fields. -/
theorem fillSlots_named_twice {given : List (List UInt8 × Json)} (apart : a ≠ b) (alike : Alike fields a b)
    (known : ∃ f ∈ fields, a ∈ f.names) (aligned : slots.length = fields.length) (first : Named given a)
    (second : Named given b) : fillSlots fields given slots = none := by
  induction given generalizing slots with
  | nil =>
    obtain ⟨entry, mem, -⟩ := first
    cases mem
  | cons entry given ih =>
    obtain ⟨key, v⟩ := entry
    rw [named_cons] at first second
    rw [fillSlots]
    cases hkey : decode? key with
    | none => rfl
    | some name =>
      dsimp only
      cases hfill : fillSlot name v fields slots with
      | none => rfl
      | some filled =>
        dsimp only
        rw [hkey, Option.some.injEq] at first second
        by_cases isFirst : name = a
        · subst isFirst
          have later := second.resolve_left apart
          rw [fillSlot_alike alike] at hfill
          have known' : ∃ f ∈ fields, b ∈ f.names := by
            obtain ⟨f, hf, named⟩ := known
            exact ⟨f, hf, (alike f hf).mp named⟩
          exact fillSlots_taken later (taken_of_fillSlot aligned known' hfill)
        · have first := first.resolve_left isFirst
          by_cases isSecond : name = b
          · subst isSecond
            rw [← fillSlot_alike alike] at hfill
            exact fillSlots_taken first (taken_of_fillSlot aligned known hfill)
          · have aligned' : filled.length = fields.length := (length_fillSlot hfill).trans aligned
            exact ih aligned' first (second.resolve_left isSecond)

theorem slots_named_twice {given : List (List UInt8 × Json)} (apart : a ≠ b) (alike : Alike fields a b)
    (known : ∃ f ∈ fields, a ∈ f.names) (first : Named given a) (second : Named given b) :
    Json.slots fields (.record given) = none :=
  fillSlots_named_twice apart alike known (by simp) first second

end

end DirectoryGateway.Json
