import DirectoryGateway.Proofs.Json.Writing

/-!
# Values in canonical form

Texts and integers of 64 bits are canonical as they are made. The canonical form of a record of such values holds the same
fields, in the one order of their keys.
-/

namespace DirectoryGateway.Json

/-! ### Scalars -/

theorem canonicalContent_encode (s : String) : canonicalContent (encode s) = encode s := by
  rw [canonicalContent, decode?_encode]

theorem canonical_str (s : String) : (str s).canonical = str s := by
  rw [str, canonical, canonicalContent_encode]

theorem canonical_int {i : Int} (least : -(Nat.pow 2 63 : Int) ≤ i) (greatest : i < (Nat.pow 2 64 : Int)) :
    (int i).canonical = int i := by
  have within : (-(Nat.pow 2 63 : Int) ≤ i && i < (Nat.pow 2 64 : Int)) = true := by
    rw [Bool.and_eq_true, decide_eq_true_eq, decide_eq_true_eq]
    exact ⟨least, greatest⟩
  rw [int, canonical, Number.canonical, toInt?_int, Option.filter_some, if_pos within]

theorem canonical_list {items : List Json} (h : ∀ item ∈ items, item.canonical = item) :
    (list items).canonical = list items := by
  rw [canonical]
  congr 1
  induction items with
  | nil => rfl
  | cons item items ih =>
    rw [canonicalItems, h item List.mem_cons_self, ih fun next hnext => h next (List.mem_cons_of_mem _ hnext)]

/-! ### The order of keys -/

theorem bytesBefore_asymm {as bs : List UInt8} (h : bytesBefore as bs = true) : bytesBefore bs as = false := by
  induction as generalizing bs with
  | nil =>
    cases bs with
    | nil => cases h
    | cons b bs => rfl
  | cons a as ih =>
    cases bs with
    | nil => cases h
    | cons b bs =>
      simp only [bytesBefore, Bool.or_eq_true, Bool.and_eq_true, decide_eq_true_eq, beq_iff_eq] at h
      simp only [bytesBefore, Bool.or_eq_false_iff, Bool.and_eq_false_imp, decide_eq_false_iff_not, beq_iff_eq]
      rcases h with less | ⟨rfl, later⟩
      · refine ⟨UInt8.lt_asymm less, ?_⟩
        rintro rfl
        exact absurd less (UInt8.lt_irrefl b)
      · exact ⟨UInt8.lt_irrefl a, fun _ => ih later⟩

theorem keyBefore_asymm {a b : List UInt8} (h : keyBefore a b = true) : keyBefore b a = false :=
  bytesBefore_asymm h

theorem ne_of_keyBefore {a b : List UInt8} (h : keyBefore a b = true) : a ≠ b := by
  rintro rfl
  rw [keyBefore_asymm h] at h
  cases h

/-! ### Records -/

/-- Fields in the order of their keys, which are all different. -/
def SortedFields (fields : List (List UInt8 × Json)) : Prop :=
  fields.Pairwise fun f g => keyBefore f.1 g.1 = true

theorem sortedFields_iff {fields : List (List UInt8 × Json)} :
    SortedFields fields ↔ (fields.map Prod.fst).Pairwise fun a b => keyBefore a b = true := by
  rw [SortedFields, List.pairwise_map]

/-- Putting in a field of a sorted record in which some fields are missing. -/
theorem insertField_filter {fields : List (List UInt8 × Json)} (sorted : SortedFields fields)
    {field : List UInt8 × Json} (mem : field ∈ fields) (present : List UInt8 × Json → Bool) :
    insertField field.1 field.2 (fields.filter present) =
      fields.filter fun f => present f || f.1 == field.1 := by
  induction fields with
  | nil => cases mem
  | cons f fields ih =>
    obtain ⟨first, rest⟩ := List.pairwise_cons.mp sorted
    rcases List.mem_cons.mp mem with rfl | later
    -- The field comes first: all that is there has a later key, or is this field.
    · have others : (fields.filter fun g => present g || g.1 == field.1) = fields.filter present := by
        refine List.filter_congr ?_
        intro g hg
        have hne : (g.1 == field.1) = false := by
          simpa using (ne_of_keyBefore (first g hg)).symm
        rw [hne, Bool.or_false]
      rw [List.filter_cons (p := fun g => present g || g.1 == field.1), others]
      simp only [beq_self_eq_true, Bool.or_true, if_true]
      cases held : present field with
      | true => rw [List.filter_cons, if_pos held, insertField, if_pos rfl]
      | false =>
        rw [List.filter_cons, if_neg (by simp [held])]
        cases hrest : fields.filter present with
        | nil => rfl
        | cons g gs =>
          have hg : g ∈ fields := List.mem_of_mem_filter (by rw [hrest]; exact List.mem_cons_self)
          rw [insertField, if_neg (ne_of_keyBefore (first g hg)), if_pos (first g hg)]
    -- The field comes later: the first one is passed, if it is there at all.
    · have before := first field later
      have hne : f.1 ≠ field.1 := ne_of_keyBefore before
      have apart : (present f || f.1 == field.1) = present f := by
        rw [beq_eq_false_iff_ne.mpr hne, Bool.or_false]
      rw [List.filter_cons, List.filter_cons, apart]
      cases held : present f with
      | true =>
        rw [if_pos rfl, if_pos rfl, insertField, if_neg hne.symm, keyBefore_asymm before,
          if_neg Bool.false_ne_true, ih rest later]
      | false =>
        rw [if_neg Bool.false_ne_true, if_neg Bool.false_ne_true, ih rest later]

theorem canonicalFields_filter {fields given : List (List UInt8 × Json)} (sorted : SortedFields fields)
    (members : ∀ f ∈ given, f ∈ fields)
    (canonical : ∀ f ∈ given, canonicalContent f.1 = f.1 ∧ f.2.canonical = f.2)
    (present : List UInt8 × Json → Bool) :
    canonicalFields (fields.filter present) given =
      fields.filter fun f => present f || given.any fun g => f.1 == g.1 := by
  induction given generalizing present with
  | nil => simp [canonicalFields]
  | cons g given ih =>
    obtain ⟨key, value⟩ := g
    obtain ⟨hkey, hvalue⟩ := canonical _ List.mem_cons_self
    rw [canonicalFields, hkey, hvalue,
      insertField_filter sorted (members _ List.mem_cons_self),
      ih (fun f hf => members f (List.mem_cons_of_mem _ hf)) fun f hf => canonical f (List.mem_cons_of_mem _ hf)]
    simp only [List.any_cons, Bool.or_assoc]

/-- The canonical form of a record of canonical fields is their arrangement in the order of keys. -/
theorem canonical_record {fields given : List (List UInt8 × Json)} (sorted : SortedFields fields)
    (same : ∀ f, f ∈ given ↔ f ∈ fields)
    (canonical : ∀ f ∈ given, canonicalContent f.1 = f.1 ∧ f.2.canonical = f.2) :
    (record given).canonical = record fields := by
  have placed := canonicalFields_filter sorted (fun f => (same f).mp) canonical fun _ => false
  rw [List.filter_false] at placed
  rw [Json.canonical, placed]
  congr 1
  rw [List.filter_eq_self]
  intro f hf
  rw [Bool.false_or, List.any_eq_true]
  exact ⟨f, (same f).mpr hf, beq_self_eq_true f.1⟩

end DirectoryGateway.Json
