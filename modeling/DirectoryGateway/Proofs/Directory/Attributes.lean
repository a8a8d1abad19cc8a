import DirectoryGateway.Proofs.Encoding.Documents
import Mathlib.Data.List.Nodup
import Mathlib.Data.List.Sort

/-!
# Attributes by name

Attributes are known by what they hold under each name. Setting one changes what is held under its name and nothing else, so
of entries that are set one after the other the last one with a value counts, and their order matters only among those of
one name.
-/

namespace DirectoryGateway.Directory

/-! ### What is held under a name -/

namespace Attributes

variable {as bs : Attributes}

theorem get?_cons (name : String) (a : String × String) (as : Attributes) :
    Attributes.get? name (a :: as) = if name = a.1 then some a.2 else as.get? name := by
  rw [Attributes.get?, List.lookup_cons]
  by_cases same : name = a.1
  · rw [if_pos same, same, beq_self_eq_true]
  · rw [if_neg same, beq_false_of_ne same]
    rfl

theorem get?_set (name value other : String) (as : Attributes) :
    (as.set name value).get? other = if other = name then some value else as.get? other := by
  induction as with
  | nil => exact get?_cons other (name, value) []
  | cons a as ih =>
    rw [Attributes.set]
    by_cases same : name = a.1
    · rw [if_pos same, get?_cons, get?_cons, ← same]
      by_cases here : other = name
      · rw [if_pos here, if_pos here]
      · rw [if_neg here, if_neg here, if_neg here]
    · rw [if_neg same]
      by_cases earlier : name < a.1
      · rw [if_pos earlier, get?_cons]
      · rw [if_neg earlier, get?_cons, get?_cons, ih]
        by_cases here : other = a.1
        · have apart : other ≠ name := fun h => same (h.symm.trans here)
          rw [if_pos here, if_neg apart, if_pos here]
        · rw [if_neg here, if_neg here]

theorem mem_set {name value : String} {a : String × String} (h : a ∈ as.set name value) :
    a = (name, value) ∨ a ∈ as := by
  induction as with
  | nil => exact Or.inl (List.mem_singleton.mp h)
  | cons b as ih =>
    rw [Attributes.set] at h
    split_ifs at h with same earlier
    · exact (List.mem_cons.mp h).imp_right (List.mem_cons_of_mem b)
    · exact List.mem_cons.mp h
    · rcases List.mem_cons.mp h with rfl | later
      · exact Or.inr List.mem_cons_self
      · exact (ih later).imp_right (List.mem_cons_of_mem b)

theorem sorted_set (sorted : as.Sorted) (name value : String) : (as.set name value).Sorted := by
  induction as with
  | nil => exact List.pairwise_singleton _ _
  | cons a as ih =>
    obtain ⟨first, others⟩ := List.pairwise_cons.mp sorted
    rw [Attributes.set]
    split_ifs with same earlier
    · exact List.pairwise_cons.mpr ⟨by rwa [same], others⟩
    · refine List.pairwise_cons.mpr ⟨?_, sorted⟩
      intro b hb
      rcases List.mem_cons.mp hb with rfl | hb
      · exact earlier
      · exact earlier.trans (first b hb)
    · refine List.pairwise_cons.mpr ⟨?_, ih others⟩
      intro b hb
      rcases mem_set hb with rfl | hb
      · exact lt_of_le_of_ne (not_lt.mp earlier) (Ne.symm same)
      · exact first b hb

theorem ofList_concat (given : List (String × String)) (a : String × String) :
    Attributes.ofList (given ++ [a]) = (Attributes.ofList given).set a.1 a.2 := by
  rw [Attributes.ofList, List.foldl_append]
  rfl

theorem sorted_ofList (given : List (String × String)) : (Attributes.ofList given).Sorted := by
  induction given using List.reverseRecOn with
  | nil => exact List.Pairwise.nil
  | append_singleton given a ih =>
    rw [ofList_concat]
    exact sorted_set ih a.1 a.2

theorem mem_iff_get? (sorted : as.Sorted) (a : String × String) :
    a ∈ as ↔ Attributes.get? a.1 as = some a.2 := by
  induction as with
  | nil => simp [Attributes.get?]
  | cons b as ih =>
    obtain ⟨first, others⟩ := List.pairwise_cons.mp sorted
    rw [List.mem_cons, get?_cons]
    by_cases same : a.1 = b.1
    · -- Nothing after `b` has its name.
      have absent : a ∉ as := fun later => lt_irrefl b.1 (same ▸ first a later)
      rw [if_pos same]
      simp [absent, Prod.ext_iff, same, eq_comm]
    · rw [if_neg same, ← ih others]
      simp [Prod.ext_iff, same]

/-- Attributes are the same if they hold the same under each name. -/
theorem ext_sorted (first : as.Sorted) (second : bs.Sorted) (h : ∀ name, as.get? name = bs.get? name) :
    as = bs := by
  have irreflexive : Std.Irrefl fun a b : String × String => a.1 < b.1 := ⟨fun a => lt_irrefl a.1⟩
  have antisymmetric : Std.Antisymm fun a b : String × String => a.1 < b.1 :=
    ⟨fun _ _ before after => absurd before (lt_asymm after)⟩
  refine List.Pairwise.eq_of_mem_iff first second ?_
  intro a
  rw [mem_iff_get? first, mem_iff_get? second, h]

end Attributes

/-! ### Entries, some of which have no value -/

/-- The entries that have a value. -/
def valued (entries : List (String × Option String)) : List (String × String) :=
  entries.filterMap fun e => e.2.map fun value => (e.1, value)

/-- The values of the entries of a name. -/
def valuesOf (name : String) (entries : List (String × Option String)) : List String :=
  entries.filterMap fun e => if e.1 = name then e.2 else none

section

variable {name value : String} {entries others : List (String × Option String)}

theorem mem_valuesOf : value ∈ valuesOf name entries ↔ (name, some value) ∈ entries := by
  rw [valuesOf, List.mem_filterMap]
  constructor
  · rintro ⟨⟨other, held⟩, mem, kept⟩
    obtain ⟨rfl, rfl⟩ := Option.ite_none_right_eq_some.mp kept
    exact mem
  · intro mem
    exact ⟨_, mem, if_pos rfl⟩

/-- An entry without a value leaves the attributes as they are, and another one sets its name. -/
theorem ofList_valued_concat (entries : List (String × Option String)) (e : String × Option String) :
    Attributes.ofList (valued (entries ++ [e])) =
      match e.2 with
      | none => Attributes.ofList (valued entries)
      | some value => (Attributes.ofList (valued entries)).set e.1 value := by
  obtain ⟨name, held⟩ := e
  rw [valued, List.filterMap_append]
  cases held with
  | none => simp [valued]
  | some value => exact Attributes.ofList_concat _ (name, value)

theorem get?_ofList_valued (name : String) (entries : List (String × Option String)) :
    (Attributes.ofList (valued entries)).get? name = (valuesOf name entries).getLast? := by
  induction entries using List.reverseRecOn with
  | nil => rfl
  | append_singleton entries e ih =>
    obtain ⟨other, held⟩ := e
    rw [ofList_valued_concat, valuesOf, List.filterMap_append]
    cases held with
    | none =>
      rw [ih]
      simp [valuesOf]
    | some value =>
      rw [Attributes.get?_set, ih]
      by_cases same : name = other
      · simp [same]
      · simp [same, Ne.symm same, valuesOf]

theorem get?_ofList_valued_isSome_iff :
    ((Attributes.ofList (valued entries)).get? name).isSome ↔ ∃ value, (name, some value) ∈ entries := by
  rw [get?_ofList_valued, List.getLast?_isSome]
  constructor
  · intro some_values
    obtain ⟨value, mem⟩ := List.exists_mem_of_ne_nil _ some_values
    exact ⟨value, mem_valuesOf.mp mem⟩
  · rintro ⟨value, mem⟩
    exact List.ne_nil_of_mem (mem_valuesOf.mpr mem)

theorem get?_ofList_valued_of_last {before after : List (String × Option String)}
    (last : ∀ later, (name, some later) ∉ after) :
    (Attributes.ofList (valued (before ++ (name, some value) :: after))).get? name = some value := by
  have none_after : valuesOf name after = [] := by
    refine List.eq_nil_iff_forall_not_mem.mpr ?_
    intro later mem
    exact last later (mem_valuesOf.mp mem)
  have values : valuesOf name (before ++ (name, some value) :: after) =
      valuesOf name before ++ value :: valuesOf name after := by
    simp [valuesOf]
  rw [get?_ofList_valued, values, none_after, List.getLast?_concat]

theorem length_valuesOf_le (name : String) (entries : List (String × Option String)) :
    (valuesOf name entries).length ≤ (entries.map Prod.fst).count name := by
  induction entries with
  | nil => exact le_rfl
  | cons e entries ih =>
    have single : (valuesOf name [e]).length ≤ if e.1 == name then 1 else 0 := by
      by_cases same : e.1 = name
      · simpa [valuesOf, same] using List.length_filterMap_le _ [e]
      · simp [valuesOf, same]
    have split_first : valuesOf name (e :: entries) = valuesOf name [e] ++ valuesOf name entries :=
      List.filterMap_append (l := [e])
    rw [split_first, List.length_append, List.map_cons, List.count_cons]
    omega

theorem valuesOf_perm (perm : others.Perm entries) (distinct : (entries.map Prod.fst).Nodup) (name : String) :
    valuesOf name others = valuesOf name entries := by
  have values : (valuesOf name others).Perm (valuesOf name entries) := perm.filterMap _
  have single : (valuesOf name entries).length ≤ 1 :=
    (length_valuesOf_le name entries).trans (List.nodup_iff_count_le_one.mp distinct name)
  match h : valuesOf name entries with
  | [] => rw [h] at values; exact values.eq_nil
  | [value] => rw [h] at values; exact List.perm_singleton.mp values
  | _ :: _ :: _ => rw [h] at single; simp at single

/-- Entries of distinct names may come in any order. -/
theorem ofList_valued_perm (perm : others.Perm entries) (distinct : (entries.map Prod.fst).Nodup) :
    Attributes.ofList (valued others) = Attributes.ofList (valued entries) := by
  refine Attributes.ext_sorted (Attributes.sorted_ofList _) (Attributes.sorted_ofList _) ?_
  intro name
  rw [get?_ofList_valued, get?_ofList_valued, valuesOf_perm perm distinct]

end

end DirectoryGateway.Directory
