import DirectoryGateway.Json.Record

/-!
# What slots hold

A slot is filled by the field of its name in a record, or by the item at its place in a list.
-/

namespace DirectoryGateway.Json

/-- A record gives a value under a name, and a list at the place of the field of this name. -/
def Gives (fields : List Field) (name : String) (v value : Json) : Prop :=
  (∃ given key, v = .record given ∧ (key, value) ∈ given ∧ decode? key = some name) ∨
    ∃ (items : List Json) (i : Nat) (field : Field), v = .list items ∧ items[i]? = some value ∧
      fields[i]? = some field ∧ name ∈ field.names

theorem fillSlot_cases {name : String} {value : Json} {fields : List Field} {slots slots' : Slots}
    (h : fillSlot name value fields slots = some slots') {i : Nat} {held : Json}
    (hi : slots'[i]? = some (some held)) :
    slots[i]? = some (some held) ∨
      (held = value ∧ ∃ field, fields[i]? = some field ∧ name ∈ field.names) := by
  induction fields generalizing slots slots' i with
  | nil =>
    rw [fillSlot] at h
    · cases h
      exact Or.inl hi
    · simp
  | cons field fields ih =>
    cases slots with
    | nil =>
      rw [fillSlot] at h
      · cases h
        exact Or.inl hi
      · simp
    | cons slot slots =>
      unfold fillSlot at h
      split at h
      · next named =>
        cases slot with
        | none =>
          cases h
          cases i with
          | zero =>
            have hheld : value = held := by simpa using hi
            exact Or.inr ⟨hheld.symm, field, rfl, named⟩
          | succ i => exact Or.inl (by simpa using hi)
        | some taken => cases h
      · obtain ⟨rest, hrest, rfl⟩ := Option.map_eq_some_iff.mp h
        cases i with
        | zero => exact Or.inl (by simpa using hi)
        | succ i => simpa using ih hrest (by simpa using hi)

theorem fillSlots_cases {fields : List Field} {given : List (List UInt8 × Json)} {slots slots' : Slots}
    (h : fillSlots fields given slots = some slots') {i : Nat} {held : Json}
    (hi : slots'[i]? = some (some held)) :
    slots[i]? = some (some held) ∨ ∃ key name field, (key, held) ∈ given ∧ decode? key = some name ∧
      fields[i]? = some field ∧ name ∈ field.names := by
  induction given generalizing slots with
  | nil =>
    cases h
    exact Or.inl hi
  | cons entry given ih =>
    obtain ⟨key, value⟩ := entry
    rw [fillSlots] at h
    split at h
    · cases h
    · next name hkey =>
      split at h
      · cases h
      · next filled hfill =>
        rcases ih h with hheld | ⟨key', name', field, hmem, later⟩
        · rcases fillSlot_cases hfill hheld with before | ⟨rfl, field, hfield, named⟩
          · exact Or.inl before
          · exact Or.inr ⟨key, name, field, List.mem_cons_self, hkey, hfield, named⟩
        · exact Or.inr ⟨key', name', field, List.mem_cons_of_mem _ hmem, later⟩

theorem slotsOfList_cases {fields : List Field} {items : List Json} {slots : Slots}
    (h : slotsOfList fields items = some slots) {i : Nat} {held : Json}
    (hi : slots[i]? = some (some held)) : items[i]? = some held := by
  induction fields generalizing items slots i with
  | nil =>
    cases items with
    | nil =>
      cases h
      simp at hi
    | cons item items => cases h
  | cons field fields ih =>
    cases items with
    | nil =>
      rw [slotsOfList] at h
      split at h
      · obtain ⟨rest, hrest, rfl⟩ := Option.map_eq_some_iff.mp h
        cases i with
        | zero => simp at hi
        | succ i => simpa using ih hrest (by simpa using hi)
      · cases h
    | cons item items =>
      rw [slotsOfList] at h
      obtain ⟨rest, hrest, rfl⟩ := Option.map_eq_some_iff.mp h
      cases i with
      | zero => simpa using hi
      | succ i => simpa using ih hrest (by simpa using hi)

theorem gives_of_slots {fields : List Field} {v held : Json} {slots : Slots}
    (h : Json.slots fields v = some slots) {i : Nat} (hi : slots[i]? = some (some held)) {name : String}
    {omissible : Bool} (hfield : fields[i]? = some ⟨[name], omissible⟩) : Gives fields name v held := by
  cases v with
  | record given =>
    rcases fillSlots_cases h hi with before | ⟨key, name', field, hmem, hkey, hfield', named⟩
    · rw [List.getElem?_map, hfield] at before
      cases before
    · rw [hfield] at hfield'
      cases hfield'
      rw [List.mem_singleton.mp named] at hkey
      exact Or.inl ⟨given, key, rfl, hmem, hkey⟩
  | list items =>
    exact Or.inr ⟨items, i, _, rfl, slotsOfList_cases h hi, hfield, List.mem_singleton.mpr rfl⟩
  | _ => cases h

end DirectoryGateway.Json
