import DirectoryGateway.Json.Basic

/-!
# Records of known fields

A record with fields known in advance may be written as a JSON record or as a list of its fields in order.
In a record unknown fields are passed over, and a known field must not occur twice, under whichever of its
names. In a list only fields that say so may be left out at the end, and nothing may follow the last.
-/

namespace DirectoryGateway.Json

/-- A known field: its names, and whether a list may end before it. -/
structure Field where
  names : List String
  omissible : Bool
  deriving Repr, DecidableEq

/-- What a record gives for each known field, in order. -/
abbrev Slots := List (Option Json)

/-! ### Filling slots -/

/-- Puts a value into the slot of a name. Unknown names are passed over; `none` if the slot is taken. -/
def fillSlot (name : String) (value : Json) : List Field → Slots → Option Slots
  | f :: fs, s :: ss =>
    if name ∈ f.names then
      match s with
      | none => some (some value :: ss)
      | some _ => none
    else (fillSlot name value fs ss).map (s :: ·)
  | _, ss => some ss

def fillSlots (fields : List Field) : List (List UInt8 × Json) → Slots → Option Slots
  | [], slots => some slots
  | (key, value) :: rest, slots =>
    match decode? key with
    | none => none
    | some name =>
      match fillSlot name value fields slots with
      | none => none
      | some slots => fillSlots fields rest slots

/-- Gives list items to the fields in order. -/
def slotsOfList : List Field → List Json → Option Slots
  | [], [] => some []
  | [], _ :: _ => none
  | f :: fs, [] => if f.omissible then (slotsOfList fs []).map (none :: ·) else none
  | _ :: fs, v :: vs => (slotsOfList fs vs).map (some v :: ·)

def slots (fields : List Field) : Json → Option Slots
  | .record given => fillSlots fields given (fields.map fun _ => none)
  | .list items => slotsOfList fields items
  | _ => none

/-! ### Reading slots -/

def required {α : Type} (read : Json → Option α) : Option Json → Option α
  | some v => read v
  | none => none

/-- A field that may be missing or null. -/
def optional {α : Type} (read : Json → Option α) : Option Json → Option (Option α)
  | none => some none
  | some .null => some none
  | some v => (read v).map some

/-- A field with a value of its own when it is missing, but not when it is null. -/
def withDefault {α : Type} (default : α) (read : Json → Option α) : Option Json → Option α
  | none => some default
  | some v => read v

/-- A field to write: nothing for an absent value. -/
def field? (name : String) (value : Option Json) : List (String × Json) :=
  match value with
  | some v => [(name, v)]
  | none => []

end DirectoryGateway.Json
