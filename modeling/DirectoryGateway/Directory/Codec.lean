import DirectoryGateway.Directory.Record
import DirectoryGateway.Text.Integer
import DirectoryGateway.Json.Reader
import DirectoryGateway.Json.Printer
import DirectoryGateway.Json.Record

/-!
# Directory records as JSON

Absent fields and empty attributes are left out when written. Reading takes what writing gives, and the
list form of each record.
-/

namespace DirectoryGateway.Directory

open DirectoryGateway.Text (maxWord64 maxInt32)
open Json (required optional withDefault field?)

/-! ### Attributes and times -/

def Attributes.toJson (as : Attributes) : Json :=
  .obj (as.map fun a => (a.1, .str a.2))

/-- Reads the fields of an attribute record; a later field replaces an earlier one. -/
def Attributes.readFields : List (List UInt8 × Json) → Attributes → Option Attributes
  | [], as => some as
  | (key, value) :: rest, as =>
    match Json.decode? key, value.toText? with
    | some k, some v => Attributes.readFields rest (Attributes.set k v as)
    | _, _ => none

def Attributes.ofJson? : Json → Option Attributes
  | .record fields => Attributes.readFields fields []
  | _ => none

def timestampToJson (t : Time.Timestamp) : Json :=
  .str (String.ofList t.text)

def timestampOfJson? (v : Json) : Option Time.Timestamp :=
  v.toText?.bind fun s => Time.Timestamp.read? s.toList

/-! ### Users -/

def User.fields : List Json.Field :=
  [⟨["username"], false⟩, ⟨["status"], false⟩, ⟨["enabled"], false⟩, ⟨["email"], false⟩,
    ⟨["attributes"], true⟩, ⟨["created_at"], false⟩]

def User.toJson (u : User) : Json :=
  .obj ([("username", .str u.username)] ++ field? "status" (u.status.map .str) ++
    [("enabled", .bool u.enabled)] ++ field? "email" (u.email.map .str) ++
    (if u.attributes = [] then [] else [("attributes", u.attributes.toJson)]) ++
    field? "created_at" (u.createdAt.map timestampToJson))

def User.ofJson? (v : Json) : Option User :=
  match Json.slots User.fields v with
  | some [username, status, enabled, email, attributes, createdAt] => do
    return {
      username := ← required Json.toText? username
      status := ← optional Json.toText? status
      enabled := ← required Json.toBool? enabled
      email := ← optional Json.toText? email
      attributes := ← withDefault [] Attributes.ofJson? attributes
      createdAt := ← optional timestampOfJson? createdAt }
  | _ => none

/-! ### Groups -/

def Group.fields : List Json.Field :=
  [⟨["name"], false⟩, ⟨["description"], false⟩, ⟨["precedence"], false⟩]

def Group.toJson (g : Group) : Json :=
  .obj ([("name", .str g.name)] ++ field? "description" (g.description.map .str) ++
    field? "precedence" (g.precedence.map .int))

/-- Reads a precedence: an integer of 32 bits. -/
def precedenceOfJson? (v : Json) : Option Int :=
  v.toInt? (-(maxInt32 : Int) - 1) maxInt32

def Group.ofJson? (v : Json) : Option Group :=
  match Json.slots Group.fields v with
  | some [name, description, precedence] => do
    return {
      name := ← required Json.toText? name
      description := ← optional Json.toText? description
      precedence := ← optional precedenceOfJson? precedence }
  | _ => none

/-! ### Collections -/

def Collection.fields : List Json.Field :=
  [⟨["count"], false⟩, ⟨["items"], false⟩]

def Collection.toJson {α : Type} (item : α → Json) (c : Collection α) : Json :=
  .obj [("count", .nat c.count), ("items", .list (c.items.map item))]

def Collection.ofJson? {α : Type} (item : Json → Option α) (v : Json) : Option (Collection α) :=
  match Json.slots Collection.fields v with
  | some [count, items] => do
    return {
      count := ← required (Json.toNat? maxWord64) count
      items := ← required (Json.toList? item) items }
  | _ => none

end DirectoryGateway.Directory
