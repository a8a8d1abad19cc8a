import DirectoryGateway.Text.Blank
import DirectoryGateway.Time.Text

/-!
# Directory records

Users and groups as the directory lists them, collections of them with their count, and the names under
which they may be asked for.
-/

namespace DirectoryGateway.Directory

open DirectoryGateway.Text

/-! ### Attributes -/

/-- Attributes by name, sorted by name, each name once. -/
abbrev Attributes := List (String × String)

/-- Sets an attribute: it replaces one of the same name, or goes to its place. -/
def Attributes.set (name value : String) : Attributes → Attributes
  | [] => [(name, value)]
  | a :: as =>
    if name = a.1 then (name, value) :: as
    else if name < a.1 then (name, value) :: a :: as
    else a :: Attributes.set name value as

def Attributes.get? (name : String) (as : Attributes) : Option String :=
  List.lookup name as

/-- Attributes set one after the other, starting from none. -/
def Attributes.ofList (as : List (String × String)) : Attributes :=
  as.foldl (fun m a => Attributes.set a.1 a.2 m) []

/-! ### Users and groups -/

structure User where
  username : String
  status : Option String
  enabled : Bool
  email : Option String
  attributes : Attributes
  createdAt : Option Time.Timestamp
  deriving Repr, DecidableEq

/-- An enabled user of whom only the name is known. -/
def User.named (username : String) : User :=
  ⟨username, none, true, none, [], none⟩

structure Group where
  name : String
  description : Option String
  precedence : Option Int
  deriving Repr, DecidableEq

def Group.named (name : String) : Group :=
  ⟨name, none, none⟩

structure Collection (α : Type) where
  count : Nat
  items : List α
  deriving Repr, DecidableEq

def Collection.ofItems {α : Type} (items : List α) : Collection α :=
  ⟨items.length, items⟩

/-! ### Names -/

def maxNameLength : Nat := 128

inductive NameFault where
  | blank
  | tooLong
  | badCharacter
  deriving Repr, DecidableEq

/-- The wording of a fault, with the field it is about. -/
def NameFault.message (field : String) : NameFault → String
  | .blank => s!"{field} must not be empty"
  | .tooLong => s!"{field} must be at most {maxNameLength} characters"
  | .badCharacter => s!"{field} contains invalid characters"

/-- The first fault of a name: blank, too long, or with a control character or a slash. -/
def nameFault? (name : String) : Option NameFault :=
  if Text.blank name then some .blank
  else if maxNameLength < name.length then some .tooLong
  else if name.toList.any fun c => isControl c || c == '/' then some .badCharacter
  else none

end DirectoryGateway.Directory
