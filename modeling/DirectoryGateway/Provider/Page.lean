import DirectoryGateway.Provider.Failure

/-!
# Pages of a collection

A provider hands out a collection page by page. Each page but the last carries a cursor, with which the next
one is asked for. An empty cursor counts as none.
-/

namespace DirectoryGateway.Provider

/-- A cursor that is not empty. -/
def properCursor : Option String → Option String
  | some c => if c = "" then none else some c
  | none => none

/-- What a page is asked for with. -/
structure ListingRequest where
  pool : String
  /-- The group, when its members are listed. -/
  group : Option String
  /-- Where to go on; nothing for the first page. -/
  cursor : Option String
  deriving Repr, DecidableEq

/-- The first page of all users or all groups of a pool. -/
def ListingRequest.ofPool (pool : String) : ListingRequest :=
  ⟨pool, none, none⟩

def ListingRequest.ofGroup (pool group : String) : ListingRequest :=
  ⟨pool, some group, none⟩

structure Page (α : Type) where
  items : List α
  next : Option String
  deriving Repr, DecidableEq

def Page.ofItems {α : Type} (items : List α) (cursor : Option String) : Page α :=
  ⟨items, properCursor cursor⟩

def Page.last {α : Type} (items : List α) : Page α :=
  ⟨items, none⟩

abbrev Outcome (α : Type) := Except Failure α

abbrev PageOutcome (α : Type) := Outcome (Page α)

end DirectoryGateway.Provider
