import DirectoryGateway.Listing.Pool
import DirectoryGateway.Provider.Script

/-!
# Kinds of listings

The listings of groups, of users and of the members of a group are one listing, of one of the three collections that a provider
hands out page by page.
-/

namespace DirectoryGateway.Provider

open DirectoryGateway.Directory

/-! ### Collections -/

/-- What a provider hands out page by page. -/
inductive Source where
  | groups
  | users
  | members
  deriving Repr, DecidableEq

namespace Source

def Record : Source → Type
  | .groups => Group
  | .users => User
  | .members => User

def operation : Source → Operation
  | .groups => .listGroups
  | .users => .listUsers
  | .members => .listMembers

end Source

def Service.pages {σ : Type} (service : Service σ) : (c : Source) → PageCall σ c.Record
  | .groups => service.groups
  | .users => service.users
  | .members => service.members

namespace Script

def queue (s : Script) : (c : Source) → List (Queued c.Record)
  | .groups => s.groups
  | .users => s.users
  | .members => s.members

/-- The page calls of scripted providers. -/
abbrev pages (c : Source) : PageCall Script c.Record :=
  service.pages c

end Script

end DirectoryGateway.Provider

namespace DirectoryGateway.Listing

open DirectoryGateway.Provider

/-! ### Listings -/

inductive Kind where
  | groups
  | users
  | members (group : String)
  deriving Repr, DecidableEq

namespace Kind

def source : Kind → Source
  | .groups => .groups
  | .users => .users
  | .members _ => .members

def request (pool : String) : Kind → ListingRequest
  | .groups => .ofPool pool
  | .users => .ofPool pool
  | .members group => .ofGroup pool group

end Kind

/-- A listing of a pool, of any kind. -/
def Pool.list {σ : Type} (p : Pool) (kind : Kind) (service : Service σ) (pace : Pace) (store : σ)
    (now : Nat) : Run σ kind.source.Record :=
  gather (service.pages kind.source) pace kind.source.operation.label (service.pagesLeft store)
    (kind.request p.id) p.backoff store now

end DirectoryGateway.Listing
