import DirectoryGateway.Listing.Run

/-!
# The collections of a pool

A pool with its backoff schedule, and the listings of its users, its groups and the members of a group. Each
listing starts with the whole schedule.
-/

namespace DirectoryGateway.Listing

open DirectoryGateway.Directory
open DirectoryGateway.Provider

/-- A user pool as the gateway reads it. -/
structure Pool where
  id : String
  backoff : Backoff
  deriving Repr, DecidableEq

namespace Pool

variable {σ : Type}

def groups (p : Pool) (service : Service σ) (pace : Pace) (store : σ) (now : Nat) : Run σ Group :=
  gather service.groups pace Operation.listGroups.label (service.pagesLeft store) (.ofPool p.id)
    p.backoff store now

def users (p : Pool) (service : Service σ) (pace : Pace) (store : σ) (now : Nat) : Run σ User :=
  gather service.users pace Operation.listUsers.label (service.pagesLeft store) (.ofPool p.id)
    p.backoff store now

def members (p : Pool) (service : Service σ) (pace : Pace) (group : String) (store : σ) (now : Nat) :
    Run σ User :=
  gather service.members pace Operation.listMembers.label (service.pagesLeft store)
    (.ofGroup p.id group) p.backoff store now

end Pool

end DirectoryGateway.Listing
