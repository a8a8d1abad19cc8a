import DirectoryGateway.Provider.Service

/-!
# Scripted providers

A provider whose pages are laid down in advance. Each list operation hands out the pages of its queue in order,
and empty last pages when the queue is used up. The users it knows, and whether memberships may change, are
laid down too; the memberships themselves are its state, together with the calls it has seen.
-/

namespace DirectoryGateway.Provider

open DirectoryGateway.Directory

/-! ### Scripts -/

structure Queued (α : Type) where
  delay : Nat
  outcome : PageOutcome α
  deriving Repr

/-- A scripted provider and what it has seen. -/
structure Script where
  groups : List (Queued Group)
  users : List (Queued User)
  members : List (Queued User)
  known : List User
  /-- The failure of every change of a membership, if they all fail. -/
  mutationFailure : Option Failure
  /-- The time that all calls take but those for pages. -/
  otherDelay : Nat
  /-- Pairs of group and username. -/
  memberships : List (String × String)
  /-- The cursors of the list calls, oldest first. -/
  cursors : List (Option String)
  callCount : Nat
  deriving Repr

def Script.empty : Script :=
  ⟨[], [], [], [], none, 0, [], [], 0⟩

/-! ### Failures -/

/-- A throttled call, as the pool service reports it. -/
def throttledFailure (operation : String) : Failure :=
  .ofCode operation (some "TooManyRequestsException") "Rate exceeded"

def scriptedFailure (operation : String) (kind : FailureKind) : Failure :=
  .ofKind operation kind "scripted failure"

/-! ### Queues -/

/-- The reply from the front of a queue. -/
def headReply {α : Type} : List (Queued α) → Reply (Page α)
  | [] => .now (.ok (.last []))
  | q :: _ => ⟨q.delay, q.outcome, [], false⟩

namespace Script

def seen (request : ListingRequest) (s : Script) : Script :=
  { s with cursors := s.cursors ++ [request.cursor], callCount := s.callCount + 1 }

def nextGroups (request : ListingRequest) (s : Script) : Reply (Page Group) × Script :=
  (headReply s.groups, { s.seen request with groups := s.groups.tail })

def nextUsers (request : ListingRequest) (s : Script) : Reply (Page User) × Script :=
  (headReply s.users, { s.seen request with users := s.users.tail })

def nextMembers (request : ListingRequest) (s : Script) : Reply (Page User) × Script :=
  (headReply s.members, { s.seen request with members := s.members.tail })

/-! ### Single records -/

def find? (s : Script) (username : String) : Option User :=
  s.known.reverse.find? fun u => u.username == username

def lookUp (username : String) (s : Script) : Reply User × Script :=
  let outcome : Outcome User :=
    match s.find? username with
    | some u => .ok u
    | none =>
      .error (.ofCode Operation.getUser.label (some "UserNotFoundException") "User does not exist.")
  (⟨s.otherDelay, outcome, [], false⟩, { s with callCount := s.callCount + 1 })

/-! ### Memberships -/

def isMember (username group : String) (s : Script) : Bool :=
  s.memberships.contains (group, username)

def withMember (username group : String) (ms : List (String × String)) : List (String × String) :=
  if ms.contains (group, username) then ms else ms ++ [(group, username)]

def withoutMember (username group : String) (ms : List (String × String)) :
    List (String × String) :=
  ms.filter fun m => m != (group, username)

/-- Changes the memberships, unless changes fail. -/
def change (operation : Operation) (edit : List (String × String) → List (String × String))
    (s : Script) : Reply Unit × Script :=
  let s := { s with callCount := s.callCount + 1 }
  match s.mutationFailure with
  | some f => (⟨s.otherDelay, .error { f with operation := operation.label }, [], false⟩, s)
  | none => (⟨s.otherDelay, .ok (), [], false⟩, { s with memberships := edit s.memberships })

def addMember (username group : String) (s : Script) : Reply Unit × Script :=
  s.change .addMember (withMember username group)

def removeMember (username group : String) (s : Script) : Reply Unit × Script :=
  s.change .removeMember (withoutMember username group)

/-! ### The provider -/

/-- Scripted providers as directory providers; they do not look at the pool. -/
def service : Service Script where
  groups := nextGroups
  users := nextUsers
  members := nextMembers
  user _ username s := s.lookUp username
  addMember _ username group s := s.addMember username group
  removeMember _ username group s := s.removeMember username group
  pagesLeft s := s.groups.length + s.users.length + s.members.length

end Script

end DirectoryGateway.Provider
