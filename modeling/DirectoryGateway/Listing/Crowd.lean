import DirectoryGateway.Listing.Kind
import Mathlib.Logic.Function.Basic

/-!
# Listings side by side

Many listings of one pool that are under way at the same time, on one scripted provider. Which of them moves next is chosen
from outside: it looks whether it was cancelled, makes a call, takes in an outcome or ends a wait, and every other one stays as
it is. A call and its outcome are two moves, so that others may come in between. At any time a listing may find that it was
cancelled.
-/

namespace DirectoryGateway.Listing

open DirectoryGateway.Provider

/-! ### One listing -/

/-- A listing among others. -/
structure Seat (α : Type) where
  walk : Walk α
  /-- The outcomes that it has taken in. -/
  heard : List (PageOutcome α)
  /-- The outcome of the call under way, once the call is made. -/
  pending : Option (PageOutcome α)
  /-- The waits so far. -/
  waits : List Nat

namespace Seat

variable {α : Type}

def start (request : ListingRequest) (schedule : Backoff) : Seat α :=
  ⟨.start request schedule, [], none, []⟩

def perform (s : Seat α) : Act → Seat α
  | .wait delay => { s with waits := s.waits ++ [delay] }
  | _ => s

def take (e : Event α) (s : Seat α) : Seat α :=
  let (w, acts) := s.walk.step e
  acts.foldl perform { s with walk := w }

def hear (outcome : PageOutcome α) (s : Seat α) : Seat α :=
  { s.take (.answered outcome) with heard := s.heard ++ [outcome], pending := none }

/-- The request of the call that it is about to make, if it is. -/
def asks? (s : Seat α) : Option ListingRequest :=
  match s.walk.phase, s.pending with
  | .calling, none => some s.walk.traversal.request
  | _, _ => none

/-- The next move, if it is no call. -/
def move (s : Seat α) : Seat α :=
  match s.walk.phase, s.pending with
  | .checking, _ => s.take .clear
  | .calling, some outcome => s.hear outcome
  | .calling, none => s
  | .waiting _, _ => s.take .waited
  | .ended _, _ => s

def result? (s : Seat α) : Option (Result α) :=
  match s.walk.phase with
  | .ended result => some result
  | _ => none

end Seat

/-! ### Many listings -/

/-- Which listing moves next, or finds that it was cancelled. -/
inductive Choice (ι : Type) where
  | go (i : ι)
  | cancel (i : ι)
  deriving Repr, DecidableEq

/-- A call that one of the listings made. -/
structure Made (ι : Type) (kind : ι → Kind) where
  caller : ι
  request : ListingRequest
  outcome : PageOutcome (kind caller).source.Record

structure Crowd (ι : Type) (kind : ι → Kind) where
  store : Script
  seats : (i : ι) → Seat (kind i).source.Record
  /-- The calls of all listings, oldest first. -/
  calls : List (Made ι kind)

namespace Crowd

variable {ι : Type} {kind : ι → Kind}

def start (p : Pool) (kind : ι → Kind) (store : Script) : Crowd ι kind :=
  ⟨store, fun i => .start ((kind i).request p.id) p.backoff, []⟩

variable [DecidableEq ι]

def seat (i : ι) (s : Seat (kind i).source.Record) (c : Crowd ι kind) : Crowd ι kind :=
  { c with seats := Function.update c.seats i s }

def call (i : ι) (request : ListingRequest) (c : Crowd ι kind) : Crowd ι kind :=
  let (reply, store) := Script.pages (kind i).source request c.store
  seat i { c.seats i with pending := some reply.outcome }
    { c with store := store, calls := c.calls ++ [⟨i, request, reply.outcome⟩] }

def step (c : Crowd ι kind) : Choice ι → Crowd ι kind
  | .go i =>
    match (c.seats i).asks? with
    | some request => c.call i request
    | none => c.seat i (c.seats i).move
  | .cancel i => c.seat i ((c.seats i).take .cancelled)

def run (c : Crowd ι kind) (choices : List (Choice ι)) : Crowd ι kind :=
  choices.foldl step c

end Crowd

end DirectoryGateway.Listing
