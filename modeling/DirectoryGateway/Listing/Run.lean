import DirectoryGateway.Listing.Walk
import DirectoryGateway.Provider.Service

/-!
# Listings in time

A run joins a listing with a provider and a clock. Each turn brings the next event: the reply to the page call,
the end of a wait, or the cancellation, whichever comes first. Within a turn, the listing looks whether it was cancelled
before it polls what it waits for; a reply that the poll brings is taken in without another look. Whoever asked for the
listing may stop waiting at a deadline, and then the run is dropped as it stands. In a tie the deadline wins, and the
cancellation wins over what the listing itself waits for. Times are milliseconds.
-/

namespace DirectoryGateway.Listing

open DirectoryGateway.Provider

/-! ### Time -/

/-- When the outside interferes, and how long waits take. -/
structure Pace where
  /-- When the listing is cancelled. -/
  cancelAt : Option Nat
  /-- When nobody waits for it any more. -/
  deadline : Option Nat
  /-- How long a wait of a given length takes. -/
  rest : Nat → Nat

/-- A pace without interference, where waits take their time. -/
def Pace.free : Pace :=
  ⟨none, none, id⟩

inductive Arrival where
  | due
  | cancelled (time : Nat)
  | dropped (time : Nat)
  deriving Repr, DecidableEq

/-- The deadline, if it comes no later than `time`. -/
def Pace.deadlineBy (p : Pace) (time : Nat) : Option Nat :=
  p.deadline.filter (· ≤ time)

/-- The cancellation, if it comes no later than `time`. -/
def Pace.cancelBy (p : Pace) (time : Nat) : Option Nat :=
  p.cancelAt.filter (· ≤ time)

/-- What ends a span that is under way at `now` and would end at `due`. -/
def Pace.arrival (p : Pace) (now due : Nat) : Arrival :=
  match p.cancelBy due with
  | some c =>
    -- A cancellation that lies before `now` is noticed at once.
    match p.deadlineBy (max now c) with
    | some d => .dropped d
    | none => .cancelled (max now c)
  | none =>
    match p.deadlineBy due with
    | some d => .dropped d
    | none => .due

/-! ### Runs -/

/-- What is observed of an act. -/
def Act.note? (operation : String) : Act → Option Telemetry.Note
  | .page => some (.page operation)
  | .retry => some (.retry operation)
  | _ => none

/-- A listing under way on a provider with state of type `σ`. -/
structure Run (σ α : Type) where
  walk : Walk α
  store : σ
  now : Nat
  /-- The page calls so far, each with its time. -/
  calls : List (Nat × ListingRequest)
  /-- The waits so far. -/
  waits : List Nat
  notes : List Telemetry.Note
  /-- Whether nobody waits for it any more. -/
  dropped : Bool

namespace Run

variable {σ α : Type}

def start (request : ListingRequest) (schedule : Backoff) (store : σ) (now : Nat) : Run σ α :=
  ⟨.start request schedule, store, now, [], [], [], false⟩

def perform (operation : String) (r : Run σ α) : Act → Run σ α
  | .call request => { r with calls := r.calls ++ [(r.now, request)] }
  | .page => { r with notes := r.notes ++ [.page operation] }
  | .retry => { r with notes := r.notes ++ [.retry operation] }
  | .wait delay => { r with waits := r.waits ++ [delay] }

/-- Moves the listing by an event that comes at a time. -/
def move (operation : String) (r : Run σ α) (now : Nat) (e : Event α) : Run σ α :=
  let (w, acts) := r.walk.step e
  acts.foldl (perform operation) { r with walk := w, now := now }

/-- Takes in the reply that a poll of the call under way has brought. -/
def takeIn (operation : String) (r : Run σ α) (reply : Reply (Page α)) : Run σ α :=
  { r with notes := r.notes ++ reply.notes }.move operation r.now (.answered reply.outcome)

end Run

/-- A run within a turn. -/
structure Point (σ α : Type) where
  run : Run σ α
  /-- What the poll of the call under way has brought, as long as it is not taken in. -/
  brought : Option (Reply (Page α))

/-- The run after the turn. -/
def Point.settle {σ α : Type} (operation : String) (p : Point σ α) : Run σ α :=
  match p.brought with
  | some reply => p.run.takeIn operation reply
  | none => p.run

namespace Run

variable {σ α : Type}

/-- Polls a call that was made, behind a look whether the listing was cancelled, until one of the two is ready or nobody
waits any more. From the look on, a cancellation goes unnoticed until the reply is taken in, even one by the call that
is polled. -/
def poll (pace : Pace) (operation : String) (r : Run σ α) (reply : Reply (Page α)) : Point σ α :=
  -- If making the call has cancelled the listing, the first look finds it, and the call is never polled.
  if reply.cancels then ⟨r.move operation r.now .cancelled, none⟩
  else
    match pace.arrival r.now (r.now + reply.delay) with
    | .due => ⟨{ r with now := r.now + reply.delay }, some reply⟩
    | .cancelled t => ⟨r.move operation t .cancelled, none⟩
    | .dropped t => ⟨{ r with now := t, dropped := true }, none⟩

/-- The part of a turn up to its last look whether the listing was cancelled. -/
def look (fetch : PageCall σ α) (pace : Pace) (operation : String) (r : Run σ α) : Point σ α :=
  if r.dropped then ⟨r, none⟩
  else
    match r.walk.phase with
    | .checking =>
      -- Looking takes no time, so the deadline has no say here.
      match pace.cancelBy r.now with
      | some _ => ⟨r.move operation r.now .cancelled, none⟩
      | none => ⟨r.move operation r.now .clear, none⟩
    | .calling =>
      let (reply, store) := fetch r.walk.traversal.request r.store
      { r with store := store }.poll pace operation reply
    | .waiting delay =>
      match pace.arrival r.now (r.now + pace.rest delay) with
      | .due => ⟨r.move operation (r.now + pace.rest delay) .waited, none⟩
      | .cancelled t => ⟨r.move operation t .cancelled, none⟩
      | .dropped t => ⟨{ r with now := t, dropped := true }, none⟩
    | .ended _ => ⟨r, none⟩

/-- One turn. A run that has ended or was dropped stays as it is. -/
def turn (fetch : PageCall σ α) (pace : Pace) (operation : String) (r : Run σ α) : Run σ α :=
  (r.look fetch pace operation).settle operation

def turns (fetch : PageCall σ α) (pace : Pace) (operation : String) : Nat → Run σ α → Run σ α
  | 0, r => r
  | n + 1, r => turns fetch pace operation n (r.turn fetch pace operation)

def result? (r : Run σ α) : Option (Result α) :=
  match r.walk.phase with
  | .ended result => some result
  | _ => none

end Run

namespace Point

variable {σ α : Type}

/-- One step of a turn: to take in what was brought, or else to look and to poll. -/
def step (fetch : PageCall σ α) (pace : Pace) (operation : String) (p : Point σ α) : Point σ α :=
  match p.brought with
  | some reply => ⟨p.run.takeIn operation reply, none⟩
  | none => p.run.look fetch pace operation

def steps (fetch : PageCall σ α) (pace : Pace) (operation : String) : Nat → Point σ α → Point σ α
  | 0, p => p
  | n + 1, p => steps fetch pace operation n (p.step fetch pace operation)

end Point

/-- The turns that a number of calls can take: each is checked, made and waited after. -/
def turnsOfCalls (calls : Nat) : Nat :=
  3 * calls

/-- Lists a collection of which at most `pagesLeft` pages have a cursor. The calls are then at most these pages,
one for each wait, and the last one. -/
def gather {σ α : Type} (fetch : PageCall σ α) (pace : Pace) (operation : String) (pagesLeft : Nat)
    (request : ListingRequest) (schedule : Backoff) (store : σ) (now : Nat) : Run σ α :=
  (Run.start request schedule store now).turns fetch pace operation
    (turnsOfCalls (pagesLeft + schedule.length + 1))

end DirectoryGateway.Listing
