import DirectoryGateway.Gateway.Session
import DirectoryGateway.Listing.Crowd

/-!
# Requests side by side

A session that serves many requests at the same time, on one scripted provider. What happens next is chosen from outside: a
request comes, one of them gets its turn, time passes, the session begins to drain or is told to stop. Only replies and waits
take time, so time does not pass while a request has something to do.
-/

namespace DirectoryGateway.Provider

open DirectoryGateway.Directory

/-- The form in which the records of a collection are sent. -/
def Source.toJson : (c : Source) → c.Record → Json
  | .groups => Group.toJson
  | .users => User.toJson
  | .members => User.toJson

end DirectoryGateway.Provider

namespace DirectoryGateway.Listing

open DirectoryGateway.Telemetry (Note)

/-- What is observed of the next move. -/
def Seat.notes {α : Type} (operation : String) (s : Seat α) : List Note :=
  match s.walk.phase, s.pending with
  | .calling, some outcome => (s.walk.step (.answered outcome)).2.filterMap (Act.note? operation)
  | _, _ => []

end DirectoryGateway.Listing

namespace DirectoryGateway.Gateway

open DirectoryGateway.Listing (Kind Seat)
open DirectoryGateway.Provider
open DirectoryGateway.Telemetry (Ledger)

/-! ### What is asked for -/

/-- The listing that is found at a route, unless its name is none. -/
def Route.kind? : Route → Option Kind
  | .groups => some .groups
  | .users => some .users
  | .members segment =>
    match readName "group" segment with
    | .error _ => none
    | .ok group =>
      match checkName "group" group with
      | .error _ => none
      | .ok () => some (.members group)
  | _ => none

/-- The listing that a request asks for and may have. -/
def Config.listingOf? (g : Config) (now : Nat) (q : Request) : Option Kind :=
  match Route.ofPath? q.path, authenticate g.verifier (g.epoch + now / 1000) q with
  | some route, .ok _ => if route.methods.contains q.method then route.kind? else none
  | _, _ => none

/-! ### One request -/

/-- How far a request has come. -/
inductive Work where
  /-- A listing, which has nothing to do before a time. -/
  | listing (kind : Kind) (seat : Seat kind.source.Record) (due : Nat)
  /-- A response that is sent at a time. -/
  | sending (r : Response) (due : Nat)
  | answered (r : Response)

def Work.answer? : Work → Option Response
  | .answered r => some r
  | _ => none

/-- A request among others. -/
structure Task where
  request : Request
  arrived : Nat
  work : Work

namespace Task

/-- Sends a response and counts it. -/
def answer (t : Task) (r : Response) (s : Session Script) : Task × Session Script :=
  ({ t with work := .answered r },
    s.observe [.request t.request.method t.request.path r.status (1000000 * (s.now - t.arrived))])

/-- Goes on with a listing that has moved. -/
def goOn (t : Task) (kind : Kind) (seat : Seat kind.source.Record) (s : Session Script) :
    Task × Session Script :=
  match seat.walk.phase with
  | .ended result => t.answer ((listingAnswer kind.source.toJson result).sent t.request.method) s
  | .waiting delay => ({ t with work := .listing kind seat (s.now + delay) }, s)
  | _ => ({ t with work := .listing kind seat s.now }, s)

/-- The next move of a listing. -/
def proceed (t : Task) (kind : Kind) (seat : Seat kind.source.Record) (s : Session Script) :
    Task × Session Script :=
  match seat.asks? with
  | some request =>
    let (reply, store) := Script.pages kind.source request s.store
    ({ t with work := .listing kind { seat with pending := some reply.outcome } (s.now + reply.delay) },
      { s with store := store })
  | none => t.goOn kind seat.move (s.observe (seat.notes kind.source.operation.label))

/-- What a request does when it gets its turn. The time limit comes first, and then the end of the session. -/
def poll (t : Task) (s : Session Script) : Task × Session Script :=
  match t.work with
  | .listing kind seat due =>
    if t.arrived + requestLimit ≤ s.now then t.answer (.ofStatus 408) s
    else if s.stopped then t.goOn kind (seat.take .cancelled) s
    else if due ≤ s.now then t.proceed kind seat s
    else (t, s)
  | .sending r due => if due ≤ s.now then t.answer r s else (t, s)
  | .answered _ => (t, s)

/-- Whether a request has nothing to do before a time. -/
def idleUntil (stopped : Bool) (time : Nat) (t : Task) : Bool :=
  match t.work with
  | .listing _ _ due => !stopped && time ≤ due && time ≤ t.arrived + requestLimit
  | .sending _ due => time ≤ due
  | .answered _ => true

end Task

/-! ### Many requests -/

inductive Happening where
  | arrive (q : Request)
  /-- A request gets its turn. -/
  | poll (j : Nat)
  | pass (time : Nat)
  | drain
  | finish
  deriving Repr, DecidableEq

structure Floor where
  session : Session Script
  /-- The requests in the order in which they came. -/
  tasks : List Task

namespace Floor

def start (store : Script) (ledger : Ledger) : Floor :=
  ⟨.start store ledger, []⟩

/-- A request comes. A listing begins; any other request is served, and its response sent when it is due. -/
def arrive (g : Config) (q : Request) (f : Floor) : Floor :=
  match g.listingOf? f.session.now q with
  | some kind =>
    let seat := Seat.start (kind.request g.pool.id) g.pool.backoff
    { f with tasks := f.tasks ++ [⟨q, f.session.now, .listing kind seat f.session.now⟩] }
  | none =>
    let served := respond g Script.service q .none f.session
    ⟨{ served.2 with now := f.session.now },
      f.tasks ++ [⟨q, f.session.now, .sending served.1 served.2.now⟩]⟩

def step (g : Config) (f : Floor) : Happening → Floor
  | .arrive q => f.arrive g q
  | .poll j =>
    match f.tasks[j]? with
    | some t =>
      let (t, s) := t.poll f.session
      ⟨s, f.tasks.set j t⟩
    | none => f
  | .pass time =>
    if f.session.now ≤ time ∧ f.tasks.all (Task.idleUntil f.session.stopped time) then
      { f with session := { f.session with now := time } }
    else f
  | .drain => { f with session := f.session.drain }
  | .finish => { f with session := f.session.finish }

def run (g : Config) (f : Floor) (hs : List Happening) : Floor :=
  hs.foldl (step g) f

/-- The response to a request, once it is sent. -/
def answer? (f : Floor) (j : Nat) : Option Response :=
  f.tasks[j]?.bind fun t => t.work.answer?

end Floor

end DirectoryGateway.Gateway
