import DirectoryGateway.Directory.Codec
import DirectoryGateway.Gateway.Probe
import DirectoryGateway.Gateway.Problem
import DirectoryGateway.Gateway.Route
import DirectoryGateway.Listing.Pool
import DirectoryGateway.Settings.Basic
import DirectoryGateway.Telemetry.Exposition
import DirectoryGateway.Token.Verifier

/-!
# Sessions

How the gateway serves requests one after the other. A request goes through the route, the token check and the
method, then to what it asks for; it is given up after a limited time, and every response is counted. Listings stop
when the session is told to stop; a session that drains says so to readiness probes and goes on serving.
-/

namespace DirectoryGateway.Gateway

open DirectoryGateway.Directory
open DirectoryGateway.Provider
open DirectoryGateway.Telemetry (Ledger Note)
open DirectoryGateway.Token (Claims Verifier)

/-! ### Requests -/

structure Request where
  method : String
  target : String
  /-- Names and values in order; a value is its bytes. -/
  headers : List (String × List UInt8)
  deriving Repr, DecidableEq

def Request.path (q : Request) : String :=
  pathOfTarget q.target

def lowerName (name : String) : String :=
  String.ofList (name.toList.map Char.toLower)

def Request.header? (q : Request) (name : String) : Option (List UInt8) :=
  (q.headers.find? fun h => lowerName h.1 == name).map Prod.snd

def trimValue (value : List UInt8) : List UInt8 :=
  let isSpace (b : UInt8) : Bool := b == 32 || b == 9
  ((value.dropWhile isSpace).reverse.dropWhile isSpace).reverse

def isValueByte (b : UInt8) : Bool :=
  b == 9 || (32 ≤ b.toNat && b != 127)

def isHeader (h : String × List UInt8) : Bool :=
  Text.isToken h.1 && h.2.all isValueByte

/-- A request as it comes over a connection, if it can be read: blanks around a header's value do not belong to it. -/
def Request.received? (q : Request) : Option Request :=
  if Text.isRequestLine q.method q.target && q.headers.all isHeader then
    some { q with headers := q.headers.map fun h => (h.1, trimValue h.2) }
  else none

/-! ### The gateway -/

/-- What stays the same while the gateway serves. -/
structure Config where
  settings : Settings
  verifier : Verifier
  /-- The time of the epoch, in seconds, when the session's clock stood at zero. -/
  epoch : Nat
  deriving Repr, DecidableEq

def Config.pool (g : Config) : Listing.Pool :=
  ⟨g.settings.pool, g.settings.backoff⟩

/-- A session with a provider that has state of type `σ`; its clock shows milliseconds. -/
structure Session (σ : Type) where
  store : σ
  ledger : Ledger
  draining : Bool
  stopped : Bool
  now : Nat

namespace Session

variable {σ : Type}

def start (store : σ) (ledger : Ledger) : Session σ :=
  ⟨store, ledger, false, false, 0⟩

/-- From now on readiness probes are told that the session ends. -/
def drain (s : Session σ) : Session σ :=
  { s with draining := true }

/-- From now on listings are cancelled. -/
def stop (s : Session σ) : Session σ :=
  { s with stopped := true }

/-- The end of the time to drain. -/
def finish (s : Session σ) : Session σ :=
  s.drain.stop

def observe (s : Session σ) (notes : List Note) : Session σ :=
  { s with ledger := s.ledger.noteAll notes }

end Session

/-- What happens while a request is served, in milliseconds from its beginning. -/
structure Interrupts where
  drainAfter : Option Nat
  stopAfter : Option Nat
  deriving Repr, DecidableEq

def Interrupts.none : Interrupts :=
  ⟨.none, .none⟩

/-! ### Checks -/

/-- Whether a byte may stand in a header that is read as text. -/
def isHeaderText (b : UInt8) : Bool :=
  (32 ≤ b.toNat && b.toNat < 127) || b.toNat == 9

def bearer : List UInt8 :=
  Bytes.ofText "Bearer "

def bearerToken (q : Request) : Except Problem (List UInt8) :=
  match q.header? "authorization" with
  | none => .error (.invalidToken "Missing Authorization header")
  | some value =>
    if value.all isHeaderText then
      if bearer.isPrefixOf value then .ok (value.drop bearer.length)
      else .error (.invalidToken "Invalid Authorization header format")
    -- A header that is no text counts as none.
    else .error (.invalidToken "Missing Authorization header")

/-- The claims of an accepted token; clients are not told why another one is refused. -/
def acceptToken (v : Verifier) (now : Nat) (token : List UInt8) : Except Problem Claims :=
  match v.verify now token with
  | .ok claims => .ok claims
  | .error _ => .error (.invalidToken "The access token is invalid or expired")

def authenticate (v : Verifier) (now : Nat) (q : Request) : Except Problem Claims :=
  match bearerToken q with
  | .ok token => acceptToken v now token
  | .error p => .error p

def requireGroup (claims : Claims) (group : String) : Except Problem Unit :=
  if claims.isMember group then .ok ()
  else .error (.forbidden "Insufficient permissions for this operation")

/-! ### Answers -/

def readyAnswer (draining : Bool) (keyCount : Nat) : Response :=
  .ofJson (if draining then 503 else 200) (Readiness.ofState draining keyCount).toJson

def listingAnswer {α : Type} (item : α → Json) : Listing.Result α → Response
  | .ok items => .ofJson 200 ((Collection.ofItems items).toJson item)
  | .error i => (Problem.ofIncomplete i).response

def userAnswer : Outcome User → Response
  | .ok u => .ofJson 200 u.toJson
  | .error f => (Problem.ofFailure f).response

def changeAnswer : Outcome Unit → Response
  | .ok () => .ofStatus 204
  | .error f => (Problem.ofFailure f).response

/-! ### Serving -/

/-- How long a request may take, in milliseconds. -/
def requestLimit : Nat :=
  1000 * Settings.requestSeconds

def listingPace {σ : Type} (s : Session σ) (i : Interrupts) : Listing.Pace where
  -- In a session that was stopped a listing is cancelled before its first call.
  cancelAt := if s.stopped then some s.now else i.stopAfter.map (s.now + ·)
  deadline := some (s.now + requestLimit)
  rest := id

/-- Serves a listing: the response, unless the time is up. -/
def serveListing {σ α : Type} (item : α → Json) (run : Listing.Run σ α) (s : Session σ) :
    Response × Session σ :=
  let s := { s with store := run.store, now := run.now }.observe run.notes
  match run.result? with
  | some result => (listingAnswer item result, s)
  | none => (.ofStatus 408, s)

/-- Serves a call: the response, unless the time is up. -/
def serveCall {σ α : Type} (answer : Outcome α → Response) (called : Reply α × σ) (s : Session σ) :
    Response × Session σ :=
  let (reply, store) := called
  -- The provider has seen the call, also if its reply comes too late.
  let s := { s with store := store }
  if reply.delay < requestLimit then
    (answer reply.outcome, { s with now := s.now + reply.delay }.observe reply.notes)
  else (.ofStatus 408, { s with now := s.now + requestLimit })

def serveMembers {σ : Type} (g : Config) (service : Service σ) (i : Interrupts) (segment : String)
    (s : Session σ) : Response × Session σ :=
  match Route.readName "group" segment with
  | .error text => (.ofText 400 text, s)
  | .ok group =>
    match checkName "group" group with
    | .error p => (p.response, s)
    | .ok () =>
      serveListing User.toJson (g.pool.members service (listingPace s i) group s.store s.now) s

def serveUser {σ : Type} (g : Config) (service : Service σ) (segment : String) (s : Session σ) :
    Response × Session σ :=
  match Route.readName "username" segment with
  | .error text => (.ofText 400 text, s)
  | .ok username =>
    match checkName "username" username with
    | .error p => (p.response, s)
    | .ok () => serveCall userAnswer (service.user g.settings.pool username s.store) s

/-- The group and the user whose membership may be changed. -/
def admitChange (g : Config) (claims : Claims) (group username : String) : Except Problem Unit := do
  requireGroup claims g.settings.adminGroup
  checkName "group" group
  checkName "username" username

def serveChange {σ : Type} (g : Config) (service : Service σ) (claims : Claims) (method : String)
    (groupSegment userSegment : String) (s : Session σ) : Response × Session σ :=
  match Route.readName "group" groupSegment, Route.readName "username" userSegment with
  | .error text, _ => (.ofText 400 text, s)
  | .ok _, .error text => (.ofText 400 text, s)
  | .ok group, .ok username =>
    match admitChange g claims group username with
    | .error p => (p.response, s)
    | .ok () =>
      let change := if method = "PUT" then service.addMember else service.removeMember
      serveCall changeAnswer (change g.settings.pool username group s.store) s

def serveProtected {σ : Type} (g : Config) (service : Service σ) (i : Interrupts) (claims : Claims)
    (method : String) (route : Route) (s : Session σ) : Response × Session σ :=
  match route with
  | .me => (.ofJson 200 claims.profile, s)
  | .groups => serveListing Group.toJson (g.pool.groups service (listingPace s i) s.store s.now) s
  | .users => serveListing User.toJson (g.pool.users service (listingPace s i) s.store s.now) s
  | .members group => serveMembers g service i group s
  | .user username => serveUser g service username s
  | .membership group username => serveChange g service claims method group username s
  | _ => (.ofStatus 404, s)

def publicAnswer {σ : Type} (g : Config) (s : Session σ) : Route → Response
  | .health => .ofJson 200 (Health.healthy g.settings.region).toJson
  | .ready => readyAnswer s.draining g.verifier.keyCount
  | .metrics => .ofText 200 s.ledger.text
  | _ => .ofStatus 404

/-- The session after an answer of a route that asks for no token: writing the metrics sums them up. -/
def afterPublic {σ : Type} (route : Route) (s : Session σ) : Session σ :=
  if route = .metrics then { s with ledger := s.ledger.settle } else s

def methodNotAllowed (route : Route) : Response :=
  (Response.ofStatus 405).withHeader "allow" route.allow

def serveRoute {σ : Type} (g : Config) (service : Service σ) (q : Request) (i : Interrupts)
    (route : Route) (s : Session σ) : Response × Session σ :=
  let allowed := route.methods.contains q.method
  if route.isProtected then
    -- The token comes before the method: without one a wrong method is refused for the token.
    match authenticate g.verifier (g.epoch + s.now / 1000) q with
    | .error p =>
      (if allowed then p.response else p.response.withHeader "allow" route.allow, s)
    | .ok claims =>
      if allowed then serveProtected g service i claims q.method route s
      else (methodNotAllowed route, s)
  else if allowed then (publicAnswer g s route, afterPublic route s)
  else (methodNotAllowed route, s)

/-- The response to a request, before it is counted. -/
def respond {σ : Type} (g : Config) (service : Service σ) (q : Request) (i : Interrupts)
    (s : Session σ) : Response × Session σ :=
  match Route.ofPath? q.path with
  | none => (.ofStatus 404, s)
  | some route =>
    let (r, s) := serveRoute g service q i route s
    (if q.method = "HEAD" ∧ route.methods.contains "HEAD" then r.withoutBody else r, s)

/-- Lets happen what happened while a request was served. -/
def Session.interrupted {σ : Type} (s : Session σ) (i : Interrupts) (started : Nat) : Session σ :=
  let passed (after : Option Nat) : Bool := (after.map fun t => decide (started + t ≤ s.now)).getD false
  { s with draining := s.draining || passed i.drainAfter, stopped := s.stopped || passed i.stopAfter }

/-- Serves a request and counts the response. -/
def serve {σ : Type} (g : Config) (service : Service σ) (q : Request) (i : Interrupts)
    (s : Session σ) : Response × Session σ :=
  let (r, after) := respond g service q i s
  let note := Note.request q.method q.path r.status (1000000 * (after.now - s.now))
  (r, (after.observe [note]).interrupted i s.now)

/-- Serves what comes over a connection; what cannot be read as a request is refused without being counted. -/
def receive {σ : Type} (g : Config) (service : Service σ) (q : Request) (i : Interrupts)
    (s : Session σ) : Response × Session σ :=
  match q.received? with
  | none => (.ofStatus 400, s)
  | some q =>
    let (r, s) := serve g service q i s
    (r.sent q.method, s)

end DirectoryGateway.Gateway
