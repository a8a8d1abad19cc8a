import DirectoryGateway.Listing.Traversal
import DirectoryGateway.Settings.Backoff
import DirectoryGateway.Text.Quoted

/-!
# Settings

The settings of the gateway, read from named variables. Only the pool must be given. Variables are looked at in a
fixed order, and the first fault is the one that is reported.
-/

namespace DirectoryGateway

open DirectoryGateway.Text

structure Settings where
  pool : String
  region : String
  bindAddress : String
  keySetUrl : String
  issuer : String
  /-- The waits of a throttled listing, in milliseconds. -/
  backoff : Listing.Backoff
  pageSize : Int
  /-- How long a call may take, in seconds. -/
  providerTimeout : Nat
  /-- Where the provider is, if not at its usual place. -/
  providerEndpoint : Option String
  /-- How far clocks may differ, in seconds. -/
  clockSkew : Nat
  /-- The group whose members may change memberships. -/
  adminGroup : String
  /-- How long requests may go on after the order to stop, in seconds. -/
  drainPeriod : Nat
  deriving Repr, DecidableEq

namespace Settings

/-- Variables with their values, each name once. -/
abbrev Variables := List (String × String)

/-! ### Faults -/

inductive RangeFault where
  | unreadable (name given : String) (fault : IntegerFault)
  | outOfRange (name : String) (least greatest value : Int)
  deriving Repr, DecidableEq

def RangeFault.message : RangeFault → String
  | .unreadable name given fault =>
    name ++ " must be a valid integer, got '" ++ given ++ "': " ++ fault.message
  | .outOfRange name least greatest value =>
    name ++ " must be between " ++ toString least ++ " and " ++ toString greatest ++ ", got " ++
      toString value

inductive Fault where
  | missing (name : String)
  | backoff (fault : BackoffFault)
  | pageSize (fault : RangeFault)
  | providerTimeout (fault : RangeFault)
  | clockSkew (fault : RangeFault)
  | drainPeriod (fault : RangeFault)
  deriving Repr, DecidableEq

namespace Fault

def detail : Fault → String
  | .missing name => name
  | .backoff fault => fault.message
  | .pageSize fault => fault.message
  | .providerTimeout fault => fault.message
  | .clockSkew fault => fault.message
  | .drainPeriod fault => fault.message

def label : Fault → String
  | .missing _ => "MissingEnvVar"
  | .backoff _ => "InvalidBackoffSchedule"
  | .pageSize _ => "InvalidPageSize"
  | .providerTimeout _ => "InvalidProviderTimeout"
  | .clockSkew _ => "InvalidJwtClockSkew"
  | .drainPeriod _ => "InvalidDrainPeriod"

/-- What comes before the detail in a message. -/
def heading : Fault → String
  | .missing _ => "Missing required environment variable: "
  | .backoff _ => "Invalid backoff schedule: "
  | .pageSize _ => "Invalid page size: "
  | .providerTimeout _ => "Invalid provider timeout: "
  | .clockSkew _ => "Invalid JWT clock skew configuration: "
  | .drainPeriod _ => "Invalid drain period: "

def message (f : Fault) : String :=
  f.heading ++ f.detail

/-- The form in which a fault ends the program. -/
def diagnostic (f : Fault) : String :=
  f.label ++ "(" ++ quoted f.detail ++ ")"

end Fault

/-! ### Values derived from others -/

def poolIssuer (region pool : String) : String :=
  "https://cognito-idp." ++ region ++ ".amazonaws.com/" ++ pool

/-- Where the keys of a pool are published. -/
def discoveryUrl (region pool : String) : String :=
  "https://cognito-idp." ++ region ++ ".amazonaws.com/" ++ pool ++ "/.well-known/jwks.json"

/-! ### Reading -/

/-- The pool, without the blanks around it. -/
def readPool (vars : Variables) : Except Fault String :=
  match vars.lookup "USER_POOL_ID" with
  | some v => if blank v then .error (.missing "USER_POOL_ID") else .ok (trimmed v)
  | none => .error (.missing "USER_POOL_ID")

def readSchedule (vars : Variables) : Except Fault Listing.Backoff :=
  match vars.lookup "BACKOFF_SCHEDULE_MS" with
  | some v => (readBackoff v).mapError .backoff
  | none => .ok Listing.Backoff.standard

def checkRange (name : String) (least greatest value : Int) : Except RangeFault Int :=
  if value < least ∨ greatest < value then .error (.outOfRange name least greatest value)
  else .ok value

/-- A natural number in a range, or a default when the variable is not set. -/
def readBounded (vars : Variables) (name : String) (default least greatest : Nat) :
    Except RangeFault Nat :=
  match vars.lookup name with
  | none => .ok default
  | some given =>
    match readNat maxWord64 (trim given.toList) with
    | .error fault => .error (.unreadable name given fault)
    | .ok n => (checkRange name least greatest n).map Int.toNat

def maxPageSize : Int := 60

/-- The page size; it may be written with a minus sign, but then it is out of range. -/
def readPageSize (vars : Variables) : Except RangeFault Int :=
  match vars.lookup "PAGE_SIZE" with
  | none => .ok maxPageSize
  | some given =>
    match readInt maxInt32 (trim given.toList) with
    | .error fault => .error (.unreadable "PAGE_SIZE" given fault)
    | .ok n => checkRange "PAGE_SIZE" 1 maxPageSize n

def ofVariables (vars : Variables) : Except Fault Settings := do
  let pool ← readPool vars
  let region := (vars.lookup "POOL_REGION").getD "us-east-1"
  let backoff ← readSchedule vars
  let pageSize ← (readPageSize vars).mapError .pageSize
  let providerTimeout ←
    (readBounded vars "PROVIDER_TIMEOUT_SECONDS" 10 1 120).mapError .providerTimeout
  let clockSkew ← (readBounded vars "JWT_CLOCK_SKEW_SECONDS" 60 1 600).mapError .clockSkew
  let drainPeriod ← (readBounded vars "DRAIN_SECONDS" 30 0 3600).mapError .drainPeriod
  return {
    pool, region, backoff, pageSize, providerTimeout, clockSkew, drainPeriod
    bindAddress := (vars.lookup "BIND_ADDRESS").getD "0.0.0.0:8080"
    keySetUrl := (vars.lookup "JWKS_URL").getD (discoveryUrl region pool)
    issuer := (vars.lookup "TOKEN_ISSUER").getD (poolIssuer region pool)
    providerEndpoint := (vars.lookup "PROVIDER_ENDPOINT_URL").filter fun v => !blank v
    adminGroup := (vars.lookup "ADMIN_GROUP").getD "admin" }

end Settings

end DirectoryGateway
