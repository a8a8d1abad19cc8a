import DirectoryGateway.Directory.Record
import DirectoryGateway.Gateway.Response
import DirectoryGateway.Listing.Traversal

/-!
# Problems

What a request is refused with. A response names the kind of problem and says no more than callers may know: what a
provider said stays inside, and so do the records that an incomplete listing gathered.
-/

namespace DirectoryGateway.Gateway

open DirectoryGateway.Provider

inductive Problem where
  | invalidToken (reason : String)
  | notFound (reason : String)
  | conflict (reason : String)
  | rateLimited
  | forbidden (reason : String)
  | badRequest (reason : String)
  | unavailable (reason : String)
  deriving Repr, DecidableEq

namespace Problem

/-! ### Wording -/

def label : Problem → String
  | .invalidToken _ => "InvalidToken"
  | .notFound _ => "NotFound"
  | .conflict _ => "Conflict"
  | .rateLimited => "RateLimitExceeded"
  | .forbidden _ => "Forbidden"
  | .badRequest _ => "BadRequest"
  | .unavailable _ => "ServiceUnavailable"

def ofLabel? (label reason : String) : Option Problem :=
  [.invalidToken reason, .notFound reason, .conflict reason, .rateLimited, .forbidden reason,
    .badRequest reason, .unavailable reason].find? fun p => p.label == label

/-- The wording of a problem, for the log. -/
def message : Problem → String
  | .invalidToken reason => "Invalid token: " ++ reason
  | .notFound reason => "Not found: " ++ reason
  | .conflict reason => "Conflict: " ++ reason
  | .rateLimited => "Rate limit exceeded"
  | .forbidden reason => "Forbidden: " ++ reason
  | .badRequest reason => "Bad request: " ++ reason
  | .unavailable reason => "Service unavailable: " ++ reason

def status : Problem → Nat
  | .invalidToken _ => 401
  | .notFound _ => 404
  | .conflict _ => 409
  | .rateLimited => 429
  | .forbidden _ => 403
  | .badRequest _ => 400
  | .unavailable _ => 503

/-- The code by which clients tell problems apart. -/
def code : Problem → String
  | .invalidToken _ => "INVALID_TOKEN"
  | .notFound _ => "NOT_FOUND"
  | .conflict _ => "CONFLICT"
  | .rateLimited => "RATE_LIMIT_EXCEEDED"
  | .forbidden _ => "FORBIDDEN"
  | .badRequest _ => "BAD_REQUEST"
  | .unavailable _ => "SERVICE_UNAVAILABLE"

def publicMessage : Problem → String
  | .invalidToken reason => reason
  | .notFound reason => reason
  | .conflict reason => reason
  | .rateLimited => "Too many requests. Please try again later."
  | .forbidden reason => reason
  | .badRequest reason => reason
  | .unavailable _ => "Service temporarily unavailable"

/-! ### Responses -/

/-- What a response without a valid token asks for. -/
def challenge : String :=
  "Bearer realm=\"pool-gateway\", error=\"invalid_token\""

def body (p : Problem) : Json :=
  .obj [("error", .obj [("code", .str p.code), ("message", .str p.publicMessage)])]

def response (p : Problem) : Response :=
  let r := Response.ofJson p.status p.body
  match p with
  | .invalidToken _ => r.withHeader "www-authenticate" challenge
  | _ => r

/-! ### Causes -/

def ofFailure (f : Failure) : Problem :=
  match f.kind with
  | .throttled => .rateLimited
  | .notFound => .notFound "Resource not found"
  | .permissionDenied => .forbidden "Operation not permitted"
  | .invalidParameter => .badRequest "Invalid request parameters"
  | .alreadyExists => .conflict "Resource already exists"
  | .internal => .unavailable ("Identity provider error: " ++ f.text)
  | .unavailable => .unavailable ("Identity provider error: " ++ f.text)
  | .unknown => .unavailable ("Identity provider error: " ++ f.text)

def ofCause : Listing.Cause → Problem
  | .retriesExhausted _ last => ofFailure last
  | .provider failure => ofFailure failure
  | .cancelled => .unavailable "Listing cancelled"

def ofIncomplete {α : Type} (i : Listing.Incomplete α) : Problem :=
  ofCause i.cause

def ofName (field : String) (fault : Directory.NameFault) : Problem :=
  .badRequest (fault.message field)

end Problem

def checkName (field name : String) : Except Problem Unit :=
  match Directory.nameFault? name with
  | some fault => .error (.ofName field fault)
  | none => .ok ()

end DirectoryGateway.Gateway
