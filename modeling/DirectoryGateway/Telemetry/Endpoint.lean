import DirectoryGateway.Text.Blank

/-!
# Endpoints and status classes

The labels of HTTP metrics. A request path becomes one of a fixed list of endpoints, so that names of users
and groups never reach the metrics; a status code becomes one of three classes.
-/

namespace DirectoryGateway.Telemetry

/-! ### Endpoints -/

/-- What a request path is counted under. -/
inductive Endpoint where
  | root
  | health
  | ready
  | metrics
  | me
  | groups
  | users
  | user
  | members
  | membership
  | other
  deriving Repr, DecidableEq

namespace Endpoint

/-- The label of an endpoint, with braces where a path has a name. -/
def label : Endpoint → String
  | .root => "/"
  | .health => "/health"
  | .ready => "/ready"
  | .metrics => "/metrics"
  | .me => "/api/v1/me"
  | .groups => "/api/v1/groups"
  | .users => "/api/v1/users"
  | .user => "/api/v1/users/\x7busername\x7d"
  | .members => "/api/v1/groups/\x7bgroup\x7d/users"
  | .membership => "/api/v1/groups/\x7bgroup\x7d/users/\x7busername\x7d"
  | .other => "/other"

/-- The endpoints whose label is the whole path. -/
def fixed : List Endpoint :=
  [.root, .health, .ready, .metrics, .me, .groups, .users]

def ofSegments : List String → Endpoint
  | ["api", "v1", "users", _] => .user
  | ["api", "v1", "groups", _, "users"] => .members
  | ["api", "v1", "groups", _, "users", _] => .membership
  | _ => .other

/-- The endpoint of a path; slashes in front do not count for paths with names. -/
def ofPath (path : String) : Endpoint :=
  match fixed.find? fun e => e.label == path with
  | some e => e
  | none =>
    ofSegments ((Text.splitAt '/' (path.toList.dropWhile (· == '/'))).map String.ofList)

end Endpoint

/-! ### Status classes -/

/-- What a status code is timed under. -/
inductive StatusClass where
  | success
  | timeout
  | error
  deriving Repr, DecidableEq

def StatusClass.label : StatusClass → String
  | .success => "success"
  | .timeout => "timeout"
  | .error => "error"

def StatusClass.ofStatus (status : Nat) : StatusClass :=
  if 200 ≤ status ∧ status ≤ 299 then .success
  else if status = 408 ∨ status = 504 then .timeout
  else .error

end DirectoryGateway.Telemetry
