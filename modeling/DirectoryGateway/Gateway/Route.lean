import DirectoryGateway.Telemetry.Endpoint
import DirectoryGateway.Text.Percent
import DirectoryGateway.Text.Target

/-!
# Routes

The paths that the gateway knows, with the segments in which they hold names. A name's segment in the middle of a
path may be empty, but not the last one.
-/

namespace DirectoryGateway.Gateway

/-- A known path, with its names as they are written. -/
inductive Route where
  | health
  | ready
  | metrics
  | me
  | groups
  | users
  | user (username : String)
  | members (group : String)
  | membership (group username : String)
  deriving Repr, DecidableEq

namespace Route

def ofSegments? : List String → Option Route
  | ["", "health"] => some .health
  | ["", "ready"] => some .ready
  | ["", "metrics"] => some .metrics
  | ["", "api", "v1", "me"] => some .me
  | ["", "api", "v1", "groups"] => some .groups
  | ["", "api", "v1", "users"] => some .users
  | ["", "api", "v1", "users", u] => if u = "" then none else some (.user u)
  | ["", "api", "v1", "groups", g, "users"] => some (.members g)
  | ["", "api", "v1", "groups", g, "users", u] => if u = "" then none else some (.membership g u)
  | _ => none

def segments (path : String) : List String :=
  (Text.splitAt '/' path.toList).map String.ofList

def ofPath? (path : String) : Option Route :=
  ofSegments? (segments path)

def endpoint : Route → Telemetry.Endpoint
  | .health => .health
  | .ready => .ready
  | .metrics => .metrics
  | .me => .me
  | .groups => .groups
  | .users => .users
  | .user _ => .user
  | .members _ => .members
  | .membership .. => .membership

def isProtected : Route → Bool
  | .health => false
  | .ready => false
  | .metrics => false
  | _ => true

def methods : Route → List String
  | .membership .. => ["PUT", "DELETE"]
  | _ => ["GET", "HEAD"]

def allow (r : Route) : String :=
  String.intercalate "," r.methods

/-! ### Names -/

/-- What a client is told about a segment that is no text. -/
def badSegment (field : String) : String :=
  "Invalid URL: Invalid UTF-8 in \x60" ++ field ++ "\x60"

/-- The name that a segment stands for; the field is told if it is no text. -/
def readName (field segment : String) : Except String String :=
  match Text.percentText? segment with
  | some name => .ok name
  | none => .error (badSegment field)

end Route

/-- The path of a request target. A target of no known form has no path. -/
def pathOfTarget (target : String) : String :=
  String.ofList ((Text.targetPath? target.toList).getD [])

end DirectoryGateway.Gateway
