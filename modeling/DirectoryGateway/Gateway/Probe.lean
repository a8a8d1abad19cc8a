import DirectoryGateway.Json.Reader
import DirectoryGateway.Json.Record
import DirectoryGateway.Text.Integer

/-!
# Answers to probes

What the gateway says of itself: that it lives, and whether it is ready for traffic.
-/

namespace DirectoryGateway.Gateway

open DirectoryGateway.Text (maxWord64)
open Json (required)

/-! ### Liveness -/

/-- The answer to a liveness probe. -/
structure Health where
  status : String
  region : String
  deriving Repr, DecidableEq

def Health.healthy (region : String) : Health :=
  ⟨"healthy", region⟩

def Health.toJson (h : Health) : Json :=
  .obj [("status", .str h.status), ("region", .str h.region)]

def Health.ofJson? (v : Json) : Option Health :=
  match Json.slots [⟨["status"], false⟩, ⟨["region"], false⟩] v with
  | some [status, region] => do
    return { status := ← required Json.toText? status, region := ← required Json.toText? region }
  | _ => none

/-! ### Readiness -/

/-- The answer to a readiness probe. -/
structure Readiness where
  status : String
  keyCount : Nat
  deriving Repr, DecidableEq

def Readiness.ofState (draining : Bool) (keyCount : Nat) : Readiness :=
  ⟨if draining then "draining" else "ready", keyCount⟩

def Readiness.toJson (r : Readiness) : Json :=
  .obj [("status", .str r.status), ("verification_keys", .nat r.keyCount)]

def Readiness.ofJson? (v : Json) : Option Readiness :=
  match Json.slots [⟨["status"], false⟩, ⟨["verification_keys"], false⟩] v with
  | some [status, keyCount] => do
    return {
      status := ← required Json.toText? status
      keyCount := ← required (Json.toNat? maxWord64) keyCount }
  | _ => none

end DirectoryGateway.Gateway
