import DirectoryGateway.Gateway.Session
import DirectoryGateway.KeySet.Fetch
import DirectoryGateway.Remote.Refusal
import DirectoryGateway.Startup.Address

/-!
# Starting

The gateway starts from its variables and the replies of the server that they name for the key set. It reads its
settings, installs the ledger, fetches and resolves the keys, loads them, and reads the address to listen at. The first
stage that fails ends the program; nothing is served and the provider is not called unless all of them succeed.
-/

namespace DirectoryGateway.Startup

open DirectoryGateway.Gateway

/-! ### Faults -/

inductive Fault where
  | settings (fault : Settings.Fault)
  | ledger (fault : Telemetry.InstallFault)
  | keySet (fault : KeySet.Fault)
  | verifier (fault : Token.LoadFault)
  | address
  /-- The system does not let the gateway listen. -/
  | listen (reason : String)
  deriving Repr, DecidableEq

/-- The form in which a fault ends the program. -/
def Fault.diagnostic : Fault → String
  | .settings f => f.diagnostic
  | .ledger f => Text.quoted f.message
  | .keySet f => f.diagnostic
  | .verifier f => f.diagnostic
  | .address => "AddrParseError(Socket)"
  | .listen reason => reason

/-! ### The world -/

/-- What the gateway finds when it starts. -/
structure World where
  vars : Settings.Variables
  /-- The ledger that is installed already. -/
  ledger : Option Telemetry.Ledger
  /-- The replies of a server to the requests for the key set. -/
  replies : Text.Server → List KeySet.Reply
  elsewhere : KeySet.Elsewhere
  /-- Whether the gateway may listen at an address, or why not. -/
  listen : SocketAddress → Except String Unit
  /-- How the failures of the pool service are put that it says nothing about. -/
  wording : Remote.Wording
  /-- The time of the epoch, in seconds. -/
  epoch : Nat

structure Started where
  config : Config
  address : SocketAddress
  ledger : Telemetry.Ledger

/-- How a start went: what came of it, and the requests for the key set. -/
structure Outcome where
  result : Except Fault Started
  targets : List String

/-! ### Stages -/

def fetchKeys (w : World) (settings : Settings) : KeySet.Fetch :=
  KeySet.fetch w.elsewhere (1000 * settings.providerTimeout) settings.keySetUrl w.replies

/-- The stages after the fetch. -/
def finish (w : World) (settings : Settings) (ledger : Telemetry.Ledger) (f : KeySet.Fetch) :
    Except Fault Started := do
  let keys ← f.resolve.mapError .keySet
  let verifier ←
    (Token.Verifier.ofKeyMap keys settings.issuer settings.clockSkew).mapError .verifier
  match SocketAddress.read? settings.bindAddress with
  | none => .error .address
  | some address =>
    (w.listen address).mapError .listen
    return { config := ⟨settings, verifier, w.epoch⟩, address := address, ledger := ledger.note f.note }

def start (w : World) : Outcome :=
  match Settings.ofVariables w.vars with
  | .error fault => ⟨.error (.settings fault), []⟩
  | .ok settings =>
    match Telemetry.install w.ledger with
    | .error fault => ⟨.error (.ledger fault), []⟩
    | .ok ledger =>
      let f := fetchKeys w settings
      ⟨finish w settings ledger f, f.targets⟩

def Outcome.exitCode (o : Outcome) : UInt8 :=
  match o.result with
  | .ok _ => 0
  | .error _ => 1

end DirectoryGateway.Startup
