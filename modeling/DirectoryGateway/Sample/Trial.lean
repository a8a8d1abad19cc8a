import DirectoryGateway.Sample.Draft
import DirectoryGateway.Gateway.Session

/-!
# Sample gateways

Gateways that trust the primary key, with settings that suit trials: short waits and a region of their own. Given
variables replace those of the trial settings.
-/

namespace DirectoryGateway.Sample

open DirectoryGateway.Gateway

/-- Variables in which those given replace the others. -/
def override (given defaults : Settings.Variables) : Settings.Variables :=
  given ++ defaults.filter fun d => (given.lookup d.1).isNone

def trialVariables : Settings.Variables :=
  [("USER_POOL_ID", "us-east-1_TestPool"), ("POOL_REGION", "test-region"),
    ("BIND_ADDRESS", "127.0.0.1:0"), ("TOKEN_ISSUER", primaryIssuer),
    ("BACKOFF_SCHEDULE_MS", "5,10,20"), ("ADMIN_GROUP", "admin")]

inductive TrialFault where
  | settings (fault : Settings.Fault)
  | keys (fault : Token.LoadFault)
  deriving Repr, DecidableEq

def TrialFault.message : TrialFault → String
  | .settings f => "Failed to create config: " ++ f.message
  | .keys f => "Failed to load test keys: " ++ f.message

def trialConfig (given : Settings.Variables) (epoch : Nat) : Except TrialFault Config := do
  let settings ← (Settings.ofVariables (override given trialVariables)).mapError .settings
  let verifier ←
    (Token.Verifier.ofKeyMap primaryKeyMap settings.issuer settings.clockSkew).mapError .keys
  return ⟨settings, verifier, epoch⟩

end DirectoryGateway.Sample
