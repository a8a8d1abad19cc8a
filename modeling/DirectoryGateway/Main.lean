import DirectoryGateway.Startup.Basic

/-!
# The command line

Tries a start: the settings come from the environment, and the document of the key set from standard input. Prints
what the gateway would serve with, or the fault that keeps it from starting.
-/

namespace DirectoryGateway

def settingNames : List String :=
  ["USER_POOL_ID", "POOL_REGION", "BIND_ADDRESS", "JWKS_URL", "TOKEN_ISSUER", "BACKOFF_SCHEDULE_MS",
    "PAGE_SIZE", "PROVIDER_TIMEOUT_SECONDS", "PROVIDER_ENDPOINT_URL", "JWT_CLOCK_SKEW_SECONDS",
    "ADMIN_GROUP", "DRAIN_SECONDS"]

def readVariables : IO Settings.Variables :=
  settingNames.filterMapM fun name => do return (← IO.getEnv name).map fun value => (name, value)

/-- What is found when the gateway starts and every server answers with a key set's document. -/
def worldOf (vars : Settings.Variables) (document : String) : Startup.World where
  vars := vars
  ledger := none
  replies _ := [⟨some ⟨200, [], Bytes.ofText document⟩, 0⟩]
  elsewhere _ _ := none
  listen _ := .ok ()
  wording _ _ := ""
  epoch := 0

def summary (s : Startup.Started) : String :=
  s!"pool {s.config.settings.pool}, {s.config.verifier.keyCount} verification keys"

def tryStart : IO UInt32 := do
  let document ← (← IO.getStdin).readToEnd
  let outcome := Startup.start (worldOf (← readVariables) document)
  match outcome.result with
  | .ok started => IO.println (summary started)
  | .error fault => IO.eprintln ("Error: " ++ fault.diagnostic)
  return outcome.exitCode.toUInt32

end DirectoryGateway

/-- Tries a start; the exit code tells whether it went well. -/
def main : IO UInt32 :=
  DirectoryGateway.tryStart
