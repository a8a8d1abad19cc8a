import DirectoryGateway.Gateway.History
import DirectoryGateway.Remote.Service
import DirectoryGateway.Startup.Basic

/-!
# The program

The gateway starts, and if that goes well it serves what comes, with the pool service as its provider.
-/

namespace DirectoryGateway.Startup

open DirectoryGateway.Gateway
open DirectoryGateway.Remote (Answer Line Sent Wording)

namespace Started

def service (s : Started) : Provider.Service Line :=
  Remote.service s.config.settings.pageSize

/-- The session that begins when the start is over, with the answers that the pool service will give. -/
def session (s : Started) (wording : Wording) (answers : List (Option Answer)) : Session Line :=
  .start ⟨answers, [], wording⟩ s.ledger

end Started

/-- What became of the program: its start, the responses that it gave, and its requests to the pool service. -/
structure Course where
  outcome : Outcome
  responses : List Response
  sent : List Sent

/-- Starts, and lets one thing happen after the other if that goes well. -/
def run (w : World) (answers : List (Option Answer)) (ms : List Moment) : Course :=
  let outcome := start w
  match outcome.result with
  | .error _ => ⟨outcome, [], []⟩
  | .ok started =>
    let session := started.session w.wording answers
    ⟨outcome, responses started.config started.service session ms,
      (after started.config started.service session ms).store.sent⟩

end DirectoryGateway.Startup
