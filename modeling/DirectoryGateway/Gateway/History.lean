import DirectoryGateway.Gateway.Session

/-!
# Histories

What can happen to a session, one thing after the other: a request comes, as such or over a connection, the session
begins to drain, or it is told to stop. A history leads from a session to the responses that were given and the session
after it.
-/

namespace DirectoryGateway.Gateway

open DirectoryGateway.Provider

variable {σ : Type}

inductive Moment where
  | request (q : Request) (i : Interrupts)
  /-- A request over a connection. -/
  | message (q : Request) (i : Interrupts)
  | drain
  | finish
  deriving Repr, DecidableEq

/-- Lets one thing happen; a request gets a response. -/
def Moment.play (g : Config) (service : Service σ) (s : Session σ) : Moment → Option Response × Session σ
  | .request q i =>
    let (r, s) := serve g service q i s
    (some r, s)
  | .message q i =>
    let (r, s) := receive g service q i s
    (some r, s)
  | .drain => (none, s.drain)
  | .finish => (none, s.finish)

/-- Lets one thing happen after the other, with what each of them led to. -/
def trace (g : Config) (service : Service σ) (s : Session σ) :
    List Moment → List (Option Response × Session σ)
  | [] => []
  | m :: ms =>
    let step := m.play g service s
    step :: trace g service step.2 ms

def after (g : Config) (service : Service σ) (s : Session σ) (ms : List Moment) : Session σ :=
  ms.foldl (fun s m => (m.play g service s).2) s

def responses (g : Config) (service : Service σ) (s : Session σ) (ms : List Moment) : List Response :=
  (trace g service s ms).filterMap Prod.fst

end DirectoryGateway.Gateway
