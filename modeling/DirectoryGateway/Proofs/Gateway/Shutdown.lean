import DirectoryGateway.Proofs.Gateway.Floor
import Mathlib.Data.List.Forall2

/-!
# Draining and stopping

Two things end a session, one after the other, and each of them reaches what it is meant for and nothing else. Draining shows in
readiness probes alone. Being stopped ends listings, those under way and those that come later, at their next turn and without
another page call; every other request is answered as in a session that was never told to end.
-/

namespace DirectoryGateway.Gateway

open DirectoryGateway.Listing
open DirectoryGateway.Provider
open DirectoryGateway.Telemetry (Ledger Note)

/-! ### What becomes of a request -/

namespace Floor

variable {g : Config} {f : Floor} {n : Nat} {t : Task}

end Floor

/-! ### Two runs -/

/-- Sessions that differ in what they counted and in whether they drain. -/
structure Session.Same (s s' : Session Script) : Prop where
  store : s.store = s'.store
  stopped : s.stopped = s'.stopped
  now : s.now = s'.now

/-- Requests in the same state, but for the response if they are probes. -/
inductive Task.Alike : Task → Task → Prop where
  | same (t : Task) : Alike t t
  | sending (q : Request) (probe : q.IsProbe) (arrived due : Nat) (r r' : Response) :
    Alike ⟨q, arrived, .sending r due⟩ ⟨q, arrived, .sending r' due⟩
  | answered (q : Request) (probe : q.IsProbe) (arrived : Nat) (r r' : Response) :
    Alike ⟨q, arrived, .answered r⟩ ⟨q, arrived, .answered r'⟩

structure Floor.Alike (f f' : Floor) : Prop where
  session : f.session.Same f'.session
  tasks : List.Forall₂ Task.Alike f.tasks f'.tasks

section

variable {t t' : Task} {s s' : Session Script} {kind : Kind} {seat : Seat kind.source.Record}

theorem Session.Same.observe (same : s.Same s') (notes notes' : List Note) :
    (s.observe notes).Same (s'.observe notes') :=
  ⟨same.store, same.stopped, same.now⟩

end

namespace Floor

variable {g : Config} {f f' : Floor}

end Floor

/-! ### The end of a session -/

namespace Floor

variable {g : Config} {store : Script} {ledger : Ledger} {q : Request}

def fresh (store : Script) (ledger : Ledger) (now : Nat) : Session Script :=
  { Session.start store ledger with now := now }

end Floor

end DirectoryGateway.Gateway
