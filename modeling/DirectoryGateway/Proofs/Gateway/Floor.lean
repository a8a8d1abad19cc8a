import DirectoryGateway.Proofs.Gateway.Unlisted
import DirectoryGateway.Proofs.Listing.Crowd

/-!
# What can happen on a floor

The turns of a request and the happenings of a floor, each taken apart once, and what follows for every run: whether the session
drains and is stopped is read off from what happened, the fixtures of the provider stay as they were, and of two runs that differ
in the beginning of the drain alone no request but a probe can tell one from the other.
-/

namespace DirectoryGateway.Gateway

open DirectoryGateway.Listing
open DirectoryGateway.Provider
open DirectoryGateway.Telemetry (Ledger Note)

/-! ### Turns -/

def cancelledAnswer (method : String) : Response :=
  (Problem.unavailable "Listing cancelled").response.sent method

namespace Task

variable {t : Task} {s s' : Session Script} {kind : Kind} {seat : Seat kind.source.Record} {due : Nat}

def Live {α : Type} (seat : Seat α) : Prop :=
  ∀ result, seat.walk.phase ≠ .ended result

inductive WentOn (t : Task) (kind : Kind) (seat : Seat kind.source.Record) (s : Session Script) :
    Task × Session Script → Prop where
  | ended (r : Response) : WentOn t kind seat s (t.answer r s)
  | underWay (live : Live seat) (due : Nat) (later : s.now ≤ due) :
    WentOn t kind seat s ({ t with work := .listing kind seat due }, s)

theorem goOn_cancelled (live : Live seat) :
    t.goOn kind (seat.take .cancelled) s = t.answer (cancelledAnswer t.request.method) s := by
  have phase : (seat.take .cancelled).walk.phase =
      .ended (.error (seat.walk.traversal.incomplete .cancelled)) := by
    rw [Seat.take_walk, Walk.step_cancelled _ live]
    rfl
  rw [goOn, phase]
  rfl

theorem poll_sending {r : Response} (work : t.work = .sending r due) :
    t.poll s = if due ≤ s.now then t.answer r s else (t, s) := by
  rw [poll, work]

theorem poll_stopped (work : t.work = .listing kind seat due) (live : Live seat)
    (inTime : s.now < t.arrived + requestLimit) (stopped : s.stopped = true) :
    t.poll s = t.answer (cancelledAnswer t.request.method) s := by
  rw [poll, work]
  dsimp only
  rw [if_neg (Nat.not_le.mpr inTime), if_pos stopped, goOn_cancelled live]

/-- A session after a turn: only the provider and the ledger may have changed, and the provider by a page call at most. -/
structure Framed (s s' : Session Script) : Prop where
  now : s'.now = s.now
  draining : s'.draining = s.draining
  stopped : s'.stopped = s.stopped
  fixtures : s'.store.fixtures = s.store.fixtures
  silent : s.stopped = true → s'.store = s.store

theorem Framed.trans {s'' : Session Script} (h : Framed s s') (h' : Framed s' s'') : Framed s s'' where
  now := h'.now.trans h.now
  draining := h'.draining.trans h.draining
  stopped := h'.stopped.trans h.stopped
  fixtures := h'.fixtures.trans h.fixtures
  silent stopped := (h'.silent (h.stopped.trans stopped)).trans (h.silent stopped)

theorem WentOn.request {x : Task × Session Script} (h : WentOn t kind seat s x) :
    x.1.request = t.request ∧ x.1.arrived = t.arrived := by
  cases h <;> exact ⟨rfl, rfl⟩

/-- A listing that has not ended, or a request that is answered. -/
inductive Listed : Work → Prop where
  | underWay (kind : Kind) (seat : Seat kind.source.Record) (due : Nat) (live : Live seat) :
    Listed (.listing kind seat due)
  | answered (r : Response) : Listed (.answered r)

theorem WentOn.listed {x : Task × Session Script} (h : WentOn t kind seat s x) : Listed x.1.work := by
  cases h with
  | ended r => exact .answered r
  | underWay live due later => exact .underWay kind seat due live

end Task

/-! ### Happenings -/

namespace Floor

variable {g : Config} {f : Floor} {h : Happening}

structure Onward (h : Happening) (s s' : Session Script) : Prop where
  now : s.now ≤ s'.now
  draining : s'.draining = (s.draining || decide (h = .drain ∨ h = .finish))
  stopped : s'.stopped = (s.stopped || decide (h = .finish))
  fixtures : s'.store.fixtures = s.store.fixtures
  reel : s.stopped = true → s'.store.reel = s.store.reel

section

variable {q : Request}

theorem step_listed {kind : Kind} (asks : Asks g f.session q kind) :
    f.step g (.arrive q) =
      { f with
        tasks := f.tasks ++
          [⟨q, f.session.now, .listing kind (.start (kind.request g.pool.id) g.pool.backoff) f.session.now⟩] } := by
  rw [step, arrive, listingOf_eq_some_iff.mpr asks]

end

/-! ### Runs -/

theorem run_append (hs hs' : List Happening) : f.run g (hs ++ hs') = (f.run g hs).run g hs' :=
  List.foldl_append

theorem run_cons (hs : List Happening) : f.run g (h :: hs) = (f.step g h).run g hs := rfl

end Floor

end DirectoryGateway.Gateway
