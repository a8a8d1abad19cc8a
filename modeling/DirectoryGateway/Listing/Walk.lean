import DirectoryGateway.Listing.Traversal

/-!
# Listings step by step

A listing drives a traversal: it looks whether it was cancelled, makes a page call, takes in the outcome, and
either goes on, waits or ends. `Walk.step` is one such move. An event says what happened to the listing, an act
what the listing does to the world. A listing that finds that it was cancelled sees nothing else, and begins nothing
more.
-/

namespace DirectoryGateway.Listing

open DirectoryGateway.Provider

inductive Phase (α : Type) where
  /-- It is about to look whether it was cancelled. -/
  | checking
  | calling
  /-- It waits before it repeats a call. -/
  | waiting (delay : Nat)
  | ended (result : Result α)
  deriving Repr

inductive Event (α : Type) where
  /-- It looked, and was not cancelled. -/
  | clear
  | cancelled
  /-- The page call came to an outcome. -/
  | answered (outcome : PageOutcome α)
  | waited
  deriving Repr

inductive Act where
  | call (request : ListingRequest)
  | page
  | retry
  | wait (delay : Nat)
  deriving Repr, DecidableEq

structure Walk (α : Type) where
  traversal : Traversal α
  phase : Phase α
  deriving Repr

namespace Walk

variable {α : Type}

def start (request : ListingRequest) (schedule : Backoff) : Walk α :=
  ⟨.start request schedule, .checking⟩

def stop (w : Walk α) (cause : Cause) : Walk α :=
  { w with phase := .ended (.error (w.traversal.incomplete cause)) }

/-- The phase and the acts that a step of the traversal leads to. -/
def follow (t : Traversal α) : Step → Phase α × List Act
  | .fetch => (.checking, [])
  | .backoff delay => (.waiting delay, [.retry, .wait delay])
  | .complete => (.ended (.ok t.items), [])
  | .abort cause => (.ended (.error (t.incomplete cause)), [])

/-- Takes in the outcome of the call under way. -/
def answer (w : Walk α) (outcome : PageOutcome α) : Walk α × List Act :=
  let (t, step) := w.traversal.advance outcome
  let (phase, acts) := follow t step
  (⟨t, phase⟩, (match outcome with | .ok _ => [.page] | .error _ => []) ++ acts)

/-- One move. Events that do not fit the phase change nothing. -/
def step (w : Walk α) (e : Event α) : Walk α × List Act :=
  match w.phase, e with
  | .checking, .clear => ({ w with phase := .calling }, [.call w.traversal.request])
  | .checking, .cancelled => (w.stop .cancelled, [])
  | .calling, .answered outcome => w.answer outcome
  | .calling, .cancelled => (w.stop .cancelled, [])
  | .waiting _, .waited => ({ w with phase := .checking }, [])
  | .waiting _, .cancelled => (w.stop .cancelled, [])
  | _, _ => (w, [])

/-- Many moves, with all acts in order. -/
def steps (w : Walk α) : List (Event α) → Walk α × List Act
  | [] => (w, [])
  | e :: es =>
    let (w, acts) := w.step e
    let (w, more) := w.steps es
    (w, acts ++ more)

end Walk

end DirectoryGateway.Listing
