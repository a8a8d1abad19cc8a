import DirectoryGateway.Provider.Page

/-!
# Traversals

The state of walking through a collection, and how the outcome of a page call changes it. A page is appended and
its cursor is the next to ask for. A throttled call is repeated with the same cursor after the next delay of a
backoff schedule, whose delays are never given back; any other failure, or a throttled call when no delay is left,
ends the traversal.
-/

namespace DirectoryGateway.Listing

open DirectoryGateway.Provider

/-! ### Backoff -/

/-- The waits that are left, in milliseconds. -/
abbrev Backoff := List Nat

/-- The schedule when nothing else is said. -/
def Backoff.standard : Backoff :=
  [1000, 3000, 10000]

/-- The next wait and those after it. -/
def Backoff.take? : Backoff → Option (Nat × Backoff)
  | [] => none
  | delay :: rest => some (delay, rest)

/-- What a number of takes gives, each with the waits that are left after it. -/
def Backoff.takes : Nat → Backoff → List (Option Nat × Backoff)
  | 0, _ => []
  | n + 1, b =>
    match b.take? with
    | some (delay, rest) => (some delay, rest) :: takes n rest
    | none => (none, b) :: takes n b

/-! ### Early ends -/

/-- Why a traversal ends before its collection does. -/
inductive Cause where
  /-- A throttled call after all waits were used up. -/
  | retriesExhausted (retries : Nat) (last : Failure)
  /-- A failure that waiting does not mend. -/
  | provider (failure : Failure)
  /-- Nobody wants the result any more. -/
  | cancelled
  deriving Repr, DecidableEq

def Cause.text : Cause → String
  | .retriesExhausted retries last =>
    "throttled after " ++ toString retries ++ " retries, backoff schedule exhausted: " ++ last.text
  | .provider failure => failure.text
  | .cancelled => "listing cancelled"

/-- What an early end leaves: the records of all pages that came in, and the cause. -/
structure Incomplete (α : Type) where
  gathered : List α
  cause : Cause
  deriving Repr, DecidableEq

def Incomplete.text {α : Type} (i : Incomplete α) : String :=
  "listing incomplete after " ++ toString i.gathered.length ++ " records: " ++ i.cause.text

abbrev Result (α : Type) := Except (Incomplete α) (List α)

/-! ### Traversals -/

/-- What is to be done after an outcome. -/
inductive Step where
  | fetch
  /-- Wait, then ask for the same page again. -/
  | backoff (delay : Nat)
  | complete
  | abort (cause : Cause)
  deriving Repr, DecidableEq

structure Traversal (α : Type) where
  request : ListingRequest
  schedule : Backoff
  items : List α
  pages : Nat
  /-- The waits so far. -/
  retries : Nat
  deriving Repr, DecidableEq

namespace Traversal

variable {α : Type}

/-- A traversal before its first call. An empty cursor counts as none. -/
def start (request : ListingRequest) (schedule : Backoff) : Traversal α :=
  ⟨{ request with cursor := properCursor request.cursor }, schedule, [], 0, 0⟩

def takePage (page : Page α) (t : Traversal α) : Traversal α × Step :=
  let t := { t with items := t.items ++ page.items, pages := t.pages + 1 }
  match page.next with
  | some cursor => ({ t with request := { t.request with cursor := some cursor } }, .fetch)
  | none => (t, .complete)

def takeFailure (failure : Failure) (t : Traversal α) : Traversal α × Step :=
  if failure.retryable then
    match t.schedule.take? with
    | some (delay, rest) => ({ t with schedule := rest, retries := t.retries + 1 }, .backoff delay)
    | none => (t, .abort (.retriesExhausted t.retries failure))
  else (t, .abort (.provider failure))

def advance (t : Traversal α) : PageOutcome α → Traversal α × Step
  | .ok page => t.takePage page
  | .error failure => t.takeFailure failure

/-- The steps that outcomes lead to, one after the other, each with the state after it. -/
def trace (t : Traversal α) : List (PageOutcome α) → List (Traversal α × Step)
  | [] => []
  | o :: os => t.advance o :: (t.advance o).1.trace os

def incomplete (t : Traversal α) (cause : Cause) : Incomplete α :=
  ⟨t.items, cause⟩

end Traversal

end DirectoryGateway.Listing
