import DirectoryGateway.Gateway.Session

/-!
# What failures are answered with

The kind of a failure settles the response to it, wherever the failure stands: alone, as the cause of an early end after any
number of retries, or with the records that were gathered before it.
-/

namespace DirectoryGateway.Gateway

open DirectoryGateway.Provider
open DirectoryGateway.Listing (Cause Incomplete)

/-! ### Kinds -/

def statusOfKind : FailureKind → Nat
  | .throttled => 429
  | .notFound => 404
  | .permissionDenied => 403
  | .invalidParameter => 400
  | .alreadyExists => 409
  | .internal => 503
  | .unavailable => 503
  | .unknown => 503

/-- The response to a failure of a kind, of which nothing else is known. -/
def refusal (kind : FailureKind) : Response :=
  (Problem.ofFailure ⟨kind, none, "", ""⟩).response

theorem response_ofFailure (f : Failure) : (Problem.ofFailure f).response = refusal f.kind := by
  obtain ⟨kind, code, operation, message⟩ := f
  cases kind <;> rfl

theorem status_refusal (kind : FailureKind) : (refusal kind).status = statusOfKind kind := by
  cases kind <;> rfl

theorem statusOfKind_ne_success (kind : FailureKind) : statusOfKind kind ≠ 200 := by
  cases kind <;> decide

/-! ### Early ends -/

/-- The failure that a traversal ended with, unless it was cancelled. -/
def failureOf? : Cause → Option Failure
  | .retriesExhausted _ last => some last
  | .provider failure => some failure
  | .cancelled => none

theorem response_ofCause {cause : Cause} {f : Failure} (h : failureOf? cause = some f) :
    (Problem.ofCause cause).response = refusal f.kind := by
  cases cause with
  | retriesExhausted retries last =>
    obtain rfl : last = f := Option.some.inj h
    exact response_ofFailure last
  | provider failure =>
    obtain rfl : failure = f := Option.some.inj h
    exact response_ofFailure failure
  | cancelled => cases h

theorem response_ofIncomplete {α : Type} {i : Incomplete α} {f : Failure}
    (h : failureOf? i.cause = some f) : (Problem.ofIncomplete i).response = refusal f.kind :=
  response_ofCause h

end DirectoryGateway.Gateway
