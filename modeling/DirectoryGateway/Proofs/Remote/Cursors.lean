import DirectoryGateway.Proofs.Listing.Kinds
import DirectoryGateway.Proofs.Listing.Requests
import DirectoryGateway.Proofs.Listing.Throttling

/-!
# Tokens on the wire

A listing from the pool service puts one request on the wire for each of its calls. The token of a request is the one of
the latest page that came in, unchanged, however many calls were refused or brought nothing since; the listing ends with the
page that has none, and the records that it gathers are those of the pages, in order.
-/

namespace DirectoryGateway.Listing

open DirectoryGateway.Provider

variable {σ α : Type}

/-! ### What a listing has taken in -/

namespace Stage

variable {t : Traversal α} {disturbed : Prop} {os : List (PageOutcome α)} {qs : List ListingRequest}

end Stage

end DirectoryGateway.Listing

namespace DirectoryGateway.Remote

open DirectoryGateway.Json (Raw)
open DirectoryGateway.Listing
open DirectoryGateway.Provider

/-! ### Documents of pages -/

/-- The answer to the request that is sent after `k` others. -/
def Line.answer (l : Line) (k : Nat) : Option Answer :=
  l.answers[k]?.bind id

theorem Line.answer_zero (l : Line) : l.answer 0 = l.answers.head?.bind id := by
  rw [Line.answer, List.head?_eq_getElem?]

def readDocument : (c : Source) → Raw → Option (Page c.Record)
  | .groups => readGroups
  | .users => readUsers .listUsers
  | .members => readUsers .listMembers

def outcomeOf (wording : Wording) (c : Source) (answer : Option Answer) : PageOutcome c.Record :=
  (readAnswer c.operation (readDocument c) answer).mapError (Refusal.failure wording c.operation answer)

section

variable (pageSize : Int) (c : Source) (q : ListingRequest) (l : Line)

theorem pages_quiet : ((service pageSize).pages c q l).1.cancels = false := by
  cases c <;> rfl

end

def stream (c : Source) (l : Line) (k : Nat) : PageOutcome c.Record :=
  outcomeOf l.wording c (l.answer k)

variable (c : Source) (l : Line)

variable {c l}

def wired (p : Pool) (kind : Kind) (pageSize : Int) (pace : Pace) (l : Line) (now : Nat) :
    Setup Line kind.source.Record where
  fetch := (service pageSize).pages kind.source
  pace := pace
  operation := kind.source.operation.label
  request := kind.request p.id
  schedule := p.backoff
  store := l
  now := now

section

variable (p : Pool) (kind : Kind) (pageSize : Int) (pace : Pace) (l : Line) (now : Nat)

theorem list_eq_run :
    p.list kind (service pageSize) pace l now =
      (wired p kind pageSize pace l now).run (turnsOfCalls (l.answers.length + p.backoff.length + 1)) :=
  rfl

end

/-! ### The line -/

def userAnswer (username token : String) : Option Answer :=
  some ⟨200, [], Bytes.ofText
    ("\x7b\"Users\":[\x7b\"Username\":\"" ++ username ++ "\"\x7d],\"PaginationToken\":\"" ++ token ++ "\"\x7d")⟩

end DirectoryGateway.Remote
