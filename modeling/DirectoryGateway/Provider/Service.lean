import DirectoryGateway.Directory.Record
import DirectoryGateway.Provider.Operation
import DirectoryGateway.Provider.Page
import DirectoryGateway.Telemetry.Ledger

/-!
# Directory providers

What the gateway asks of a directory provider. A call changes the provider's state at once; its reply arrives
after a delay, and only a reply that is still awaited then is observed. Delays are milliseconds.
-/

namespace DirectoryGateway.Provider

open DirectoryGateway.Directory

structure Reply (α : Type) where
  delay : Nat
  outcome : Outcome α
  /-- What is observed when the reply arrives. -/
  notes : List Telemetry.Note
  /-- Whether making the call, before it is polled, cancels the listing that makes it. -/
  cancels : Bool
  deriving Repr

/-- A reply that comes at once and is not observed. -/
def Reply.now {α : Type} (outcome : Outcome α) : Reply α :=
  ⟨0, outcome, [], false⟩

/-- A page call on a provider with state of type `σ`. -/
abbrev PageCall (σ α : Type) := ListingRequest → σ → Reply (Page α) × σ

/-- A directory provider with state of type `σ`. -/
structure Service (σ : Type) where
  groups : PageCall σ Group
  users : PageCall σ User
  members : PageCall σ User
  user : (pool username : String) → σ → Reply User × σ
  addMember : (pool username group : String) → σ → Reply Unit × σ
  removeMember : (pool username group : String) → σ → Reply Unit × σ
  /-- A bound on the pages with a cursor that are still to come. -/
  pagesLeft : σ → Nat

end DirectoryGateway.Provider
