import DirectoryGateway.Listing.Kind
import DirectoryGateway.Proofs.Listing.Deadline
import DirectoryGateway.Proofs.Listing.Queues

/-!
# Listings of any kind

What holds of the listing of one collection holds of them all: their calls take pages from the queue of their collection, and
from no other, and a listing notes nothing but its own pages and retries.
-/

namespace DirectoryGateway.Provider.Script

theorem pages_reply (c : Source) (q : ListingRequest) (store : Script) :
    (pages c q store).1 = headReply (store.queue c) := by
  cases c <;> rfl

theorem queue_pages (c : Source) (q : ListingRequest) (store : Script) :
    (pages c q store).2.queue c = (store.queue c).tail := by
  cases c <;> rfl

theorem queue_pages_other {c c' : Source} (h : c' ≠ c) (q : ListingRequest) (store : Script) :
    (pages c q store).2.queue c' = store.queue c' := by
  cases c <;> cases c' <;> first | rfl | exact absurd rfl h

theorem pages_cursors (c : Source) (q : ListingRequest) (store : Script) :
    (pages c q store).2.cursors = store.cursors ++ [q.cursor] := by
  cases c <;> rfl

theorem pages_callCount (c : Source) (q : ListingRequest) (store : Script) :
    (pages c q store).2.callCount = store.callCount + 1 := by
  cases c <;> rfl

end DirectoryGateway.Provider.Script

namespace DirectoryGateway.Listing

open DirectoryGateway.Provider

/-! ### Listings -/

section

variable {σ : Type} (p : Pool) (service : Service σ) (pace : Pace) (store : σ) (now : Nat)

theorem Pool.groups_eq_list : p.groups service pace store now = p.list .groups service pace store now := rfl

theorem Pool.users_eq_list : p.users service pace store now = p.list .users service pace store now := rfl

theorem Pool.members_eq_list (group : String) :
    p.members service pace group store now = p.list (.members group) service pace store now := rfl

end

/-! ### Listings from scripts -/

theorem dequeues_pages (c : Source) : Dequeues (Script.pages c) (Script.queue · c) :=
  ⟨Script.pages_reply c, Script.queue_pages c⟩

theorem queue_le_pagesLeft (c : Source) (store : Script) :
    (store.queue c).length ≤ Script.service.pagesLeft store := by
  obtain ⟨hgroups, husers, hmembers⟩ := queues_le_pagesLeft store
  cases c with
  | groups => exact hgroups
  | users => exact husers
  | members => exact hmembers

theorem pages_quiet (c : Source) (q : ListingRequest) (store : Script) :
    (Script.pages c q store).1.cancels = false := by
  rw [Script.pages_reply]
  cases store.queue c <;> rfl

theorem pages_unnoted (c : Source) (q : ListingRequest) (store : Script) :
    (Script.pages c q store).1.notes = [] := by
  rw [Script.pages_reply]
  cases store.queue c <;> rfl

theorem undisturbed_pages (c : Source) {pace : Pace} (uncancelled : pace.cancelAt = none)
    (patient : pace.deadline = none) : Undisturbed (Script.pages c) pace :=
  ⟨uncancelled, patient, pages_quiet c⟩

/-- The replies to the calls on a queue take as long as its first entries say. -/
theorem delays_dequeues {σ α : Type} {fetch : PageCall σ α} {queue : σ → List (Queued α)}
    (h : Dequeues fetch queue) (store : σ) (qs : List ListingRequest) :
    (delays fetch store qs).sum = (((queue store).take qs.length).map Queued.delay).sum := by
  induction qs generalizing store with
  | nil => simp [delays]
  | cons q qs ih =>
    rw [delays, List.sum_cons, ih, h.reply, h.rest, List.length_cons]
    cases queue store with
    | nil => simp [headReply, Reply.now]
    | cons head rest => simp [headReply]

/-! ### Notes -/

namespace Run

variable {σ α : Type}

/-- A run has noted its pages and its retries, and nothing else. -/
def NotesOwn (operation : String) (r : Run σ α) : Prop :=
  ∀ note ∈ r.notes, note = .page operation ∨ note = .retry operation

section

variable {P : Telemetry.Note → Prop} {operation : String} {r : Run σ α}

theorem notes_move (page : P (.page operation)) (retry : P (.retry operation))
    (h : ∀ note ∈ r.notes, P note) (time : Nat) (e : Event α) :
    ∀ note ∈ (r.move operation time e).notes, P note := by
  intro note hnote
  rw [move_notes] at hnote
  rcases List.mem_append.mp hnote with hearlier | hnew
  · exact h note hearlier
  · obtain ⟨act, -, hact⟩ := List.mem_filterMap.mp hnew
    cases act with
    | call request => cases hact
    | wait delay => cases hact
    | page =>
      cases hact
      exact page
    | retry =>
      cases hact
      exact retry

theorem notes_turn {fetch : PageCall σ α} (page : P (.page operation)) (retry : P (.retry operation))
    (replies : ∀ q store, ∀ note ∈ (fetch q store).1.notes, P note) (pace : Pace)
    (h : ∀ note ∈ r.notes, P note) : ∀ note ∈ (r.turn fetch pace operation).notes, P note := by
  obtain ⟨_, r', hr', hturned⟩ := turn_cases fetch pace operation r
  rw [hr']
  cases hturned with
  | idle still => exact h
  | clear awaited phase => exact notes_move page retry h _ _
  | answered awaited phase =>
    apply notes_move page retry
    intro note hnote
    rcases List.mem_append.mp hnote with hearlier | hreply
    · exact h note hearlier
    · exact replies _ _ note hreply
  | waited awaited delay phase => exact notes_move page retry h _ _
  | cancelled awaited live store time disturbed =>
    apply notes_move page retry
    exact h
  | dropped store time disturbed => exact h

end

end Run

/-- What is noted in a listing: its pages, its retries, and what comes with the replies. -/
theorem Setup.notes_run {σ α : Type} (s : Setup σ α) {P : Telemetry.Note → Prop}
    (page : P (.page s.operation)) (retry : P (.retry s.operation))
    (replies : ∀ q store, ∀ note ∈ (s.fetch q store).1.notes, P note) (n : Nat) :
    ∀ note ∈ (s.run n).notes, P note := by
  induction n with
  | zero => exact fun note hnote => nomatch hnote
  | succ n ih =>
    rw [s.run_succ]
    exact Run.notes_turn page retry replies s.pace ih

theorem Setup.notesOwn_run {σ α : Type} (s : Setup σ α)
    (unnoted : ∀ q store, (s.fetch q store).1.notes = []) (n : Nat) :
    (s.run n).NotesOwn s.operation := by
  refine s.notes_run (P := fun note => note = .page s.operation ∨ note = .retry s.operation)
    (Or.inl rfl) (Or.inr rfl) ?_ n
  intro q store note hnote
  rw [unnoted] at hnote
  cases hnote

/-! ### Setups -/

/-- Everything that a listing from a scripted provider depends on. -/
def Pool.setup (p : Pool) (kind : Kind) (pace : Pace) (store : Script) (now : Nat) :
    Setup Script kind.source.Record where
  fetch := Script.pages kind.source
  pace := pace
  operation := kind.source.operation.label
  request := kind.request p.id
  schedule := p.backoff
  store := store
  now := now

/-- The turns that a listing of a pool makes. -/
def Pool.allowance (p : Pool) (store : Script) : Nat :=
  turnsOfCalls (Script.service.pagesLeft store + p.backoff.length + 1)

theorem Pool.list_eq_run (p : Pool) (kind : Kind) (pace : Pace) (store : Script) (now : Nat) :
    p.list kind Script.service pace store now =
      (p.setup kind pace store now).run (p.allowance store) := rfl

end DirectoryGateway.Listing
