import DirectoryGateway.Proofs.Listing.Budget

/-!
# Where outcomes bring a traversal

A traversal takes any outcomes in any order, those after its end included. Where it stands is told by them alone: its records
and pages are those that came in, its cursor is that of the last page that carried one, and its budget of delays is used up by
throttled calls and by nothing else.
-/

namespace DirectoryGateway.Listing

open DirectoryGateway.Provider

variable {α : Type}

/-! ### Pages and cursors -/

/-- The cursor that a page carries, as it stands there. -/
def cursorOf : PageOutcome α → Option String
  | .ok page => page.next
  | .error _ => none

/-- The cursor of the last page that carries one; before that, the one to begin with. -/
def latestCursor (first : Option String) (os : List (PageOutcome α)) : Option String :=
  (os.filterMap cursorOf).getLast?.or first

theorem latestCursor_concat (first : Option String) (os : List (PageOutcome α)) (o : PageOutcome α) :
    latestCursor first (os ++ [o]) = (cursorOf o).or (latestCursor first os) := by
  rw [latestCursor, latestCursor, List.filterMap_append]
  cases h : cursorOf o <;> simp [h]

theorem foldl_nextRequest_cursor (q : ListingRequest) (os : List (PageOutcome α)) :
    os.foldl nextRequest q = { q with cursor := latestCursor q.cursor os } := by
  induction os using List.reverseRecOn with
  | nil => rfl
  | append_singleton os o ih =>
    rw [List.foldl_append, ih, latestCursor_concat, List.foldl_cons, List.foldl_nil]
    cases o with
    | error failure => rfl
    | ok page => cases h : page.next <;> simp [nextRequest, cursorOf, h]

namespace Traversal

theorem advance_pages (t : Traversal α) (o : PageOutcome α) :
    (t.advance o).1.pages = t.pages + if isPage o then 1 else 0 := by
  obtain ⟨r, hr, h⟩ := t.advance_cases o
  rw [hr]
  cases h <;> rfl

theorem after_pages (t : Traversal α) (os : List (PageOutcome α)) :
    (t.after os).pages = t.pages + os.countP isPage := by
  induction os using List.reverseRecOn with
  | nil => rfl
  | append_singleton os o ih =>
    rw [after_concat, advance_pages, ih, List.countP_append, List.countP_singleton, Nat.add_assoc]

/-! ### Failures -/

/-- A failure touches nothing but the budget. -/
theorem advance_failure (t : Traversal α) (failure : Failure) :
    ∃ schedule retries, (t.advance (.error failure)).1 = { t with schedule := schedule, retries := retries } := by
  obtain ⟨r, hr, h⟩ := t.advance_cases (.error failure)
  rw [hr]
  cases h with
  | throttle _ delay rest retryable left => exact ⟨rest, t.retries + 1, rfl⟩
  | exhausted _ retryable left => exact ⟨t.schedule, t.retries, rfl⟩
  | hard _ retryable => exact ⟨t.schedule, t.retries, rfl⟩

/-- No delay is left when a traversal says so, and it says how many it has taken. -/
theorem advance_exhausted {t : Traversal α} {o : PageOutcome α} {retries : Nat} {last : Failure}
    (h : (t.advance o).2 = .abort (.retriesExhausted retries last)) :
    o = .error last ∧ t.schedule = [] ∧ retries = t.retries := by
  obtain ⟨r, hr, hadv⟩ := t.advance_cases o
  rw [hr] at h
  cases hadv with
  | exhausted failure retryable left =>
    cases h
    exact ⟨rfl, left, rfl⟩
  | page | lastPage | throttle | hard => cases h

/-! ### States -/

/-- The delays that are taken are as many as the throttled calls, until none is left. -/
theorem start_after_taken (request : ListingRequest) (schedule : Backoff) (os : List (PageOutcome α)) :
    ((start request schedule).after os).retries = min schedule.length (throttles os) := by
  have hbudget := (start (α := α) request schedule).after_budget os
  have hleft : ((start (α := α) request schedule).after os).schedule = schedule.drop (throttles os) :=
    after_schedule _ os
  have hstart : (start (α := α) request schedule).retries + (start (α := α) request schedule).schedule.length =
      schedule.length := Nat.zero_add _
  rw [hleft, hstart, List.length_drop] at hbudget
  omega

end Traversal

/-- Whatever outcomes a traversal is given, and whether or not it has ended before: its records and pages are those of all
pages, the delays that it has taken and those that are left make up the schedule, and it has taken one for each throttled call
as long as there were any; it asks as it did first, but with the cursor of the last page that carried one. A failure changes only
what is left of the schedule, and a traversal that runs out of delays has taken all of them. -/
theorem states_follow_outcomes (request : ListingRequest) (schedule : Backoff) (os : List (PageOutcome α)) :
    let t := (Traversal.start request schedule).after os
    t.items = records os ∧
    t.pages = os.countP isPage ∧
    t.retries + t.schedule.length = schedule.length ∧
    t.retries = min schedule.length (throttles os) ∧
    t.request = { request with cursor := latestCursor (properCursor request.cursor) os } ∧
    (∀ failure, ∃ left taken, (t.advance (.error failure)).1 = { t with schedule := left, retries := taken }) ∧
    ∀ o retries last, (t.advance o).2 = .abort (.retriesExhausted retries last) →
      retries = schedule.length ∧ o = .error last := by
  have hbudget : ((Traversal.start request schedule).after os).retries +
      ((Traversal.start request schedule).after os).schedule.length = schedule.length := by
    rw [Traversal.after_budget]
    exact Nat.zero_add _
  refine ⟨?_, ?_, hbudget, ?_, ?_, ?_, ?_⟩
  · exact Traversal.start_after_items request schedule os
  · rw [Traversal.after_pages]
    exact Nat.zero_add _
  · exact Traversal.start_after_taken request schedule os
  · rw [Traversal.after_request, foldl_nextRequest_cursor]
    rfl
  · exact Traversal.advance_failure _
  · intro o retries last h
    obtain ⟨ho, hnone, hretries⟩ := Traversal.advance_exhausted h
    rw [hnone, List.length_nil, Nat.add_zero] at hbudget
    exact ⟨hretries.trans hbudget, ho⟩

def busy : Failure :=
  .ofKind "list_users" .throttled "slow down"

/-- A page, the end, and then all kinds of outcomes again. -/
def outcomesPastTheEnd : List (PageOutcome Nat) :=
  [.ok ⟨[1, 2], some "a"⟩, .error busy, .ok ⟨[3], none⟩, .error busy,
    .error (.ofKind "list_users" .internal ""), .ok ⟨[], some ""⟩, .ok ⟨[4], none⟩]

theorem outcomesPastTheEnd_state :
    let t := (Traversal.start ⟨"pool", some "staff", some ""⟩ [5]).after outcomesPastTheEnd
    t.items = [1, 2, 3, 4] ∧ t.pages = 4 ∧ t.retries = 1 ∧ t.schedule.length = 0 ∧
      t.request = ⟨"pool", some "staff", some ""⟩ ∧
      (t.advance (.error busy)).2 = .abort (.retriesExhausted 1 busy) := by
  obtain ⟨hitems, hpages, hbudget, hretries, hrequest, -, hexhausted⟩ :=
    states_follow_outcomes ⟨"pool", some "staff", some ""⟩ [5] outcomesPastTheEnd
  have hone : min [5].length (throttles outcomesPastTheEnd) = 1 := by decide
  have hran : ∃ retries last, (((Traversal.start ⟨"pool", some "staff", some ""⟩ [5]).after
      outcomesPastTheEnd).advance (.error busy)).2 = .abort (.retriesExhausted retries last) :=
    ⟨1, busy, by decide⟩
  rw [hone] at hretries
  refine ⟨hitems, hpages, hretries, ?_, hrequest, ?_⟩
  · rw [hretries] at hbudget
    exact Nat.add_left_cancel hbudget
  · obtain ⟨retries, last, habort⟩ := hran
    obtain ⟨rfl, hlast⟩ := hexhausted _ _ _ habort
    cases hlast
    exact habort

end DirectoryGateway.Listing
