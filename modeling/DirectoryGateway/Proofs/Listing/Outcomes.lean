import DirectoryGateway.Listing.Pool
import Mathlib.Data.List.Induction

/-!
# What outcomes make of a traversal

A listing is known by the outcomes of its page calls. The records it gathers, the requests it makes, the waits it
uses up and the outcome that ends it are functions of these outcomes alone; here each is given as one, and the
traversal is shown to compute it.
-/

namespace DirectoryGateway.Listing

open DirectoryGateway.Provider

variable {α : Type}

/-! ### Outcomes -/

def recordsOf : PageOutcome α → List α
  | .ok page => page.items
  | .error _ => []

/-- The records of all pages among outcomes, in order. -/
def records (os : List (PageOutcome α)) : List α :=
  os.flatMap recordsOf

/-- A failure that is worth a wait. -/
def throttled : PageOutcome α → Bool
  | .ok _ => false
  | .error failure => failure.retryable

def throttles (os : List (PageOutcome α)) : Nat :=
  os.countP throttled

/-- A page that another one follows. -/
def continues : PageOutcome α → Bool
  | .ok page => page.next.isSome
  | .error _ => false

/-- The result of a listing with a number of delays that an outcome ends, after the outcomes `before`: a page without
a cursor, a failure that waiting does not mend, or the first throttled call that no delay is left for. -/
def verdict (delays : Nat) (before : List (PageOutcome α)) : PageOutcome α → Option (Result α)
  | .ok page =>
    match page.next with
    | some _ => none
    | none => some (.ok (records before ++ page.items))
  | .error failure =>
    if failure.retryable then
      if throttles before = delays then
        some (.error ⟨records before, .retriesExhausted delays failure⟩)
      else none
    else some (.error ⟨records before, .provider failure⟩)

def nextRequest (q : ListingRequest) : PageOutcome α → ListingRequest
  | .ok page =>
    match page.next with
    | some cursor => { q with cursor := some cursor }
    | none => q
  | .error _ => q

/-- What is asked for, call by call, when the calls come to given outcomes. -/
def asked (q : ListingRequest) : List (PageOutcome α) → List ListingRequest
  | [] => []
  | o :: os => q :: asked (nextRequest q o) os

@[simp] theorem records_nil : records ([] : List (PageOutcome α)) = [] := rfl

@[simp] theorem records_append (os os' : List (PageOutcome α)) :
    records (os ++ os') = records os ++ records os' := by
  simp [records]

@[simp] theorem records_singleton (o : PageOutcome α) : records [o] = recordsOf o := by
  simp [records]

@[simp] theorem throttles_nil : throttles ([] : List (PageOutcome α)) = 0 := rfl

@[simp] theorem throttles_append (os os' : List (PageOutcome α)) :
    throttles (os ++ os') = throttles os + throttles os' := by
  simp [throttles]

@[simp] theorem throttles_singleton (o : PageOutcome α) :
    throttles [o] = if throttled o then 1 else 0 := by
  simp [throttles, List.countP_cons]

@[simp] theorem asked_length (q : ListingRequest) (os : List (PageOutcome α)) :
    (asked q os).length = os.length := by
  induction os generalizing q with
  | nil => rfl
  | cons o os ih => simp [asked, ih]

theorem asked_append (q : ListingRequest) (os os' : List (PageOutcome α)) :
    asked q (os ++ os') = asked q os ++ asked (os.foldl nextRequest q) os' := by
  induction os generalizing q with
  | nil => rfl
  | cons o os ih => simp [asked, ih]

theorem throttled_of_continues {o : PageOutcome α} (h : continues o = true) : throttled o = false := by
  cases o with
  | ok page => rfl
  | error failure => simp [continues] at h

theorem length_eq_of_goes_on {os : List (PageOutcome α)}
    (h : ∀ o ∈ os, continues o = true ∨ throttled o = true) :
    os.length = os.countP continues + throttles os := by
  induction os with
  | nil => rfl
  | cons o os ih =>
    simp only [List.mem_cons, forall_eq_or_imp] at h
    have hos := ih h.2
    rw [throttles] at hos ⊢
    rw [List.length_cons, List.countP_cons, List.countP_cons]
    cases ho : continues o with
    | true =>
      rw [throttled_of_continues ho]
      simp only [↓reduceIte, Bool.false_eq_true]
      omega
    | false =>
      have hthrottled : throttled o = true := by simpa [ho] using h.1
      simp only [hthrottled, ↓reduceIte, Bool.false_eq_true]
      omega

/-! ### One outcome -/

namespace Traversal

/-- What an outcome makes of a traversal. -/
inductive Advance (t : Traversal α) : PageOutcome α → Traversal α × Step → Prop where
  | page (page : Page α) (cursor : String) (next : page.next = some cursor) :
    Advance t (.ok page)
      (⟨{ t.request with cursor := some cursor }, t.schedule, t.items ++ page.items, t.pages + 1,
        t.retries⟩, .fetch)
  | lastPage (page : Page α) (next : page.next = none) :
    Advance t (.ok page)
      (⟨t.request, t.schedule, t.items ++ page.items, t.pages + 1, t.retries⟩, .complete)
  | throttle (failure : Failure) (delay : Nat) (rest : Backoff) (retryable : failure.retryable = true)
      (left : t.schedule = delay :: rest) :
    Advance t (.error failure)
      (⟨t.request, rest, t.items, t.pages, t.retries + 1⟩, .backoff delay)
  | exhausted (failure : Failure) (retryable : failure.retryable = true) (left : t.schedule = []) :
    Advance t (.error failure) (t, .abort (.retriesExhausted t.retries failure))
  | hard (failure : Failure) (retryable : failure.retryable = false) :
    Advance t (.error failure) (t, .abort (.provider failure))

theorem advance_cases (t : Traversal α) (o : PageOutcome α) : ∃ r, t.advance o = r ∧ Advance t o r := by
  refine ⟨t.advance o, rfl, ?_⟩
  cases o with
  | ok page =>
    cases hn : page.next with
    | none =>
      have h := Advance.lastPage (t := t) page hn
      simpa [advance, takePage, hn] using h
    | some cursor =>
      have h := Advance.page (t := t) page cursor hn
      simpa [advance, takePage, hn] using h
  | error failure =>
    cases hr : failure.retryable with
    | false =>
      have h := Advance.hard (t := t) failure hr
      simpa [advance, takeFailure, hr] using h
    | true =>
      cases hs : t.schedule with
      | nil =>
        have h := Advance.exhausted (t := t) failure hr hs
        simpa [advance, takeFailure, Backoff.take?, hr, hs] using h
      | cons delay rest =>
        have h := Advance.throttle (t := t) failure delay rest hr hs
        simpa [advance, takeFailure, Backoff.take?, hr, hs] using h

@[simp] theorem advance_items (t : Traversal α) (o : PageOutcome α) :
    (t.advance o).1.items = t.items ++ recordsOf o := by
  obtain ⟨r, hr, h⟩ := t.advance_cases o
  rw [hr]
  cases h <;> simp [recordsOf]

@[simp] theorem advance_request (t : Traversal α) (o : PageOutcome α) :
    (t.advance o).1.request = nextRequest t.request o := by
  obtain ⟨r, hr, h⟩ := t.advance_cases o
  rw [hr]
  cases h <;> simp_all [nextRequest]

theorem advance_schedule (t : Traversal α) (o : PageOutcome α) :
    (t.advance o).1.schedule = t.schedule.drop (throttles [o]) := by
  obtain ⟨r, hr, h⟩ := t.advance_cases o
  rw [hr]
  cases h <;> simp_all [throttled]

/-- A delay is counted as a retry when it is taken, and only then. -/
theorem advance_budget (t : Traversal α) (o : PageOutcome α) :
    (t.advance o).1.retries + (t.advance o).1.schedule.length = t.retries + t.schedule.length := by
  obtain ⟨r, hr, h⟩ := t.advance_cases o
  rw [hr]
  cases h with
  | throttle failure delay rest retryable left =>
    simp only [left, List.length_cons]
    omega
  | _ => rfl

/-- The result that an outcome ends the traversal with, if it does. -/
def ends (t : Traversal α) (o : PageOutcome α) : Option (Result α) :=
  match t.advance o with
  | (t, .complete) => some (.ok t.items)
  | (t, .abort cause) => some (.error (t.incomplete cause))
  | (_, .fetch) => none
  | (_, .backoff _) => none

/-! ### Many outcomes -/

def after (t : Traversal α) (os : List (PageOutcome α)) : Traversal α :=
  os.foldl (fun t o => (t.advance o).1) t

@[simp] theorem after_nil (t : Traversal α) : t.after [] = t := rfl

theorem after_concat (t : Traversal α) (os : List (PageOutcome α)) (o : PageOutcome α) :
    t.after (os ++ [o]) = ((t.after os).advance o).1 := by
  simp [after]

theorem after_items (t : Traversal α) (os : List (PageOutcome α)) :
    (t.after os).items = t.items ++ records os := by
  induction os using List.reverseRecOn with
  | nil => simp
  | append_singleton os o ih => simp [after_concat, ih]

theorem after_request (t : Traversal α) (os : List (PageOutcome α)) :
    (t.after os).request = os.foldl nextRequest t.request := by
  induction os using List.reverseRecOn with
  | nil => rfl
  | append_singleton os o ih => simp [after_concat, ih]

theorem after_schedule (t : Traversal α) (os : List (PageOutcome α)) :
    (t.after os).schedule = t.schedule.drop (throttles os) := by
  induction os using List.reverseRecOn with
  | nil => simp
  | append_singleton os o ih =>
    rw [after_concat, advance_schedule, ih, List.drop_drop, throttles_append]

theorem after_budget (t : Traversal α) (os : List (PageOutcome α)) :
    (t.after os).retries + (t.after os).schedule.length = t.retries + t.schedule.length := by
  induction os using List.reverseRecOn with
  | nil => rfl
  | append_singleton os o ih => rw [after_concat, advance_budget, ih]

def Onward (t : Traversal α) (os : List (PageOutcome α)) : Prop :=
  ∀ before o rest, os = before ++ o :: rest → (t.after before).ends o = none

theorem onward_nil (t : Traversal α) : t.Onward [] := by
  intro before o rest h
  simp at h

theorem onward_concat (t : Traversal α) (os : List (PageOutcome α)) (o : PageOutcome α) :
    t.Onward (os ++ [o]) ↔ t.Onward os ∧ (t.after os).ends o = none := by
  constructor
  · intro h
    refine ⟨?_, h os o [] rfl⟩
    intro before o' rest hos
    exact h before o' (rest ++ [o]) (by simp [hos])
  · rintro ⟨hos, ho⟩ before o' rest h
    rcases List.eq_nil_or_concat rest with rfl | ⟨rest, last, rfl⟩
    · obtain ⟨rfl, h'⟩ := List.append_inj' h rfl
      simp only [List.cons.injEq, and_true] at h'
      rw [← h']
      exact ho
    · rw [List.concat_eq_append, ← List.cons_append, ← List.append_assoc] at h
      exact hos before o' rest (List.append_inj' h rfl).1

/-- A traversal goes on after pages that others follow and throttled calls, and after nothing else. -/
theorem goes_on_of_ends {t : Traversal α} {o : PageOutcome α} (h : t.ends o = none) :
    continues o = true ∨ throttled o = true := by
  obtain ⟨r, hr, hadv⟩ := t.advance_cases o
  rw [ends, hr] at h
  cases hadv with
  | page page cursor next => exact Or.inl (by simp [continues, next])
  | throttle failure delay rest retryable left => exact Or.inr retryable
  | lastPage page next => contradiction
  | exhausted failure retryable left => contradiction
  | hard failure retryable => contradiction

theorem Onward.goes_on {t : Traversal α} {os : List (PageOutcome α)} (h : t.Onward os) :
    ∀ o ∈ os, continues o = true ∨ throttled o = true := by
  intro o ho
  obtain ⟨before, rest, hos⟩ := List.append_of_mem ho
  exact goes_on_of_ends (h before o rest hos)

theorem Onward.dropLast {t : Traversal α} {os : List (PageOutcome α)} (h : t.Onward os) :
    t.Onward os.dropLast := by
  rcases List.eq_nil_or_concat os with rfl | ⟨before, last, rfl⟩
  · exact h
  · rw [List.concat_eq_append] at h ⊢
    rw [List.dropLast_concat]
    exact ((t.onward_concat before last).mp h).1

/-! ### The outcome that ends a traversal -/

theorem start_after_retries (request : ListingRequest) (schedule : Backoff)
    (os : List (PageOutcome α)) (fits : throttles os ≤ schedule.length) :
    ((start request schedule).after os).retries = throttles os := by
  have hb := (start (α := α) request schedule).after_budget os
  have hs := (start (α := α) request schedule).after_schedule os
  have h0 : (start (α := α) request schedule).retries = 0 := rfl
  have hk : (start (α := α) request schedule).schedule = schedule := rfl
  rw [hs, List.length_drop, h0, hk] at hb
  omega

theorem start_after_items (request : ListingRequest) (schedule : Backoff)
    (os : List (PageOutcome α)) : ((start request schedule).after os).items = records os := by
  rw [after_items]
  rfl

/-- The outcome that ends a traversal, and the result it ends with, are as `verdict` says. -/
theorem ends_eq_verdict (request : ListingRequest) (schedule : Backoff)
    (os : List (PageOutcome α)) (o : PageOutcome α) (fits : throttles os ≤ schedule.length) :
    ((start request schedule).after os).ends o = verdict schedule.length os o := by
  have hi := start_after_items request schedule os
  have hr := start_after_retries request schedule os fits
  have hs : ((start (α := α) request schedule).after os).schedule = schedule.drop (throttles os) :=
    after_schedule _ os
  generalize (start (α := α) request schedule).after os = t at hi hr hs
  -- The delays that are left tell whether this throttled call is one too many.
  obtain ⟨r, hadv, h⟩ := t.advance_cases o
  rw [ends, hadv]
  cases h with
  | page page cursor next => simp [verdict, next]
  | lastPage page next => simp [verdict, next, hi]
  | throttle failure delay rest retryable left =>
    have hlen := congrArg List.length (hs.symm.trans left)
    simp only [List.length_drop, List.length_cons] at hlen
    have hne : throttles os ≠ schedule.length := by omega
    simp [verdict, retryable, hne]
  | exhausted failure retryable left =>
    have hlen := congrArg List.length (hs.symm.trans left)
    simp only [List.length_drop, List.length_nil] at hlen
    have heq : throttles os = schedule.length := by omega
    simp [verdict, retryable, heq, incomplete, hi, hr]
  | hard failure retryable => simp [verdict, retryable, incomplete, hi]

theorem Onward.throttles_le {request : ListingRequest} {schedule : Backoff}
    {os : List (PageOutcome α)} (h : (start request schedule).Onward os) :
    throttles os ≤ schedule.length := by
  induction os using List.reverseRecOn with
  | nil => simp
  | append_singleton os o ih =>
    rw [onward_concat] at h
    have hle := ih h.1
    have ho := h.2
    rw [ends_eq_verdict request schedule os o hle] at ho
    cases o with
    | ok page => simpa [throttled] using hle
    | error failure =>
      simp only [verdict] at ho
      split at ho
      · split at ho
        · simp at ho
        · simp only [throttles_append, throttles_singleton]
          split <;> omega
      · simp at ho

end Traversal

end DirectoryGateway.Listing
