import DirectoryGateway.Proofs.Listing.Completion

/-!
# Listings from a queue

A provider that takes its replies from a queue plays the outcomes that the queue holds, and then empty last pages. A listing
from it that nothing disturbs ends with the first of these outcomes that has a verdict; and so does one that a deadline or a
cancellation could have disturbed, but did not.
-/

namespace DirectoryGateway.Listing

open DirectoryGateway.Provider

variable {σ α : Type}

/-! ### Queues -/

/-- The outcomes that a queue holds, and then empty last pages. -/
def scripted (queue : List (Queued α)) (n : Nat) : PageOutcome α :=
  (queue[n]?.map Queued.outcome).getD (.ok (.last []))

/-- Page calls that take their replies from the front of a queue in the state of the provider. -/
structure Dequeues (fetch : PageCall σ α) (queue : σ → List (Queued α)) : Prop where
  reply : ∀ q store, (fetch q store).1 = headReply (queue store)
  rest : ∀ q store, queue (fetch q store).2 = (queue store).tail

theorem dequeues_groups : Dequeues Script.service.groups Script.groups :=
  ⟨fun _ _ => rfl, fun _ _ => rfl⟩

theorem dequeues_users : Dequeues Script.service.users Script.users :=
  ⟨fun _ _ => rfl, fun _ _ => rfl⟩

theorem dequeues_members : Dequeues Script.service.members Script.members :=
  ⟨fun _ _ => rfl, fun _ _ => rfl⟩

theorem queues_le_pagesLeft (s : Script) :
    s.groups.length ≤ Script.service.pagesLeft s ∧ s.users.length ≤ Script.service.pagesLeft s ∧
      s.members.length ≤ Script.service.pagesLeft s := by
  have hsum : Script.service.pagesLeft s = s.groups.length + s.users.length + s.members.length := rfl
  omega

theorem outcome_headReply (queue : List (Queued α)) : (headReply queue).outcome = scripted queue 0 := by
  cases queue <;> rfl

theorem scripted_succ (queue : List (Queued α)) (n : Nat) :
    scripted queue (n + 1) = scripted queue.tail n := by
  cases queue <;> simp [scripted]

theorem firsts_scripted_succ (queue : List (Queued α)) (n : Nat) :
    firsts (scripted queue) (n + 1) = scripted queue 0 :: firsts (scripted queue.tail) n := by
  simp [firsts, List.range_succ_eq_map, scripted_succ]

theorem answers_dequeues {fetch : PageCall σ α} {queue : σ → List (Queued α)}
    (h : Dequeues fetch queue) (store : σ) (qs : List ListingRequest) :
    answers fetch store qs = firsts (scripted (queue store)) qs.length := by
  induction qs generalizing store with
  | nil => rfl
  | cons q qs ih =>
    rw [answers, h.reply, outcome_headReply, ih, h.rest, List.length_cons, firsts_scripted_succ]

theorem countP_scripted_le (queue : List (Queued α)) (n : Nat) :
    (firsts (scripted queue) n).countP continues ≤ queue.length := by
  induction n generalizing queue with
  | zero => exact Nat.zero_le _
  | succ n ih =>
    have htail := ih queue.tail
    rw [firsts_scripted_succ, List.countP_cons]
    cases queue with
    | nil =>
      have hempty : continues (scripted ([] : List (Queued α)) 0) = false := rfl
      rw [hempty]
      exact htail
    | cons head queue =>
      rw [List.tail_cons] at htail ⊢
      rw [List.length_cons]
      split <;> omega

/-! ### Runs that are left alone -/

def wasCancelled : Result α → Bool
  | .error ⟨_, .cancelled⟩ => true
  | _ => false

theorem not_wasCancelled_of_verdict {delays : Nat} {before : List (PageOutcome α)}
    {stop : PageOutcome α} {result : Result α} (h : verdict delays before stop = some result) :
    wasCancelled result = false := by
  cases stop with
  | ok page =>
    rw [verdict] at h
    split at h
    · cases h
    · cases h
      rfl
  | error failure =>
    rw [verdict] at h
    split at h
    · split at h
      · cases h
        rfl
      · cases h
    · cases h
      rfl

/-- The run was waited for, and did not end by a cancellation. -/
def Run.Untouched (r : Run σ α) : Prop :=
  r.dropped = false ∧ r.result?.map wasCancelled ≠ some true

instance (r : Run σ α) : Decidable r.Untouched :=
  inferInstanceAs (Decidable (_ ∧ _))

theorem verdicts_of_onward {request : ListingRequest} {schedule : Backoff} {o : Nat → PageOutcome α}
    {n : Nat} (h : (Traversal.start request schedule).Onward (firsts o n)) :
    ∀ i < n, verdict schedule.length (firsts o i) (o i) = none := by
  induction n with
  | zero =>
    intro i hi
    omega
  | succ n ih =>
    rw [firsts_succ, Traversal.onward_concat] at h
    obtain ⟨hon, hends⟩ := h
    rw [Traversal.ends_eq_verdict request schedule _ _ hon.throttles_le] at hends
    intro i hi
    rcases Nat.lt_or_eq_of_le (Nat.le_of_lt_succ hi) with hlt | rfl
    · exact ih hon i hlt
    · exact hends

theorem Heard.queued {s : Setup σ α} {r : Run σ α} {os : List (PageOutcome α)} (h : Heard s r os)
    {queue : σ → List (Queued α)} (dequeues : Dequeues s.fetch queue) :
    os = firsts (scripted (queue s.store)) os.length := by
  have htold := h.told
  rw [answers_dequeues dequeues, asked_length] at htold
  exact htold.symm

/-- A listing from a queue that is waited for comes to an end. -/
theorem result_of_awaited (s : Setup σ α) {queue : σ → List (Queued α)}
    (dequeues : Dequeues s.fetch queue) {pagesLeft : Nat} (pages : (queue s.store).length ≤ pagesLeft)
    (awaited :
      (gather s.fetch s.pace s.operation pagesLeft s.request s.schedule s.store s.now).dropped = false) :
    ∃ result,
      (gather s.fetch s.pace s.operation pagesLeft s.request s.schedule s.store s.now).result? =
        some result := by
  rw [s.gather_eq_run] at awaited ⊢
  have hpages : ∀ qs, (answers s.fetch s.store qs).countP continues ≤ pagesLeft := by
    intro qs
    rw [answers_dequeues dequeues]
    exact Nat.le_trans (countP_scripted_le _ _) pages
  rcases ended_or_dropped s hpages with hended | hdropped
  · exact hended
  · rw [awaited] at hdropped
    cases hdropped

/-- A listing from a queue that is left alone ends with the first outcome that has a verdict. -/
theorem result_of_untouched (s : Setup σ α) {queue : σ → List (Queued α)}
    (dequeues : Dequeues s.fetch queue) {pagesLeft : Nat} (pages : (queue s.store).length ≤ pagesLeft)
    (untouched :
      (gather s.fetch s.pace s.operation pagesLeft s.request s.schedule s.store s.now).Untouched) :
    ∃ j result,
      (∀ i < j, verdict s.schedule.length (firsts (scripted (queue s.store)) i)
        (scripted (queue s.store) i) = none) ∧
      verdict s.schedule.length (firsts (scripted (queue s.store)) j) (scripted (queue s.store) j) =
        some result ∧
      (gather s.fetch s.pace s.operation pagesLeft s.request s.schedule s.store s.now).result? =
        some result ∧
      (gather s.fetch s.pace s.operation pagesLeft s.request s.schedule s.store
        s.now).calls.length = j + 1 := by
  obtain ⟨hawaited, hkept⟩ := untouched
  obtain ⟨result, hresult⟩ := result_of_awaited s dequeues pages hawaited
  rw [hresult, s.gather_eq_run]
  rw [hresult] at hkept
  rw [s.gather_eq_run] at hresult
  obtain ⟨os, hos, -⟩ := heard_progress s (turnsOfCalls (pagesLeft + s.schedule.length + 1))
  have hstream := hos.queued dequeues
  rcases hos.ended_cases hresult with
    ⟨before, stop, hsplit, hon, hverdict, hcalls⟩ | ⟨-, gathered, hcancelled⟩
  · rw [hsplit, List.length_append, List.length_singleton, firsts_succ] at hstream
    obtain ⟨hbefore, hstop⟩ := List.append_inj' hstream rfl
    rw [List.singleton_inj] at hstop
    have honward := hon
    rw [hbefore] at honward
    rw [hbefore, hstop] at hverdict
    exact ⟨before.length, result, verdicts_of_onward honward, hverdict, rfl, hcalls⟩
  · rw [hcancelled] at hkept
    exact absurd rfl hkept

end DirectoryGateway.Listing
