import DirectoryGateway.Proofs.Listing.Turn

/-!
# What a run has heard

At any moment a run is where the outcomes that it has taken in bring its traversal, and has made the requests that these
outcomes lead to. This holds for every provider and every pace, whatever cancels or drops the run.
-/

namespace DirectoryGateway.Listing

open DirectoryGateway.Provider

variable {σ α : Type}

/-! ### Providers -/

/-- A provider after it was asked for pages. -/
def storeAfter (fetch : PageCall σ α) (store : σ) (qs : List ListingRequest) : σ :=
  qs.foldl (fun store q => (fetch q store).2) store

/-- What a provider answers to requests, one after the other. -/
def answers (fetch : PageCall σ α) (store : σ) : List ListingRequest → List (PageOutcome α)
  | [] => []
  | q :: qs => (fetch q store).1.outcome :: answers fetch (fetch q store).2 qs

@[simp] theorem answers_length (fetch : PageCall σ α) (store : σ) (qs : List ListingRequest) :
    (answers fetch store qs).length = qs.length := by
  induction qs generalizing store with
  | nil => rfl
  | cons q qs ih => simp [answers, ih]

theorem answers_append (fetch : PageCall σ α) (store : σ) (qs qs' : List ListingRequest) :
    answers fetch store (qs ++ qs') =
      answers fetch store qs ++ answers fetch (storeAfter fetch store qs) qs' := by
  induction qs generalizing store with
  | nil => rfl
  | cons q qs ih =>
    simp only [List.cons_append, answers, storeAfter, List.foldl_cons]
    rw [ih]
    rfl

/-! ### Listings -/

/-- Everything that a listing depends on. -/
structure Setup (σ α : Type) where
  fetch : PageCall σ α
  pace : Pace
  operation : String
  request : ListingRequest
  schedule : Backoff
  store : σ
  now : Nat

namespace Setup

def traversal (s : Setup σ α) : Traversal α :=
  .start s.request s.schedule

def run (s : Setup σ α) (n : Nat) : Run σ α :=
  (Run.start s.request s.schedule s.store s.now).turns s.fetch s.pace s.operation n

theorem run_add (s : Setup σ α) (n m : Nat) :
    s.run (n + m) = (s.run n).turns s.fetch s.pace s.operation m :=
  Run.turns_add _ n m

theorem run_succ (s : Setup σ α) (n : Nat) :
    s.run (n + 1) = (s.run n).turn s.fetch s.pace s.operation :=
  s.run_add n 1

theorem requests_run (s : Setup σ α) {n m : Nat} (h : n ≤ m) :
    (s.run n).requests <+: (s.run m).requests := by
  obtain ⟨d, rfl⟩ : ∃ d, m = n + d := ⟨m - n, by omega⟩
  rw [run_add]
  exact Run.requests_turns _ _ _ _ d

theorem answers_run (s : Setup σ α) {n m : Nat} (h : n ≤ m) :
    answers s.fetch s.store (s.run n).requests <+: answers s.fetch s.store (s.run m).requests := by
  obtain ⟨more, hmore⟩ := s.requests_run h
  rw [← hmore, answers_append]
  exact List.prefix_append _ _

theorem gather_eq_run (s : Setup σ α) (pagesLeft : Nat) :
    gather s.fetch s.pace s.operation pagesLeft s.request s.schedule s.store s.now =
      s.run (turnsOfCalls (pagesLeft + s.schedule.length + 1)) := rfl

end Setup

/-! ### Stages -/

/-- Where a listing stands after the outcomes `os`, when it has made the requests `qs`. -/
inductive Stage (t : Traversal α) (disturbed : Prop) :
    Phase α → (os : List (PageOutcome α)) → (qs : List ListingRequest) → Prop where
  | checking {os : List (PageOutcome α)} (onward : t.Onward os) :
    Stage t disturbed .checking os (asked t.request os)
  | calling {os : List (PageOutcome α)} (onward : t.Onward os) :
    Stage t disturbed .calling os (asked t.request os ++ [(t.after os).request])
  | waiting {os : List (PageOutcome α)} (onward : t.Onward os) (delay : Nat) :
    Stage t disturbed (.waiting delay) os (asked t.request os)
  | finished {os : List (PageOutcome α)} (onward : t.Onward os) (o : PageOutcome α)
      (result : Result α) (ends : (t.after os).ends o = some result) :
    Stage t disturbed (.ended result) (os ++ [o]) (asked t.request (os ++ [o]))
  | cancelled {os : List (PageOutcome α)} (onward : t.Onward os) (qs : List ListingRequest)
      (made : qs = asked t.request os ∨ qs = asked t.request os ++ [(t.after os).request])
      (disturbance : disturbed) :
    Stage t disturbed (.ended (.error ((t.after os).incomplete .cancelled))) os qs

/-- A run of the listing has taken in the outcomes `os`. -/
structure Heard (s : Setup σ α) (r : Run σ α) (os : List (PageOutcome α)) : Prop where
  traversal : r.walk.traversal = s.traversal.after os
  stage : Stage s.traversal (¬ Undisturbed s.fetch s.pace) r.walk.phase os r.requests
  told : answers s.fetch s.store (asked s.traversal.request os) = os
  provider : r.dropped = false → r.Live →
    r.store = storeAfter s.fetch s.store (asked s.traversal.request os)
  awaited : Undisturbed s.fetch s.pace → r.dropped = false

theorem asked_concat (t : Traversal α) (os : List (PageOutcome α)) (o : PageOutcome α) :
    asked t.request (os ++ [o]) = asked t.request os ++ [(t.after os).request] := by
  rw [asked_append, Traversal.after_request]
  rfl

namespace Stage

variable {t : Traversal α} {disturbed : Prop} {os : List (PageOutcome α)} {qs : List ListingRequest}

theorem onward_of_checking (h : Stage t disturbed .checking os qs) :
    t.Onward os ∧ qs = asked t.request os := by
  cases h with
  | checking onward => exact ⟨onward, rfl⟩

theorem onward_of_calling (h : Stage t disturbed .calling os qs) :
    t.Onward os ∧ qs = asked t.request os ++ [(t.after os).request] := by
  cases h with
  | calling onward => exact ⟨onward, rfl⟩

theorem onward_of_waiting {delay : Nat} (h : Stage t disturbed (.waiting delay) os qs) :
    t.Onward os ∧ qs = asked t.request os := by
  cases h with
  | waiting onward => exact ⟨onward, rfl⟩

/-- What a listing that has not ended has made: the requests that the outcomes lead to, and maybe the next. -/
theorem made_of_live {phase : Phase α} (h : Stage t disturbed phase os qs)
    (live : ∀ result, phase ≠ .ended result) :
    t.Onward os ∧ (qs = asked t.request os ∨ qs = asked t.request os ++ [(t.after os).request]) := by
  cases h with
  | checking onward => exact ⟨onward, Or.inl rfl⟩
  | calling onward => exact ⟨onward, Or.inr rfl⟩
  | waiting onward delay => exact ⟨onward, Or.inl rfl⟩
  | finished onward o result ends => exact absurd rfl (live result)
  | cancelled onward qs made disturbance => exact absurd rfl (live _)

theorem made {phase : Phase α} (h : Stage t disturbed phase os qs) :
    ∃ more, qs = asked t.request os ++ more := by
  cases h with
  | checking onward => exact ⟨[], by simp⟩
  | calling onward => exact ⟨[(t.after os).request], rfl⟩
  | waiting onward delay => exact ⟨[], by simp⟩
  | finished onward o result ends => exact ⟨[], by simp⟩
  | cancelled onward qs made disturbance =>
    rcases made with hqs | hqs
    · exact ⟨[], by simp [hqs]⟩
    · exact ⟨_, hqs⟩

theorem answer {w : Walk α} (o : PageOutcome α) (onward : t.Onward os)
    (traversal : w.traversal = t.after os) :
    Stage t disturbed (w.answer o).1.phase (os ++ [o]) (asked t.request (os ++ [o])) := by
  rcases w.answer_phase o with ⟨result, hends, hphase⟩ | ⟨hends, hphase⟩
  · rw [traversal] at hends
    rw [hphase]
    exact .finished onward o result hends
  · rw [traversal] at hends
    have hon : t.Onward (os ++ [o]) := (t.onward_concat os o).mpr ⟨onward, hends⟩
    rcases hphase with hphase | ⟨delay, hphase⟩
    · rw [hphase]
      exact .checking hon
    · rw [hphase]
      exact .waiting hon delay

end Stage

namespace Run

/-- The calls that came to an outcome: all but the one under way. -/
def callsAnswered (r : Run σ α) : Nat :=
  match r.walk.phase with
  | .calling => r.calls.length - 1
  | _ => r.calls.length

end Run

/-- The outcomes that a run of the listing has taken in. -/
def Setup.outcomes (s : Setup σ α) (r : Run σ α) : List (PageOutcome α) :=
  (answers s.fetch s.store r.requests).take r.callsAnswered

/-! ### Runs -/

variable {s : Setup σ α}

theorem heard_start (s : Setup σ α) : Heard s (s.run 0) [] where
  traversal := rfl
  stage := .checking (Traversal.onward_nil _)
  told := rfl
  provider _ _ := rfl
  awaited _ := rfl

namespace Heard

variable {r : Run σ α} {os : List (PageOutcome α)}

theorem clear (h : Heard s r os) (awaited : r.dropped = false)
    (phase : r.walk.phase = .checking) :
    Heard s (r.move s.operation r.now .clear) os := by
  have hs := h.stage
  rw [phase] at hs
  obtain ⟨hon, hqs⟩ := hs.onward_of_checking
  have hstep := r.walk.step_clear phase
  refine ⟨?_, ?_, h.told, ?_, ?_⟩
  · rw [Run.move_walk, hstep]
    exact h.traversal
  · rw [Run.move_walk, Run.move_requests, hstep, hqs, h.traversal]
    exact .calling hon
  · intro _ _
    rw [Run.move_store]
    exact h.provider awaited (Run.live_of_phase phase (by simp))
  · intro _
    rw [Run.move_dropped]
    exact awaited

theorem answered (h : Heard s r os) (awaited : r.dropped = false)
    (phase : r.walk.phase = .calling) :
    Heard s (r.answered s.fetch s.operation)
      (os ++ [(s.fetch r.walk.traversal.request r.store).1.outcome]) := by
  have hs := h.stage
  rw [phase] at hs
  obtain ⟨hon, hqs⟩ := hs.onward_of_calling
  have hstore := h.provider awaited (Run.live_of_phase phase (by simp))
  have hreq : r.walk.traversal.request = (s.traversal.after os).request := by rw [h.traversal]
  refine ⟨?_, ?_, ?_, ?_, ?_⟩
  · rw [Run.answered_walk phase, Walk.answer_traversal, h.traversal, Traversal.after_concat]
  · rw [Run.answered_walk phase, Run.answered_requests phase, hqs, ← asked_concat]
    exact Stage.answer _ hon h.traversal
  · rw [asked_concat, answers_append, h.told, ← hstore, ← hreq]
    rfl
  · intro _ _
    rw [Run.answered_store, asked_concat, hstore, hreq]
    simp [storeAfter]
  · intro _
    rw [Run.answered_dropped]
    exact awaited

theorem waited (h : Heard s r os) (awaited : r.dropped = false) {delay time : Nat}
    (phase : r.walk.phase = .waiting delay) :
    Heard s (r.move s.operation time .waited) os := by
  have hs := h.stage
  rw [phase] at hs
  obtain ⟨hon, hqs⟩ := hs.onward_of_waiting
  have hstep := r.walk.step_waited delay phase
  refine ⟨?_, ?_, h.told, ?_, ?_⟩
  · rw [Run.move_walk, hstep]
    exact h.traversal
  · rw [Run.move_walk, Run.move_requests, hstep, List.filterMap_nil, List.append_nil, hqs]
    exact .checking hon
  · intro _ _
    rw [Run.move_store]
    exact h.provider awaited (Run.live_of_phase phase (by simp))
  · intro _
    rw [Run.move_dropped]
    exact awaited

theorem cancelled (h : Heard s r os) (awaited : r.dropped = false) (live : r.Live)
    (disturbed : ¬ Undisturbed s.fetch s.pace) (store : σ) (time : Nat) :
    Heard s ({ r with store := store }.move s.operation time .cancelled) os := by
  obtain ⟨hon, hqs⟩ := h.stage.made_of_live live
  rw [Run.move_cancelled s.operation { r with store := store } time live]
  refine ⟨h.traversal, ?_, h.told, ?_, ?_⟩
  · show Stage s.traversal _ (.ended (.error (r.walk.traversal.incomplete .cancelled))) os r.requests
    rw [h.traversal]
    exact .cancelled hon _ hqs disturbed
  · intro _ hl
    exact absurd rfl (hl _)
  · intro _
    exact awaited

theorem dropped (h : Heard s r os) (disturbed : ¬ Undisturbed s.fetch s.pace) (store : σ)
    (time : Nat) :
    Heard s { r with store := store, now := time, dropped := true } os := by
  refine ⟨h.traversal, h.stage, h.told, ?_, ?_⟩
  · intro hd
    simp at hd
  · intro calm
    exact absurd calm disturbed

theorem isPrefix (h : Heard s r os) : os <+: answers s.fetch s.store r.requests := by
  obtain ⟨more, hqs⟩ := h.stage.made
  rw [hqs, answers_append, h.told]
  exact List.prefix_append _ _

/-- What an undisturbed run has taken in can be told from its calls. -/
theorem outcomes_eq (h : Heard s r os) (calm : Undisturbed s.fetch s.pace) :
    s.outcomes r = os := by
  have hprefix := List.prefix_iff_eq_take.mp h.isPrefix
  -- Only the cancelled stage leaves open whether the last call came to its outcome.
  have hlength : r.callsAnswered = os.length := by
    have hs := h.stage
    rw [Run.callsAnswered, ← Run.requests_length]
    generalize r.walk.phase = phase at hs ⊢
    generalize r.requests = qs at hs ⊢
    cases hs with
    | checking onward => exact asked_length _ _
    | calling onward => simp
    | waiting onward delay => exact asked_length _ _
    | finished onward o result ends => exact asked_length _ _
    | cancelled onward qs made disturbance => exact absurd calm disturbance
  rw [Setup.outcomes, hlength]
  exact hprefix.symm

/-- A turn takes in one outcome more, or none. -/
theorem turn (h : Heard s r os) :
    ∃ os', os <+: os' ∧ Heard s (r.turn s.fetch s.pace s.operation) os' := by
  obtain ⟨_, r', hr', hturned⟩ := Run.turn_cases s.fetch s.pace s.operation r
  rw [hr']
  cases hturned with
  | idle still => exact ⟨os, List.prefix_rfl, h⟩
  | clear awaited phase => exact ⟨os, List.prefix_rfl, h.clear awaited phase⟩
  | answered awaited phase => exact ⟨_, List.prefix_append _ _, h.answered awaited phase⟩
  | waited awaited delay phase => exact ⟨os, List.prefix_rfl, h.waited awaited phase⟩
  | cancelled awaited live store time disturbed =>
    exact ⟨os, List.prefix_rfl, h.cancelled awaited live disturbed store time⟩
  | dropped store time disturbed => exact ⟨os, List.prefix_rfl, h.dropped disturbed store time⟩

theorem turns (h : Heard s r os) (n : Nat) :
    ∃ os', os <+: os' ∧ Heard s (r.turns s.fetch s.pace s.operation n) os' := by
  induction n generalizing r os with
  | zero => exact ⟨os, List.prefix_rfl, h⟩
  | succ n ih =>
    obtain ⟨os', hprefix, h'⟩ := h.turn
    obtain ⟨os'', hprefix', h''⟩ := ih h'
    exact ⟨os'', hprefix.trans hprefix', h''⟩

end Heard

end DirectoryGateway.Listing
