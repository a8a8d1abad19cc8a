import DirectoryGateway.Proofs.Listing.Budget

/-!
# Listings that are given up

A listing that is waited for until a deadline is compared with the same listing when it is waited for as long as it takes. As
long as the clock of the patient listing stands before the deadline the two are one. The turn that would bring it to the
deadline or beyond is the last one of the other: at the deadline it is dropped as it stands, with the call under way made and its
reply lost. The time that the patient listing takes is what its calls and its waits take.
-/

namespace DirectoryGateway.Listing

open DirectoryGateway.Provider

variable {σ α : Type}

/-! ### Patience -/

/-- The same pace when the listing is waited for as long as it takes. -/
def Pace.patient (pace : Pace) : Pace :=
  { pace with deadline := none }

/-- When the span that an arrival ends is over; it would end at `due`. -/
def Arrival.time (due : Nat) : Arrival → Nat
  | .due => due
  | .cancelled t => t
  | .dropped t => t

/-- The deadline cuts off what would end no earlier. -/
theorem arrival_deadline {pace : Pace} {d : Nat} (deadline : pace.deadline = some d) (now due : Nat) :
    pace.arrival now due =
      if (pace.patient.arrival now due).time due < d then pace.patient.arrival now due else .dropped d := by
  have hby : ∀ time, pace.deadlineBy time = if time < d then none else some d := by
    intro time
    rw [Pace.deadlineBy, deadline]
    by_cases hlt : time < d
    · simp [hlt]
    · simp [hlt, Nat.le_of_not_lt hlt]
  have hcancel : pace.patient.cancelBy due = pace.cancelBy due := rfl
  have hawaited : ∀ time, pace.patient.deadlineBy time = none := fun _ => rfl
  rw [Pace.arrival, Pace.arrival, hcancel]
  cases pace.cancelBy due with
  | none =>
    by_cases hlt : due < d
    · simp [hby, hawaited, Arrival.time, hlt]
    · simp [hby, hawaited, Arrival.time, hlt]
  | some c =>
    by_cases hlt : max now c < d
    · simp [hby, hawaited, Arrival.time, hlt]
    · simp [hby, hawaited, Arrival.time, hlt]

/-- What ends a span, with the reason. -/
inductive Arrived (p : Pace) (now due : Nat) : Arrival → Prop where
  | due (uncancelled : p.cancelBy due = none) (inTime : ∀ d, p.deadline = some d → due < d) :
    Arrived p now due .due
  | cancelled (c : Nat) (at_ : p.cancelAt = some c) (by_ : c ≤ due)
      (inTime : ∀ d, p.deadline = some d → max now c < d) : Arrived p now due (.cancelled (max now c))
  | dropped (d : Nat) (at_ : p.deadline = some d) (by_ : now ≤ due → d ≤ due) : Arrived p now due (.dropped d)

theorem cancelBy_cases (p : Pace) (time : Nat) :
    p.cancelBy time = none ∨ ∃ c, p.cancelBy time = some c ∧ p.cancelAt = some c ∧ c ≤ time := by
  cases h : p.cancelBy time with
  | none => exact Or.inl rfl
  | some c =>
    rw [Pace.cancelBy, Option.filter_eq_some_iff] at h
    exact Or.inr ⟨c, rfl, h.1, by simpa using h.2⟩

theorem deadlineBy_cases (p : Pace) (time : Nat) :
    (p.deadlineBy time = none ∧ ∀ d, p.deadline = some d → time < d) ∨
      ∃ d, p.deadlineBy time = some d ∧ p.deadline = some d ∧ d ≤ time := by
  cases h : p.deadlineBy time with
  | none =>
    rw [Pace.deadlineBy, Option.filter_eq_none_iff] at h
    refine Or.inl ⟨rfl, ?_⟩
    intro d hd
    have hlate := h d hd
    simp only [decide_eq_true_eq] at hlate
    omega
  | some d =>
    rw [Pace.deadlineBy, Option.filter_eq_some_iff] at h
    exact Or.inr ⟨d, rfl, h.1, by simpa using h.2⟩

theorem arrival_cases (p : Pace) (now due : Nat) : Arrived p now due (p.arrival now due) := by
  unfold Pace.arrival
  rcases cancelBy_cases p due with hnone | ⟨c, hsome, hat, hby⟩
  · rw [hnone]
    rcases deadlineBy_cases p due with ⟨hawaited, hlater⟩ | ⟨d, hdropped, hd, hle⟩
    · rw [hawaited]
      exact .due hnone hlater
    · rw [hdropped]
      exact .dropped d hd fun _ => hle
  · rw [hsome]
    rcases deadlineBy_cases p (max now c) with ⟨hawaited, hlater⟩ | ⟨d, hdropped, hd, hle⟩
    · simp only [hawaited]
      exact .cancelled c hat hby hlater
    · simp only [hdropped]
      refine .dropped d hd ?_
      intro hnow
      omega

theorem arrival_patient_time {pace : Pace} (patient : pace.deadline = none) {now due : Nat}
    (h : now ≤ due) :
    now ≤ (pace.arrival now due).time due ∧ (pace.arrival now due).time due ≤ due := by
  have harrived := arrival_cases pace now due
  generalize pace.arrival now due = arrival at harrived ⊢
  cases harrived with
  | due uncancelled inTime => exact ⟨h, Nat.le_refl _⟩
  | cancelled c at_ by_ inTime =>
    simp only [Arrival.time]
    omega
  | dropped d at_ by_ =>
    rw [patient] at at_
    cases at_

theorem arrival_not_dropped {pace : Pace} (patient : pace.deadline = none) (now due t : Nat) :
    pace.arrival now due ≠ .dropped t := by
  intro hdropped
  have harrived := arrival_cases pace now due
  rw [hdropped] at harrived
  cases harrived with
  | dropped d at_ by_ =>
    rw [patient] at at_
    cases at_

namespace Run

variable {fetch : PageCall σ α} {pace : Pace} {operation : String}

/-- How long the turn under way takes if nothing cuts it short. -/
def ahead (fetch : PageCall σ α) (pace : Pace) (r : Run σ α) : Nat :=
  match r.walk.phase with
  | .calling => (fetch r.walk.traversal.request r.store).1.delay
  | .waiting delay => pace.rest delay
  | _ => 0

/-! ### One turn -/

/-- What a turn makes of the arrival that ends it, when `ready` is the run that the awaited event comes to. -/
def arrive (operation : String) (r ready : Run σ α) (due : Nat) (e : Event α) : Arrival → Run σ α
  | .due => ready.move operation due e
  | .cancelled t => r.move operation t .cancelled
  | .dropped t => { r with now := t, dropped := true }

theorem turn_calling_arrive {r : Run σ α} (awaited : r.dropped = false) (h : r.walk.phase = .calling) :
    r.turn fetch pace operation =
      let reply := (fetch r.walk.traversal.request r.store).1
      if reply.cancels then (r.called fetch).move operation r.now .cancelled
      else (r.called fetch).arrive operation
        { r.called fetch with notes := r.notes ++ reply.notes } (r.now + reply.delay)
        (.answered reply.outcome) (pace.arrival r.now (r.now + reply.delay)) := by
  rw [turn_calling awaited h]
  dsimp only
  split
  · rfl
  · cases pace.arrival r.now (r.now + (fetch r.walk.traversal.request r.store).1.delay) <;> rfl

theorem turn_waiting_arrive {r : Run σ α} {delay : Nat} (awaited : r.dropped = false)
    (h : r.walk.phase = .waiting delay) :
    r.turn fetch pace operation =
      r.arrive operation r (r.now + pace.rest delay) .waited
        (pace.arrival r.now (r.now + pace.rest delay)) := by
  rw [turn_waiting awaited h]
  cases pace.arrival r.now (r.now + pace.rest delay) <;> rfl

theorem arrive_now (r ready : Run σ α) (due : Nat) (e : Event α) (a : Arrival) :
    (r.arrive operation ready due e a).now = a.time due := by
  cases a with
  | due => exact move_now _ _ _ _
  | cancelled t => exact move_now _ _ _ _
  | dropped t => rfl

theorem arrive_patient_dropped (patient : pace.deadline = none) {r ready : Run σ α} (e : Event α)
    (awaited : r.dropped = false) (awaited' : ready.dropped = false) (now due : Nat) :
    (r.arrive operation ready due e (pace.arrival now due)).dropped = false := by
  cases ha : pace.arrival now due with
  | due =>
    rw [arrive, move_dropped]
    exact awaited'
  | cancelled t =>
    rw [arrive, move_dropped]
    exact awaited
  | dropped t => exact absurd ha (arrival_not_dropped patient now due t)

theorem turn_patient_dropped (patient : pace.deadline = none) {r : Run σ α} (awaited : r.dropped = false) :
    (r.turn fetch pace operation).dropped = false := by
  cases hp : r.walk.phase with
  | checking =>
    rw [turn_checking awaited hp]
    split <;> rw [move_dropped, awaited]
  | calling =>
    rw [turn_calling_arrive awaited hp]
    dsimp only
    split
    · rw [move_dropped]
      exact awaited
    · refine arrive_patient_dropped patient _ ?_ ?_ _ _
      · exact awaited
      · exact awaited
  | waiting delay =>
    rw [turn_waiting_arrive awaited hp]
    exact arrive_patient_dropped patient _ awaited awaited _ _
  | ended result =>
    rw [turn_ended hp]
    exact awaited

theorem turn_patient_now (patient : pace.deadline = none) (r : Run σ α) :
    r.now ≤ (r.turn fetch pace operation).now ∧
      (r.turn fetch pace operation).now ≤ r.now + r.ahead fetch pace := by
  cases hd : r.dropped with
  | true =>
    rw [turn_dropped hd]
    exact ⟨Nat.le_refl _, Nat.le_add_right _ _⟩
  | false =>
    cases hp : r.walk.phase with
    | checking =>
      have hnow : (r.turn fetch pace operation).now = r.now := by
        rw [turn_checking hd hp]
        split <;> rw [move_now]
      rw [hnow]
      exact ⟨Nat.le_refl _, Nat.le_add_right _ _⟩
    | calling =>
      rw [turn_calling_arrive hd hp, ahead, hp]
      dsimp only
      split
      · rw [move_now]
        exact ⟨Nat.le_refl _, Nat.le_add_right _ _⟩
      · rw [arrive_now]
        exact arrival_patient_time patient (Nat.le_add_right _ _)
    | waiting delay =>
      rw [turn_waiting_arrive hd hp, ahead, hp, arrive_now]
      exact arrival_patient_time patient (Nat.le_add_right _ _)
    | ended result =>
      rw [turn_ended hp]
      exact ⟨Nat.le_refl _, Nat.le_add_right _ _⟩

theorem arrive_deadline {d : Nat} (deadline : pace.deadline = some d) {r ready : Run σ α} (e : Event α)
    (same : ready.store = r.store) (now due : Nat) :
    r.arrive operation ready due e (pace.arrival now due) =
      if (r.arrive operation ready due e (pace.patient.arrival now due)).now < d then
        r.arrive operation ready due e (pace.patient.arrival now due)
      else
        { r with
          store := (r.arrive operation ready due e (pace.patient.arrival now due)).store
          now := d
          dropped := true } := by
  rw [arrive_now, arrival_deadline deadline]
  by_cases hlt : (pace.patient.arrival now due).time due < d
  · rw [if_pos hlt, if_pos hlt]
  · rw [if_neg hlt, if_neg hlt]
    have hstore : (r.arrive operation ready due e (pace.patient.arrival now due)).store = r.store := by
      cases pace.patient.arrival now due with
      | due => rw [arrive, move_store, same]
      | cancelled t => rw [arrive, move_store]
      | dropped t => rfl
    rw [hstore]
    rfl

/-- A turn that would be over before the deadline is made as if there were none; in one that would not, the listing is
dropped. -/
theorem turn_deadline {d : Nat} (deadline : pace.deadline = some d) {r : Run σ α}
    (awaited : r.dropped = false) (early : r.now < d) :
    r.turn fetch pace operation =
      if (r.turn fetch pace.patient operation).now < d then r.turn fetch pace.patient operation
      else { r with store := (r.turn fetch pace.patient operation).store, now := d, dropped := true } := by
  cases hp : r.walk.phase with
  | checking =>
    have hsame : r.turn fetch pace operation = r.turn fetch pace.patient operation := by
      rw [turn_checking awaited hp, turn_checking awaited hp]
      rfl
    have hnow : (r.turn fetch pace.patient operation).now = r.now := by
      rw [turn_checking awaited hp]
      split <;> rw [move_now]
    rw [hnow, if_pos early, hsame]
  | calling =>
    rw [turn_calling_arrive awaited hp, turn_calling_arrive awaited hp]
    dsimp only
    by_cases hcancels : (fetch r.walk.traversal.request r.store).1.cancels = true
    · rw [if_pos hcancels, if_pos hcancels, move_now, if_pos early]
    · rw [if_neg hcancels, if_neg hcancels]
      refine arrive_deadline deadline _ ?_ _ _
      rfl
  | waiting delay =>
    rw [turn_waiting_arrive awaited hp, turn_waiting_arrive awaited hp]
    exact arrive_deadline deadline _ rfl _ _
  | ended result => rw [turn_ended hp, turn_ended hp, if_pos early]

/-! ### What the provider has seen -/

/-- The request of a call that is made in the turn to come. -/
def unseen (r : Run σ α) : List ListingRequest :=
  match r.dropped, r.walk.phase with
  | false, .calling => [r.walk.traversal.request]
  | _, _ => []

theorem unseen_of_dropped {r : Run σ α} (h : r.dropped = true) : r.unseen = [] := by
  rw [unseen, h]

theorem unseen_of_phase {r : Run σ α} (h : r.walk.phase ≠ .calling) : r.unseen = [] := by
  unfold unseen
  split
  · contradiction
  · rfl

theorem unseen_of_calling {r : Run σ α} (awaited : r.dropped = false) (h : r.walk.phase = .calling) :
    r.unseen = [r.walk.traversal.request] := by
  rw [unseen, awaited, h]

theorem turn_store_unseen (fetch : PageCall σ α) (pace : Pace) (operation : String) (r : Run σ α) :
    (r.turn fetch pace operation).store = storeAfter fetch r.store r.unseen := by
  by_cases h : r.dropped = false ∧ r.walk.phase = .calling
  · rw [turn_store_calling h.1 h.2, unseen_of_calling h.1 h.2]
    rfl
  · have hnone : r.unseen = [] := by
      cases hd : r.dropped with
      | true => exact unseen_of_dropped hd
      | false => exact unseen_of_phase fun hp => h ⟨hd, hp⟩
    rw [turn_store_quiet fun awaited phase => h ⟨awaited, phase⟩, hnone]
    rfl

theorem turn_requests_unseen (fetch : PageCall σ α) (pace : Pace) (operation : String) (r : Run σ α) :
    (r.turn fetch pace operation).requests = r.requests ++ (r.turn fetch pace operation).unseen := by
  obtain ⟨_, r', hr', hturned⟩ := turn_cases fetch pace operation r
  rw [hr']
  cases hturned with
  | idle still =>
    have hnone : r.unseen = [] := by
      rcases still with hd | hl
      · exact unseen_of_dropped hd
      · exact unseen_of_phase fun hp => hl (live_of_phase hp (by simp))
    rw [hnone, List.append_nil]
  | clear awaited phase =>
    have hcalling : (r.move operation r.now .clear).walk.phase = .calling := by
      rw [move_walk, Walk.step_clear _ phase]
    have hd : (r.move operation r.now .clear).dropped = false := by rw [move_dropped, awaited]
    rw [unseen_of_calling hd hcalling, move_requests, move_walk, Walk.step_clear _ phase]
    rfl
  | answered awaited phase =>
    have hnone : (r.answered fetch operation).unseen = [] := by
      refine unseen_of_phase ?_
      rw [answered_walk phase]
      exact Walk.answer_not_calling _ _
    rw [hnone, answered_requests phase, List.append_nil]
  | waited awaited delay phase =>
    have hnone : (r.move operation (r.now + pace.rest delay) .waited).unseen = [] := by
      refine unseen_of_phase ?_
      rw [move_walk, Walk.step_waited _ _ phase]
      simp
    rw [hnone, move_requests, Walk.step_waited _ _ phase]
    rfl
  | cancelled awaited live store time disturbed =>
    have hnone : ({ r with store := store }.move operation time .cancelled).unseen = [] := by
      refine unseen_of_phase ?_
      rw [move_cancelled operation { r with store := store } time live]
      intro hphase
      cases hphase
    rw [hnone, List.append_nil, move_cancelled operation { r with store := store } time live]
    rfl
  | dropped store time disturbed =>
    rw [unseen_of_dropped rfl]
    exact (List.append_nil _).symm

/-! ### When calls are made -/

theorem foldl_perform_calls (operation : String) (acts : List Act) (r : Run σ α) :
    (acts.foldl (perform operation) r).calls =
      r.calls ++ (acts.filterMap Act.request?).map fun q => (r.now, q) := by
  induction acts generalizing r with
  | nil => simp
  | cons act acts ih =>
    rw [List.foldl_cons, ih, List.filterMap_cons]
    cases act <;> simp [perform, Act.request?]

theorem move_calls (operation : String) (r : Run σ α) (time : Nat) (e : Event α) :
    (r.move operation time e).calls =
      r.calls ++ ((r.walk.step e).2.filterMap Act.request?).map fun q => (time, q) :=
  foldl_perform_calls operation _ _

/-- A turn begins a call at once, or none. -/
theorem turn_calls (fetch : PageCall σ α) (pace : Pace) (operation : String) (r : Run σ α) :
    ∃ begun : List ListingRequest,
      (r.turn fetch pace operation).calls = r.calls ++ begun.map fun q => (r.now, q) := by
  obtain ⟨_, r', hr', hturned⟩ := turn_cases fetch pace operation r
  rw [hr']
  cases hturned with
  | idle still => exact ⟨[], (List.append_nil _).symm⟩
  | clear awaited phase =>
    rw [move_calls, Walk.step_clear _ phase]
    exact ⟨[r.walk.traversal.request], rfl⟩
  | answered awaited phase =>
    rw [answered, move_calls, Walk.step_answered _ _ phase, Walk.answer_requests]
    exact ⟨[], rfl⟩
  | waited awaited delay phase =>
    rw [move_calls, Walk.step_waited _ _ phase]
    exact ⟨[], rfl⟩
  | cancelled awaited live store time disturbed =>
    rw [move_cancelled operation { r with store := store } time live]
    exact ⟨[], (List.append_nil _).symm⟩
  | dropped store time disturbed => exact ⟨[], (List.append_nil _).symm⟩

end Run

theorem storeAfter_append (fetch : PageCall σ α) (store : σ) (qs qs' : List ListingRequest) :
    storeAfter fetch store (qs ++ qs') = storeAfter fetch (storeAfter fetch store qs) qs' :=
  List.foldl_append

namespace Setup

variable {s : Setup σ α}

/-- The provider has seen all calls of a run but the one that is made in the turn to come. -/
theorem seen_run (s : Setup σ α) (n : Nat) :
    ∃ seen, (s.run n).requests = seen ++ (s.run n).unseen ∧
      (s.run n).store = storeAfter s.fetch s.store seen := by
  induction n with
  | zero => exact ⟨[], rfl, rfl⟩
  | succ n ih =>
    obtain ⟨seen, hrequests, hstore⟩ := ih
    refine ⟨(s.run n).requests, ?_, ?_⟩
    · rw [s.run_succ, Run.turn_requests_unseen]
    · rw [s.run_succ, Run.turn_store_unseen, hstore, ← storeAfter_append, ← hrequests]

/-- A turn later the provider has seen them all. -/
theorem store_run_succ (s : Setup σ α) (n : Nat) :
    (s.run (n + 1)).store = storeAfter s.fetch s.store (s.run n).requests := by
  obtain ⟨seen, hrequests, hstore⟩ := s.seen_run n
  rw [s.run_succ, Run.turn_store_unseen, hstore, ← storeAfter_append, ← hrequests]

theorem store_run {n : Nat} (h : (s.run n).unseen = []) :
    (s.run n).store = storeAfter s.fetch s.store (s.run n).requests := by
  obtain ⟨seen, hrequests, hstore⟩ := s.seen_run n
  rw [h, List.append_nil] at hrequests
  rw [hrequests, hstore]

end Setup

/-! ### Time that passes -/

/-- How long a provider's replies to requests take, one after the other. -/
def delays (fetch : PageCall σ α) (store : σ) : List ListingRequest → List Nat
  | [] => []
  | q :: qs => (fetch q store).1.delay :: delays fetch (fetch q store).2 qs

theorem delays_append (fetch : PageCall σ α) (store : σ) (qs qs' : List ListingRequest) :
    delays fetch store (qs ++ qs') =
      delays fetch store qs ++ delays fetch (storeAfter fetch store qs) qs' := by
  induction qs generalizing store with
  | nil => rfl
  | cons q qs ih =>
    simp only [List.cons_append, delays, storeAfter, List.foldl_cons]
    rw [ih]
    rfl

/-- A walk that has taken in an outcome has begun the wait that it is in, and no other. -/
theorem Walk.answer_waits (w : Walk α) (o : PageOutcome α) :
    (w.answer o).2.filterMap Act.delay? =
      match (w.answer o).1.phase with
      | .waiting delay => [delay]
      | _ => [] := by
  obtain ⟨r, hr, h⟩ := w.traversal.advance_cases o
  simp only [answer, hr]
  cases h <;> rfl

namespace Setup

variable {s : Setup σ α}

def needed (s : Setup σ α) (r : Run σ α) : Nat :=
  (delays s.fetch s.store r.requests).sum + (r.waits.map s.pace.rest).sum

/-- The clock of a run, together with the turn to come, shows what its calls and its waits take. -/
structure Timed (s : Setup σ α) (r : Run σ α) : Prop where
  bound : r.now + r.ahead s.fetch s.pace ≤ s.now + s.needed r
  exact : r.Live ∨ Undisturbed s.fetch s.pace →
    r.now + r.ahead s.fetch s.pace = s.now + s.needed r

theorem patient_dropped (patient : s.pace.deadline = none) (n : Nat) : (s.run n).dropped = false := by
  induction n with
  | zero => rfl
  | succ n ih =>
    rw [s.run_succ]
    exact Run.turn_patient_dropped patient ih

theorem ahead_ended {r : Run σ α} {result : Result α} (h : r.walk.phase = .ended result) :
    r.ahead s.fetch s.pace = 0 := by
  rw [Run.ahead, h]

theorem timed_clear {r : Run σ α} (h : s.Timed r) (phase : r.walk.phase = .checking)
    (store : r.store = storeAfter s.fetch s.store r.requests) :
    s.Timed (r.move s.operation r.now .clear) := by
  have hexact := h.exact (Or.inl (Run.live_of_phase phase (by simp)))
  have hahead : r.ahead s.fetch s.pace = 0 := by rw [Run.ahead, phase]
  have hrequests : (r.move s.operation r.now .clear).requests = r.requests ++ [r.walk.traversal.request] := by
    rw [Run.move_requests, Walk.step_clear _ phase]
    rfl
  have hwaits : (r.move s.operation r.now .clear).waits = r.waits := by
    rw [Run.move_waits, Walk.step_clear _ phase]
    exact List.append_nil _
  have hahead' : (r.move s.operation r.now .clear).ahead s.fetch s.pace =
      (s.fetch r.walk.traversal.request r.store).1.delay := by
    simp only [Run.ahead, Run.move_walk, Run.move_store, Walk.step_clear _ phase]
  have hneeded : s.needed (r.move s.operation r.now .clear) =
      s.needed r + (s.fetch r.walk.traversal.request r.store).1.delay := by
    rw [needed, needed, hrequests, hwaits, delays_append, ← store, List.sum_append]
    simp only [delays, List.sum_cons, List.sum_nil]
    omega
  have hsum : (r.move s.operation r.now .clear).now + (r.move s.operation r.now .clear).ahead s.fetch s.pace =
      s.now + s.needed (r.move s.operation r.now .clear) := by
    rw [Run.move_now, hahead', hneeded]
    omega
  exact ⟨Nat.le_of_eq hsum, fun _ => hsum⟩

theorem timed_answered {r : Run σ α} (h : s.Timed r) (phase : r.walk.phase = .calling) :
    s.Timed (r.answered s.fetch s.operation) := by
  have hexact := h.exact (Or.inl (Run.live_of_phase phase (by simp)))
  have hahead : r.ahead s.fetch s.pace = (s.fetch r.walk.traversal.request r.store).1.delay := by
    rw [Run.ahead, phase]
  generalize ho : (s.fetch r.walk.traversal.request r.store).1.outcome = o
  have hwalk : (r.answered s.fetch s.operation).walk = (r.walk.answer o).1 := by
    rw [Run.answered_walk phase, ho]
  have hwaits : (r.answered s.fetch s.operation).waits =
      r.waits ++ (r.walk.answer o).2.filterMap Act.delay? := by
    rw [Run.answered_delays phase, ho]
  have hneeded : s.needed (r.answered s.fetch s.operation) =
      s.needed r + (((r.walk.answer o).2.filterMap Act.delay?).map s.pace.rest).sum := by
    rw [needed, needed, Run.answered_requests phase, hwaits, List.map_append, List.sum_append]
    omega
  -- The wait that the outcome leads to is the one that is ahead.
  have hahead' : (r.answered s.fetch s.operation).ahead s.fetch s.pace =
      (((r.walk.answer o).2.filterMap Act.delay?).map s.pace.rest).sum := by
    rw [Walk.answer_waits, Run.ahead, hwalk]
    cases hp : (r.walk.answer o).1.phase with
    | calling => exact absurd hp (Walk.answer_not_calling _ _)
    | waiting delay => simp
    | checking => rfl
    | ended result => rfl
  have hsum : (r.answered s.fetch s.operation).now + (r.answered s.fetch s.operation).ahead s.fetch s.pace =
      s.now + s.needed (r.answered s.fetch s.operation) := by
    rw [Run.answered_now, hahead', hneeded]
    omega
  exact ⟨Nat.le_of_eq hsum, fun _ => hsum⟩

theorem timed_waited {r : Run σ α} (h : s.Timed r) {delay : Nat} (phase : r.walk.phase = .waiting delay) :
    s.Timed (r.move s.operation (r.now + s.pace.rest delay) .waited) := by
  have hexact := h.exact (Or.inl (Run.live_of_phase phase (by simp)))
  have hahead : r.ahead s.fetch s.pace = s.pace.rest delay := by rw [Run.ahead, phase]
  have hstep := Walk.step_waited _ _ phase
  have hneeded : s.needed (r.move s.operation (r.now + s.pace.rest delay) .waited) = s.needed r := by
    rw [needed, needed, Run.move_requests, Run.move_waits, hstep]
    simp
  have hahead' : (r.move s.operation (r.now + s.pace.rest delay) .waited).ahead s.fetch s.pace = 0 := by
    simp only [Run.ahead, Run.move_walk, hstep]
  have hsum : (r.move s.operation (r.now + s.pace.rest delay) .waited).now +
      (r.move s.operation (r.now + s.pace.rest delay) .waited).ahead s.fetch s.pace =
        s.now + s.needed (r.move s.operation (r.now + s.pace.rest delay) .waited) := by
    rw [Run.move_now, hahead', hneeded]
    omega
  exact ⟨Nat.le_of_eq hsum, fun _ => hsum⟩

theorem timed_run (patient : s.pace.deadline = none) (n : Nat) : s.Timed (s.run n) := by
  induction n with
  | zero => exact ⟨Nat.le_refl _, fun _ => rfl⟩
  | succ n ih =>
    have hdropped := patient_dropped patient (n + 1)
    have hnow : _ ∧ ((s.run n).turn s.fetch s.pace s.operation).now ≤ _ :=
      Run.turn_patient_now patient (s.run n)
    have hstore := s.store_run (n := n)
    rw [s.run_succ] at hdropped ⊢
    generalize s.run n = r at ih hdropped hnow hstore ⊢
    obtain ⟨_, r', hr', hturned⟩ := Run.turn_cases s.fetch s.pace s.operation r
    rw [hr'] at hdropped hnow ⊢
    cases hturned with
    | idle still => exact ih
    | clear awaited phase => exact timed_clear ih phase (hstore (Run.unseen_of_phase (by simp [phase])))
    | answered awaited phase => exact timed_answered ih phase
    | waited awaited delay phase => exact timed_waited ih phase
    | cancelled awaited live store time disturbed =>
      have hbound := ih.bound
      rw [Run.move_cancelled s.operation { r with store := store } time live] at hnow ⊢
      refine ⟨Nat.le_trans hnow.2 hbound, ?_⟩
      rintro (hlive | calm)
      · exact absurd rfl (hlive _)
      · exact absurd calm disturbed
    | dropped store time disturbed => cases hdropped

/-- A listing that nobody gives up and that has ended took no longer than its calls and its waits, and as long if nothing
disturbed it. -/
theorem ended_now (patient : s.pace.deadline = none) {n : Nat} {result : Result α}
    (h : (s.run n).result? = some result) :
    (s.run n).now ≤ s.now + s.needed (s.run n) ∧
      (Undisturbed s.fetch s.pace → (s.run n).now = s.now + s.needed (s.run n)) := by
  have hahead : (s.run n).ahead s.fetch s.pace = 0 := ahead_ended (Run.ended_of_result h)
  have htimed := timed_run patient n
  have hbound := htimed.bound
  rw [hahead] at hbound
  refine ⟨hbound, ?_⟩
  intro calm
  have hexact := htimed.exact (Or.inr calm)
  rw [hahead] at hexact
  exact hexact

/-- Delays are taken from the front of the schedule: a run has waited some of them, and the others are left. -/
theorem waits_schedule (s : Setup σ α) (n : Nat) :
    (s.run n).waits ++ (s.run n).walk.traversal.schedule = s.schedule := by
  induction n with
  | zero => rfl
  | succ n ih =>
    rw [s.run_succ]
    generalize s.run n = r at ih ⊢
    obtain ⟨_, r', hr', hturned⟩ := Run.turn_cases s.fetch s.pace s.operation r
    rw [hr']
    cases hturned with
    | idle still => exact ih
    | clear awaited phase =>
      have hnone : [Act.call r.walk.traversal.request].filterMap Act.delay? = [] := rfl
      rw [Run.move_waits, Run.move_walk, Walk.step_clear _ phase, hnone, List.append_nil]
      exact ih
    | answered awaited phase => exact (Run.answered_schedule phase).trans ih
    | waited awaited delay phase =>
      rw [Run.move_waits, Run.move_walk, Walk.step_waited _ _ phase]
      simpa using ih
    | cancelled awaited live store time disturbed =>
      rw [Run.move_cancelled s.operation { r with store := store } time live]
      exact ih
    | dropped store time disturbed => exact ih

theorem waits_sum_le (s : Setup σ α) (n : Nat) : (s.run n).waits.sum ≤ s.schedule.sum := by
  have h := congrArg List.sum (s.waits_schedule n)
  rw [List.sum_append] at h
  omega

/-! ### Runs with and without a deadline -/

def patient (s : Setup σ α) : Setup σ α :=
  { s with pace := s.pace.patient }

theorem patient_now_mono (patient : s.pace.deadline = none) {n m : Nat} (h : n ≤ m) :
    (s.run n).now ≤ (s.run m).now := by
  induction h with
  | refl => exact Nat.le_refl _
  | step h ih =>
    refine Nat.le_trans ih ?_
    rw [s.run_succ]
    exact (Run.turn_patient_now patient _).1

theorem calls_by_now (patient : s.pace.deadline = none) (n : Nat) :
    ∀ call ∈ (s.run n).calls, call.1 ≤ (s.run n).now := by
  induction n with
  | zero => exact fun call hcall => nomatch hcall
  | succ n ih =>
    have hmono := patient_now_mono patient (Nat.le_succ n)
    obtain ⟨begun, hbegun⟩ := Run.turn_calls s.fetch s.pace s.operation (s.run n)
    rw [← s.run_succ] at hbegun
    rw [hbegun]
    intro call hcall
    rcases List.mem_append.mp hcall with hearlier | hnew
    · exact Nat.le_trans (ih call hearlier) hmono
    · obtain ⟨q, -, rfl⟩ := List.mem_map.mp hnew
      exact hmono

theorem patient_run_succ (s : Setup σ α) (n : Nat) :
    s.patient.run (n + 1) = (s.patient.run n).turn s.fetch s.pace.patient s.operation :=
  s.patient.run_succ n

variable {d : Nat}

theorem run_before_deadline (deadline : s.pace.deadline = some d) {n : Nat}
    (before : (s.patient.run n).now < d) : s.run n = s.patient.run n := by
  induction n with
  | zero => rfl
  | succ n ih =>
    have hearly : (s.patient.run n).now < d :=
      Nat.lt_of_le_of_lt (patient_now_mono rfl (Nat.le_succ n)) before
    rw [s.patient_run_succ] at before ⊢
    rw [s.run_succ, ih hearly, Run.turn_deadline deadline (patient_dropped rfl n) hearly, if_pos before]

/-- A listing that would take longer than it is waited for is dropped at the deadline, in the turn that would bring it there. -/
theorem run_at_deadline (deadline : s.pace.deadline = some d) (early : s.now < d) {n : Nat}
    (late : d ≤ (s.patient.run n).now) :
    ∃ m < n, (s.patient.run m).now < d ∧ (s.patient.run m).Live ∧
      s.run n =
        { s.patient.run m with store := (s.patient.run (m + 1)).store, now := d, dropped := true } := by
  induction n with
  | zero => exact absurd early (Nat.not_lt_of_le late)
  | succ n ih =>
    by_cases hlate : d ≤ (s.patient.run n).now
    · obtain ⟨m, hm, hbefore, hlive, hrun⟩ := ih hlate
      refine ⟨m, Nat.lt_succ_of_lt hm, hbefore, hlive, ?_⟩
      rw [s.run_succ, Run.turn_dropped (by rw [hrun]), hrun]
    · have hearly : (s.patient.run n).now < d := Nat.lt_of_not_le hlate
      refine ⟨n, Nat.lt_succ_self n, hearly, ?_, ?_⟩
      · intro result hresult
        rw [s.patient_run_succ, Run.turn_ended hresult] at late
        exact hlate late
      · rw [s.run_succ, run_before_deadline deadline hearly,
          Run.turn_deadline deadline (patient_dropped rfl n) hearly, ← s.patient_run_succ,
          if_neg (Nat.not_lt_of_le late)]

/-- A listing that was dropped at the deadline has no result, has begun no call at the deadline or after it, and has left
the provider as its calls have made it. -/
theorem dropped_at_deadline (deadline : s.pace.deadline = some d) (early : s.now < d) {n : Nat}
    (late : d ≤ (s.patient.run n).now) :
    (s.run n).result? = none ∧ (s.run n).now = d ∧ (∀ call ∈ (s.run n).calls, call.1 < d) ∧
      (s.run n).store = storeAfter s.fetch s.store (s.run n).requests := by
  obtain ⟨m, -, hbefore, hlive, hrun⟩ := run_at_deadline deadline early late
  refine ⟨?_, by rw [hrun], ?_, store_run (Run.unseen_of_dropped (by rw [hrun]))⟩
  · rw [hrun, Run.result?]
    split
    · exact absurd (by assumption) (hlive _)
    · rfl
  · intro call hcall
    rw [hrun] at hcall
    exact Nat.lt_of_le_of_lt (calls_by_now rfl m call hcall) hbefore

end Setup

end DirectoryGateway.Listing
