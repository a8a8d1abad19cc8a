import DirectoryGateway.Proofs.Listing.Outcomes

/-!
# What a turn does

A turn of a run is one move of its listing, by the event that the provider, the clock and the cancellation bring.
`Turned` lists all of them, with the guards under which they come and the reply that is taken in; `turned` is the only
place where a turn is taken apart for any pace. A turn that takes in a reply has two steps, a poll that brings it and the
taking in, and any other has one.
-/

namespace DirectoryGateway.Listing

open DirectoryGateway.Provider

variable {σ α : Type}

def Act.request? : Act → Option ListingRequest
  | .call request => some request
  | _ => none

/-! ### Moves -/

namespace Walk

theorem step_clear (w : Walk α) (h : w.phase = .checking) :
    w.step .clear = (⟨w.traversal, .calling⟩, [.call w.traversal.request]) := by
  simp [step, h]

theorem step_answered (w : Walk α) (o : PageOutcome α) (h : w.phase = .calling) :
    w.step (.answered o) = w.answer o := by
  simp [step, h]

theorem step_waited (w : Walk α) (delay : Nat) (h : w.phase = .waiting delay) :
    w.step .waited = (⟨w.traversal, .checking⟩, []) := by
  simp [step, h]

theorem step_cancelled (w : Walk α) (h : ∀ result, w.phase ≠ .ended result) :
    w.step .cancelled = (w.stop .cancelled, []) := by
  cases hp : w.phase with
  | ended result => exact absurd hp (h result)
  | _ => simp [step, hp]

theorem answer_traversal (w : Walk α) (o : PageOutcome α) :
    (w.answer o).1.traversal = (w.traversal.advance o).1 := rfl

theorem answer_phase (w : Walk α) (o : PageOutcome α) :
    (∃ result, w.traversal.ends o = some result ∧ (w.answer o).1.phase = .ended result) ∨
      (w.traversal.ends o = none ∧
        ((w.answer o).1.phase = .checking ∨ ∃ delay, (w.answer o).1.phase = .waiting delay)) := by
  obtain ⟨r, hr, h⟩ := w.traversal.advance_cases o
  simp only [answer, Traversal.ends, hr]
  cases h with
  | page => exact Or.inr ⟨rfl, Or.inl rfl⟩
  | lastPage => exact Or.inl ⟨_, rfl, rfl⟩
  | throttle failure delay => exact Or.inr ⟨rfl, Or.inr ⟨delay, rfl⟩⟩
  | exhausted => exact Or.inl ⟨_, rfl, rfl⟩
  | hard => exact Or.inl ⟨_, rfl, rfl⟩

theorem answer_requests (w : Walk α) (o : PageOutcome α) :
    (w.answer o).2.filterMap Act.request? = [] := by
  obtain ⟨r, hr, h⟩ := w.traversal.advance_cases o
  simp only [answer, hr]
  cases h <;> rfl

end Walk

namespace Run

def requests (r : Run σ α) : List ListingRequest :=
  r.calls.map Prod.snd

@[simp] theorem requests_length (r : Run σ α) : r.requests.length = r.calls.length := by
  simp [requests]

theorem foldl_perform (operation : String) (acts : List Act) (r : Run σ α) :
    (acts.foldl (perform operation) r).walk = r.walk ∧
      (acts.foldl (perform operation) r).store = r.store ∧
      (acts.foldl (perform operation) r).now = r.now ∧
      (acts.foldl (perform operation) r).dropped = r.dropped := by
  induction acts generalizing r with
  | nil => exact ⟨rfl, rfl, rfl, rfl⟩
  | cons act acts ih =>
    rw [List.foldl_cons]
    have h := ih (r.perform operation act)
    cases act <;> exact h

@[simp] theorem move_walk (operation : String) (r : Run σ α) (time : Nat) (e : Event α) :
    (r.move operation time e).walk = (r.walk.step e).1 :=
  (foldl_perform operation _ _).1

@[simp] theorem move_store (operation : String) (r : Run σ α) (time : Nat) (e : Event α) :
    (r.move operation time e).store = r.store :=
  (foldl_perform operation _ _).2.1

@[simp] theorem move_now (operation : String) (r : Run σ α) (time : Nat) (e : Event α) :
    (r.move operation time e).now = time :=
  (foldl_perform operation _ _).2.2.1

@[simp] theorem move_dropped (operation : String) (r : Run σ α) (time : Nat) (e : Event α) :
    (r.move operation time e).dropped = r.dropped :=
  (foldl_perform operation _ _).2.2.2

theorem foldl_perform_requests (operation : String) (acts : List Act) (r : Run σ α) :
    (acts.foldl (perform operation) r).requests = r.requests ++ acts.filterMap Act.request? := by
  induction acts generalizing r with
  | nil => simp
  | cons act acts ih =>
    rw [List.foldl_cons, ih, List.filterMap_cons]
    cases act <;> simp [perform, requests, Act.request?]

theorem move_requests (operation : String) (r : Run σ α) (time : Nat) (e : Event α) :
    (r.move operation time e).requests = r.requests ++ (r.walk.step e).2.filterMap Act.request? :=
  foldl_perform_requests operation _ _

theorem foldl_perform_notes (operation : String) (acts : List Act) (r : Run σ α) :
    (acts.foldl (perform operation) r).notes = r.notes ++ acts.filterMap (Act.note? operation) := by
  induction acts generalizing r with
  | nil => exact (List.append_nil _).symm
  | cons act acts ih =>
    rw [List.foldl_cons, ih, List.filterMap_cons]
    cases act with
    | page => exact List.append_assoc _ _ _
    | retry => exact List.append_assoc _ _ _
    | _ => rfl

theorem move_notes (operation : String) (r : Run σ α) (time : Nat) (e : Event α) :
    (r.move operation time e).notes = r.notes ++ (r.walk.step e).2.filterMap (Act.note? operation) :=
  foldl_perform_notes operation _ _

/-- The listing has not ended. -/
def Live (r : Run σ α) : Prop :=
  ∀ result, r.walk.phase ≠ .ended result

theorem move_cancelled (operation : String) (r : Run σ α) (time : Nat) (h : r.Live) :
    r.move operation time .cancelled = { r with walk := r.walk.stop .cancelled, now := time } := by
  rw [move, Walk.step_cancelled r.walk h]
  rfl

/-! ### Turns -/

end Run

/-- Nothing cancels the listing, and nobody gives it up. -/
structure Undisturbed (fetch : PageCall σ α) (pace : Pace) : Prop where
  uncancelled : pace.cancelAt = none
  awaited : pace.deadline = none
  quiet : ∀ request store, (fetch request store).1.cancels = false

namespace Run

variable {fetch : PageCall σ α} {pace : Pace} {operation : String}

/-- A run in which the call under way is made. -/
def called (fetch : PageCall σ α) (r : Run σ α) : Run σ α :=
  { r with store := (fetch r.walk.traversal.request r.store).2 }

/-- The point at which a poll of the call under way has brought its reply. -/
def polled (fetch : PageCall σ α) (r : Run σ α) : Point σ α :=
  let reply := (fetch r.walk.traversal.request r.store).1
  ⟨{ r.called fetch with now := r.now + reply.delay }, some reply⟩

/-- A run in which the call under way comes to its outcome. -/
def answered (fetch : PageCall σ α) (operation : String) (r : Run σ α) : Run σ α :=
  let (reply, store) := fetch r.walk.traversal.request r.store
  { r with store := store, notes := r.notes ++ reply.notes }.move operation (r.now + reply.delay)
    (.answered reply.outcome)

theorem answered_walk {r : Run σ α} (phase : r.walk.phase = .calling) :
    (r.answered fetch operation).walk =
      (r.walk.answer (fetch r.walk.traversal.request r.store).1.outcome).1 := by
  rw [answered, move_walk, Walk.step_answered _ _ phase]

theorem answered_requests {r : Run σ α} (phase : r.walk.phase = .calling) :
    (r.answered fetch operation).requests = r.requests := by
  rw [answered, move_requests, Walk.step_answered _ _ phase, Walk.answer_requests, List.append_nil]
  rfl

@[simp] theorem answered_store (r : Run σ α) :
    (r.answered fetch operation).store = (fetch r.walk.traversal.request r.store).2 := by
  rw [answered, move_store]

@[simp] theorem answered_now (r : Run σ α) :
    (r.answered fetch operation).now = r.now + (fetch r.walk.traversal.request r.store).1.delay := by
  rw [answered, move_now]

@[simp] theorem answered_dropped (r : Run σ α) :
    (r.answered fetch operation).dropped = r.dropped := by
  rw [answered, move_dropped]

/-- What a turn makes of a run, and the reply that it takes in. -/
inductive Turned (fetch : PageCall σ α) (pace : Pace) (operation : String) (r : Run σ α) :
    Option (Reply (Page α)) → Run σ α → Prop where
  | idle (still : r.dropped = true ∨ ¬ r.Live) : Turned fetch pace operation r none r
  | clear (awaited : r.dropped = false) (phase : r.walk.phase = .checking) :
    Turned fetch pace operation r none (r.move operation r.now .clear)
  | answered (awaited : r.dropped = false) (phase : r.walk.phase = .calling) :
    Turned fetch pace operation r (some (fetch r.walk.traversal.request r.store).1) (r.answered fetch operation)
  | waited (awaited : r.dropped = false) (delay : Nat) (phase : r.walk.phase = .waiting delay) :
    Turned fetch pace operation r none (r.move operation (r.now + pace.rest delay) .waited)
  | cancelled (awaited : r.dropped = false) (live : r.Live) (store : σ) (time : Nat)
      (disturbed : ¬ Undisturbed fetch pace) :
    Turned fetch pace operation r none ({ r with store := store }.move operation time .cancelled)
  | dropped (store : σ) (time : Nat) (disturbed : ¬ Undisturbed fetch pace) :
    Turned fetch pace operation r none { r with store := store, now := time, dropped := true }

theorem live_of_phase {r : Run σ α} {phase : Phase α} (h : r.walk.phase = phase)
    (hp : ∀ result, phase ≠ .ended result) : r.Live := by
  intro result hr
  exact hp result (h.symm.trans hr)

theorem undisturbed_cancelBy (calm : Undisturbed fetch pace) (time : Nat) :
    pace.cancelBy time = none := by
  simp [Pace.cancelBy, calm.uncancelled]

theorem undisturbed_arrival (calm : Undisturbed fetch pace) (now due : Nat) :
    pace.arrival now due = .due := by
  simp [Pace.arrival, Pace.cancelBy, Pace.deadlineBy, calm.uncancelled, calm.awaited]

theorem disturbed_of_cancelBy {time c : Nat} (h : pace.cancelBy time = some c) :
    ¬ Undisturbed fetch pace := by
  intro calm
  rw [undisturbed_cancelBy calm] at h
  contradiction

theorem disturbed_of_arrival {now due : Nat} (h : pace.arrival now due ≠ .due) :
    ¬ Undisturbed fetch pace := by
  intro calm
  exact h (undisturbed_arrival calm now due)

theorem disturbed_of_cancels {request : ListingRequest} {store : σ}
    (h : (fetch request store).1.cancels = true) : ¬ Undisturbed fetch pace := by
  intro calm
  rw [calm.quiet] at h
  contradiction

theorem look_dropped {r : Run σ α} (h : r.dropped = true) : r.look fetch pace operation = ⟨r, none⟩ := by
  simp [look, h]

theorem look_ended {r : Run σ α} {result : Result α} (h : r.walk.phase = .ended result) :
    r.look fetch pace operation = ⟨r, none⟩ := by
  simp [look, h]

theorem look_checking {r : Run σ α} (awaited : r.dropped = false) (h : r.walk.phase = .checking) :
    r.look fetch pace operation =
      match pace.cancelBy r.now with
      | some _ => ⟨r.move operation r.now .cancelled, none⟩
      | none => ⟨r.move operation r.now .clear, none⟩ := by
  rw [look, awaited, h]
  rfl

theorem look_calling {r : Run σ α} (awaited : r.dropped = false) (h : r.walk.phase = .calling) :
    r.look fetch pace operation =
      (r.called fetch).poll pace operation (fetch r.walk.traversal.request r.store).1 := by
  simp only [look, awaited, h, called, Bool.false_eq_true, ↓reduceIte]

theorem look_waiting {r : Run σ α} {delay : Nat} (awaited : r.dropped = false)
    (h : r.walk.phase = .waiting delay) :
    r.look fetch pace operation =
      match pace.arrival r.now (r.now + pace.rest delay) with
      | .due => ⟨r.move operation (r.now + pace.rest delay) .waited, none⟩
      | .cancelled time => ⟨r.move operation time .cancelled, none⟩
      | .dropped time => ⟨{ r with now := time, dropped := true }, none⟩ := by
  rw [look, awaited, h]
  rfl

theorem turn_dropped {r : Run σ α} (h : r.dropped = true) : r.turn fetch pace operation = r := by
  rw [turn, look_dropped h]
  rfl

theorem turn_ended {r : Run σ α} {result : Result α} (h : r.walk.phase = .ended result) :
    r.turn fetch pace operation = r := by
  rw [turn, look_ended h]
  rfl

theorem turn_checking {r : Run σ α} (awaited : r.dropped = false) (h : r.walk.phase = .checking) :
    r.turn fetch pace operation =
      match pace.cancelBy r.now with
      | some _ => r.move operation r.now .cancelled
      | none => r.move operation r.now .clear := by
  rw [turn, look_checking awaited h]
  cases pace.cancelBy r.now <;> rfl

theorem turn_calling {r : Run σ α} (awaited : r.dropped = false) (h : r.walk.phase = .calling) :
    r.turn fetch pace operation =
      if (fetch r.walk.traversal.request r.store).1.cancels then
        (r.called fetch).move operation r.now .cancelled
      else
        match pace.arrival r.now (r.now + (fetch r.walk.traversal.request r.store).1.delay) with
        | .due => r.answered fetch operation
        | .cancelled time => (r.called fetch).move operation time .cancelled
        | .dropped time => { r.called fetch with now := time, dropped := true } := by
  have hnow : (r.called fetch).now = r.now := rfl
  rw [turn, look_calling awaited h, poll, hnow]
  split
  · rfl
  · cases pace.arrival r.now (r.now + (fetch r.walk.traversal.request r.store).1.delay) <;> rfl

theorem turn_waiting {r : Run σ α} {delay : Nat} (awaited : r.dropped = false)
    (h : r.walk.phase = .waiting delay) :
    r.turn fetch pace operation =
      match pace.arrival r.now (r.now + pace.rest delay) with
      | .due => r.move operation (r.now + pace.rest delay) .waited
      | .cancelled time => r.move operation time .cancelled
      | .dropped time => { r with now := time, dropped := true } := by
  rw [turn, look_waiting awaited h]
  cases pace.arrival r.now (r.now + pace.rest delay) <;> rfl

theorem turned (fetch : PageCall σ α) (pace : Pace) (operation : String) (r : Run σ α) :
    Turned fetch pace operation r (r.look fetch pace operation).brought (r.turn fetch pace operation) := by
  rw [turn]
  cases hd : r.dropped with
  | true =>
    rw [look_dropped hd]
    exact .idle (Or.inl hd)
  | false =>
    cases hp : r.walk.phase with
    | checking =>
      rw [look_checking hd hp]
      cases hc : pace.cancelBy r.now with
      | none => exact .clear hd hp
      | some c =>
        exact .cancelled hd (live_of_phase hp (by simp)) r.store r.now (disturbed_of_cancelBy hc)
    | calling =>
      have hl : r.Live := live_of_phase hp (by simp)
      have hnow : (r.called fetch).now = r.now := rfl
      rw [look_calling hd hp, poll, hnow]
      cases hc : (fetch r.walk.traversal.request r.store).1.cancels with
      | true => exact .cancelled hd hl _ r.now (disturbed_of_cancels hc)
      | false =>
        cases ha : pace.arrival r.now (r.now + (fetch r.walk.traversal.request r.store).1.delay) with
        | due => exact .answered hd hp
        | cancelled time => exact .cancelled hd hl _ time (disturbed_of_arrival (by rw [ha]; simp))
        | dropped time => exact .dropped _ time (disturbed_of_arrival (by rw [ha]; simp))
    | waiting delay =>
      rw [look_waiting hd hp]
      cases ha : pace.arrival r.now (r.now + pace.rest delay) with
      | due => exact .waited hd delay hp
      | cancelled time =>
        have h : ¬ Undisturbed fetch pace := disturbed_of_arrival (by rw [ha]; simp)
        exact .cancelled hd (live_of_phase hp (by simp)) r.store time h
      | dropped time =>
        have h : ¬ Undisturbed fetch pace := disturbed_of_arrival (by rw [ha]; simp)
        exact .dropped r.store time h
    | ended result =>
      rw [look_ended hp]
      refine .idle (Or.inr ?_)
      intro hl
      exact hl result hp

theorem turn_cases (fetch : PageCall σ α) (pace : Pace) (operation : String) (r : Run σ α) :
    ∃ taken r', r.turn fetch pace operation = r' ∧ Turned fetch pace operation r taken r' :=
  ⟨_, _, rfl, turned fetch pace operation r⟩

/-! ### Many turns -/

theorem turns_add (r : Run σ α) (n m : Nat) :
    r.turns fetch pace operation (n + m) =
      (r.turns fetch pace operation n).turns fetch pace operation m := by
  induction n generalizing r with
  | zero =>
    rw [Nat.zero_add]
    rfl
  | succ n ih =>
    rw [Nat.succ_add, turns, ih]
    rfl

theorem turns_ended {r : Run σ α} {result : Result α} (h : r.walk.phase = .ended result) (n : Nat) :
    r.turns fetch pace operation n = r := by
  induction n with
  | zero => rfl
  | succ n ih => rw [turns, turn_ended h, ih]

theorem requests_turn (fetch : PageCall σ α) (pace : Pace) (operation : String) (r : Run σ α) :
    r.requests <+: (r.turn fetch pace operation).requests := by
  obtain ⟨_, r', hr', hturned⟩ := turn_cases fetch pace operation r
  rw [hr']
  cases hturned with
  | idle still => exact List.prefix_rfl
  | clear awaited phase =>
    rw [move_requests]
    exact List.prefix_append _ _
  | answered awaited phase =>
    exact ⟨[], by rw [List.append_nil, answered_requests phase]⟩
  | waited awaited delay phase =>
    rw [move_requests]
    exact List.prefix_append _ _
  | cancelled awaited live s time disturbed =>
    rw [move_cancelled operation { r with store := s } time live]
    exact List.prefix_rfl
  | dropped s time disturbed => exact List.prefix_rfl

theorem requests_turns (fetch : PageCall σ α) (pace : Pace) (operation : String) (r : Run σ α)
    (n : Nat) : r.requests <+: (r.turns fetch pace operation n).requests := by
  induction n with
  | zero => exact List.prefix_rfl
  | succ n ih =>
    rw [turns_add]
    exact ih.trans (requests_turn fetch pace operation _)

theorem turn_store_calling {r : Run σ α} (awaited : r.dropped = false) (h : r.walk.phase = .calling) :
    (r.turn fetch pace operation).store = (fetch r.walk.traversal.request r.store).2 := by
  rw [turn_calling awaited h]
  split
  · exact move_store _ _ _ _
  · split
    · exact move_store _ _ _ _
    · exact move_store _ _ _ _
    · rfl

theorem turn_store_quiet {r : Run σ α} (h : r.dropped = false → r.walk.phase ≠ .calling) :
    (r.turn fetch pace operation).store = r.store := by
  cases hd : r.dropped with
  | true => rw [turn_dropped hd]
  | false =>
    cases hp : r.walk.phase with
    | checking =>
      rw [turn_checking hd hp]
      split <;> simp
    | calling => exact absurd hp (h hd)
    | waiting delay =>
      rw [turn_waiting hd hp]
      split <;> simp
    | ended result => rw [turn_ended hp]

/-- A turn leaves the provider as it is, or makes one call on it. -/
theorem turn_store (fetch : PageCall σ α) (pace : Pace) (operation : String) (r : Run σ α) :
    (r.turn fetch pace operation).store = r.store ∨
      ∃ request, (r.turn fetch pace operation).store = (fetch request r.store).2 := by
  by_cases h : r.dropped = false ∧ r.walk.phase = .calling
  · exact Or.inr ⟨_, turn_store_calling h.1 h.2⟩
  · exact Or.inl (turn_store_quiet fun awaited phase => h ⟨awaited, phase⟩)

/-- What every call preserves of the provider, a listing preserves. -/
theorem turns_store {P : σ → Prop} (keeps : ∀ request store, P store → P (fetch request store).2)
    {r : Run σ α} (h : P r.store) (n : Nat) : P (r.turns fetch pace operation n).store := by
  induction n generalizing r with
  | zero => exact h
  | succ n ih =>
    refine ih ?_
    rcases turn_store fetch pace operation r with hsame | ⟨request, hcall⟩
    · rw [hsame]
      exact h
    · rw [hcall]
      exact keeps request r.store h

theorem ended_of_result {r : Run σ α} {result : Result α} (h : r.result? = some result) :
    r.walk.phase = .ended result := by
  rw [result?] at h
  split at h
  · simp only [Option.some.injEq] at h
    rw [← h]
    assumption
  · contradiction

theorem live_of_result {r : Run σ α} (h : r.result? = none) : r.Live := by
  intro result hphase
  rw [result?, hphase] at h
  contradiction

end Run

end DirectoryGateway.Listing
