import DirectoryGateway.Proofs.Gateway.Floor
import DirectoryGateway.Proofs.Listing.Cancellation
import DirectoryGateway.Proofs.Telemetry.Counting

/-!
# A request alone

A floor with a single request serves it as a session that serves one request after the other: each turn of the listing is one or
more happenings of the floor, and a drain or a stop that comes in between happens at its time.
-/

namespace DirectoryGateway.Listing

open DirectoryGateway.Provider

/-! ### Moves -/

namespace Seat

variable {α : Type} {seat : Seat α}

/-- A seat whose next move takes in an event, and makes no call. -/
structure Moves (seat : Seat α) (e : Event α) : Prop where
  silent : seat.asks? = none
  walk : seat.move.walk = (seat.walk.step e).1
  free : seat.move.pending = none
  notes : ∀ operation, seat.notes operation = (seat.walk.step e).2.filterMap (Act.note? operation)

theorem moves_clear (phase : seat.walk.phase = .checking) (free : seat.pending = none) : seat.Moves .clear where
  silent := by rw [asks?, phase]
  walk := by rw [move, phase, take_walk]
  free := by rw [move, phase, take_pending, free]
  notes operation := by
    rw [notes, phase, Walk.step_clear _ phase]
    rfl

theorem moves_waited {delay : Nat} (phase : seat.walk.phase = .waiting delay) (free : seat.pending = none) :
    seat.Moves .waited where
  silent := by rw [asks?, phase]
  walk := by rw [move, phase, take_walk]
  free := by rw [move, phase, take_pending, free]
  notes operation := by
    rw [notes, phase, Walk.step_waited _ delay phase]
    rfl

theorem moves_answered (phase : seat.walk.phase = .calling) (outcome : PageOutcome α) :
    ({ seat with pending := some outcome } : Seat α).Moves (.answered outcome) where
  silent := by rw [asks?, phase]
  walk := by
    rw [move, phase]
    exact take_walk _ _
  free := by
    rw [move, phase]
    rfl
  notes operation := by rw [notes, phase]

end Seat

end DirectoryGateway.Listing

namespace DirectoryGateway.Gateway

open DirectoryGateway.Listing
open DirectoryGateway.Provider
open DirectoryGateway.Telemetry (Ledger Note)

/-! ### Mirrors -/

def answerOf {c : Source} (r : Run Script c.Record) : Response :=
  match r.result? with
  | some result => listingAnswer c.toJson result
  | none => .ofStatus 408

/-- A session in which a run is under way. -/
def Session.during {c : Source} (s : Session Script) (r : Run Script c.Record) : Session Script :=
  { s with store := r.store, now := r.now }.observe r.notes

theorem serveListing_eq {c : Source} (r : Run Script c.Record) (s : Session Script) :
    serveListing c.toJson r s = (answerOf r, s.during r) := by
  unfold serveListing answerOf
  cases r.result? <;> rfl

/-- The session that a run and its request end with; it may have been stopped on the way. -/
def Session.closed {c : Source} (s : Session Script) (q : Request) (r : Run Script c.Record) (draining stopped : Bool) :
    Session Script :=
  { (s.during r).observe
      [.request q.method q.path ((answerOf r).sent q.method).status (1000000 * (r.now - s.now))] with
    draining := draining, stopped := stopped }

variable {g : Config} {s : Session Script} {q : Request} {i : Interrupts} {kind : Kind}

/-- When a listing that is under way has its next turn. -/
def dueOf {α : Type} (r : Run Script α) : Nat :=
  match r.walk.phase with
  | .waiting delay => r.now + delay
  | _ => r.now

/-- A floor on which a listing stands where a run does. -/
inductive Mirrors (s : Session Script) (q : Request) (i : Interrupts) (kind : Kind) :
    Run Script kind.source.Record → Floor → Prop where
  | underWay (r : Run Script kind.source.Record) (seat : Seat kind.source.Record) (awaited : r.dropped = false)
      (live : r.Live) (since : s.now ≤ r.now) (inTime : r.now < s.now + requestLimit)
      (checked : s.stopped = true → r.walk.phase = .checking) (walk : seat.walk = r.walk) (free : seat.pending = none) :
    Mirrors s q i kind r ⟨s.during r, [⟨q, s.now, .listing kind seat (dueOf r)⟩]⟩
  | finished (r : Run Script kind.source.Record) (ended : r.dropped = true ∨ ¬ r.Live) (draining stopped : Bool)
      (flags : draining = s.draining ∧ stopped = s.stopped ∨
        draining = true ∧ stopped = true ∧ ∃ t, i.stopAfter = some t ∧ s.now + t ≤ r.now) :
    Mirrors s q i kind r ⟨s.closed q r draining stopped, [⟨q, s.now, .answered ((answerOf r).sent q.method)⟩]⟩

theorem during_move {c : Source} (s : Session Script) (operation : String) (r : Run Script c.Record) (time : Nat)
    (e : Event c.Record) :
    s.during (r.move operation time e) =
      ({ s.during r with now := time } : Session Script).observe
        ((r.walk.step e).2.filterMap (Act.note? operation)) := by
  unfold Session.during Session.observe
  rw [Run.move_store, Run.move_now, Run.move_notes, Ledger.noteAll_append]

section

variable {t : Task} {seat : Seat kind.source.Record} {due : Nat}

theorem Task.poll_expired (work : t.work = .listing kind seat due) (late : t.arrived + requestLimit ≤ s.now) :
    t.poll s = t.answer (.ofStatus 408) s := by
  rw [poll, work]
  dsimp only
  rw [if_pos late]

theorem Floor.pass_single (later : s.now ≤ due) (idle : t.idleUntil s.stopped due = true) :
    (⟨s, [t]⟩ : Floor).step g (.pass due) = ⟨{ s with now := due }, [t]⟩ := by
  rw [step, if_pos]
  exact ⟨later, by simpa using idle⟩

theorem Floor.step_poll (t : Task) (s : Session Script) :
    (⟨s, [t]⟩ : Floor).step g (.poll 0) = ⟨(t.poll s).2, [(t.poll s).1]⟩ := rfl

theorem Floor.poll_single (work : t.work = .listing kind seat due) (inTime : s.now < t.arrived + requestLimit)
    (running : s.stopped = false) (late : due ≤ s.now) :
    (⟨s, [t]⟩ : Floor).step g (.poll 0) = ⟨(t.proceed kind seat s).2, [(t.proceed kind seat s).1]⟩ := by
  have hpoll : t.poll s = t.proceed kind seat s := by
    rw [Task.poll, work]
    dsimp only
    rw [if_neg (Nat.not_le.mpr inTime), if_neg (by simp [running]), if_pos late]
  rw [step_poll, hpoll]

theorem Floor.poll_moves (work : t.work = .listing kind seat due) (inTime : s.now < t.arrived + requestLimit)
    (running : s.stopped = false) (late : due ≤ s.now) (quiet : seat.asks? = none) :
    (⟨s, [t]⟩ : Floor).step g (.poll 0) =
      ⟨(t.goOn kind seat.move (s.observe (seat.notes kind.source.operation.label))).2,
        [(t.goOn kind seat.move (s.observe (seat.notes kind.source.operation.label))).1]⟩ := by
  rw [poll_single work inTime running late, Task.proceed, quiet]

theorem Floor.poll_calls (work : t.work = .listing kind seat due) (inTime : s.now < t.arrived + requestLimit)
    (running : s.stopped = false) (late : due ≤ s.now) {request : ListingRequest} (asks : seat.asks? = some request) :
    (⟨s, [t]⟩ : Floor).step g (.poll 0) =
      ⟨{ s with store := (Script.pages kind.source request s.store).2 },
        [{ t with
          work := .listing kind { seat with pending := some (Script.pages kind.source request s.store).1.outcome }
            (s.now + (Script.pages kind.source request s.store).1.delay) }]⟩ := by
  rw [poll_single work inTime running late, Task.proceed, asks]

end

/-! ### Ends -/

theorem answerOf_live {r : Run Script kind.source.Record} (live : r.Live) : answerOf r = .ofStatus 408 := by
  have hresult : r.result? = none := by
    unfold Run.result?
    split
    · next result phase => exact absurd phase (live result)
    · rfl
  rw [answerOf, hresult]

theorem mirrors_cancelled {r : Run Script kind.source.Record} (live : r.Live) {seat : Seat kind.source.Record}
    (walk : seat.walk = r.walk) (due : Nat) {time : Nat} (inTime : time < s.now + requestLimit) (operation : String)
    (draining : Bool)
    (flags : draining = s.draining ∧ true = s.stopped ∨
      draining = true ∧ true = true ∧ ∃ t, i.stopAfter = some t ∧ s.now + t ≤ time) :
    Mirrors s q i kind (r.move operation time .cancelled)
      ((⟨{ s.during r with now := time, draining := draining, stopped := true },
        [⟨q, s.now, .listing kind seat due⟩]⟩ : Floor).step g (.poll 0)) := by
  have hlive : Task.Live seat := by
    intro result ended
    rw [walk] at ended
    exact live result ended
  have hpoll := Task.poll_stopped (t := ⟨q, s.now, .listing kind seat due⟩)
    (s := { s.during r with now := time, draining := draining, stopped := true }) rfl hlive inTime rfl
  have hended : ¬ (r.move operation time .cancelled).Live := by
    intro hlive'
    rw [Run.move_cancelled operation r time live] at hlive'
    exact hlive' _ rfl
  have hfinished : Mirrors s q i kind (r.move operation time .cancelled) _ :=
    .finished _ (Or.inr hended) draining true (by rw [Run.move_now]; exact flags)
  have hstep : (⟨{ s.during r with now := time, draining := draining, stopped := true },
      [⟨q, s.now, .listing kind seat due⟩]⟩ : Floor).step g (.poll 0) =
      ⟨s.closed q (r.move operation time .cancelled) draining true,
        [⟨q, s.now, .answered ((answerOf (r.move operation time .cancelled)).sent q.method)⟩]⟩ := by
    rw [Run.move_cancelled operation r time live, Floor.step_poll, hpoll]
    rfl
  rw [hstep]
  exact hfinished

theorem mirrors_dropped {r : Run Script kind.source.Record} (live : r.Live) (seat : Seat kind.source.Record)
    (due : Nat) {time : Nat} (late : s.now + requestLimit ≤ time) :
    Mirrors s q i kind { r with now := time, dropped := true }
      ((⟨{ s.during r with now := time }, [⟨q, s.now, .listing kind seat due⟩]⟩ : Floor).step g (.poll 0)) := by
  have hpoll := Task.poll_expired (t := ⟨q, s.now, .listing kind seat due⟩)
    (s := { s.during r with now := time }) rfl late
  have hstep : (⟨{ s.during r with now := time }, [⟨q, s.now, .listing kind seat due⟩]⟩ : Floor).step g (.poll 0) =
      ⟨s.closed q { r with now := time, dropped := true } s.draining s.stopped,
        [⟨q, s.now, .answered (.ofStatus 408)⟩]⟩ := by
    have hlive : ({ r with now := time, dropped := true } : Run Script kind.source.Record).Live := live
    rw [Floor.step_poll, hpoll, Session.closed, answerOf_live hlive, ofStatus_sent]
    rfl
  have hfinished : Mirrors s q i kind { r with now := time, dropped := true } _ :=
    .finished _ (Or.inl rfl) s.draining s.stopped (Or.inl ⟨rfl, rfl⟩)
  have hlive : ({ r with now := time, dropped := true } : Run Script kind.source.Record).Live := live
  rw [answerOf_live hlive, ofStatus_sent] at hfinished
  rw [hstep]
  exact hfinished

theorem mirrors_moved {r : Run Script kind.source.Record} {seat : Seat kind.source.Record} {time : Nat}
    {e : Event kind.source.Record} {operation : String} (work : Work) (awaited : r.dropped = false)
    (since : s.now ≤ time) (inTime : time < s.now + requestLimit) (running : s.stopped = false)
    (walk : seat.walk = (r.walk.step e).1) (free : seat.pending = none) :
    Mirrors s q i kind (r.move operation time e)
      ⟨(Task.goOn ⟨q, s.now, work⟩ kind seat (s.during (r.move operation time e))).2,
        [(Task.goOn ⟨q, s.now, work⟩ kind seat (s.during (r.move operation time e))).1]⟩ := by
  rw [← Run.move_dropped operation r time e] at awaited
  rw [← Run.move_now operation r time e] at since inTime
  rw [← Run.move_walk operation r time e] at walk
  generalize r.move operation time e = r at awaited since inTime walk ⊢
  have checked : s.stopped = true → r.walk.phase = .checking := by
    intro stopped
    rw [running] at stopped
    cases stopped
  have under (live : r.Live) := Mirrors.underWay (q := q) (i := i) r seat awaited live since inTime checked walk free
  unfold Task.goOn
  cases phase : seat.walk.phase with
  | ended result =>
    rw [walk] at phase
    have hended : ¬ r.Live := fun live => live result phase
    have hanswer : answerOf r = listingAnswer kind.source.toJson result := by
      rw [answerOf, Run.result?, phase]
    have hfinished : Mirrors s q i kind r _ := .finished r (Or.inr hended) s.draining s.stopped (Or.inl ⟨rfl, rfl⟩)
    rw [Session.closed, hanswer] at hfinished
    exact hfinished
  | waiting delay =>
    rw [walk] at phase
    have hunder := under (Run.live_of_phase phase (by simp))
    rw [dueOf, phase] at hunder
    exact hunder
  | checking =>
    rw [walk] at phase
    have hunder := under (Run.live_of_phase phase (by simp))
    rw [dueOf, phase] at hunder
    exact hunder
  | calling =>
    rw [walk] at phase
    have hunder := under (Run.live_of_phase phase (by simp))
    rw [dueOf, phase] at hunder
    exact hunder

/-! ### Turns -/

theorem mirrors_polled {r : Run Script kind.source.Record} {seat : Seat kind.source.Record}
    {e : Event kind.source.Record} (moves : seat.Moves e) (awaited : r.dropped = false) (walk : seat.walk = r.walk)
    {time : Nat} (since : s.now ≤ time) (inTime : time < s.now + requestLimit) (running : s.stopped = false)
    {due : Nat} (late : due ≤ time) :
    Mirrors s q i kind (r.move kind.source.operation.label time e)
      ((⟨{ s.during r with now := time }, [⟨q, s.now, .listing kind seat due⟩]⟩ : Floor).step g (.poll 0)) := by
  have hheard := during_move s kind.source.operation.label r time e
  rw [← walk, ← moves.notes] at hheard
  rw [Floor.poll_moves (s := { s.during r with now := time }) (t := ⟨q, s.now, .listing kind seat due⟩) rfl inTime
    running late moves.silent, ← hheard]
  exact mirrors_moved _ awaited since inTime running (by rw [moves.walk, walk]) moves.free

/-- A span up to a turn in which the listing takes in an event, unless it is cancelled or its time is up before. -/
theorem mirrors_arrive {r : Run Script kind.source.Record} {seat : Seat kind.source.Record}
    {e : Event kind.source.Record} (moves : seat.Moves e) (live : r.Live) (awaited : r.dropped = false)
    (walk : seat.walk = r.walk) (since : s.now ≤ r.now) (inTime : r.now < s.now + requestLimit)
    (running : s.stopped = false) {due : Nat} (ahead : r.now ≤ due) :
    ∃ hs, Mirrors s q i kind
      (r.arrive kind.source.operation.label r due e ((listingPace s i).arrival r.now due))
      ((⟨s.during r, [⟨q, s.now, .listing kind seat due⟩]⟩ : Floor).run g hs) := by
  have deadline : (listingPace s i).deadline = some (s.now + requestLimit) := rfl
  have cancelAt : (listingPace s i).cancelAt = i.stopAfter.map (s.now + ·) := by
    rw [listingPace, running]
    rfl
  -- Until its time is up the listing has nothing to do before it is due.
  have passes : ∀ time, r.now ≤ time → time ≤ due → time ≤ s.now + requestLimit →
      (⟨s.during r, [⟨q, s.now, .listing kind seat due⟩]⟩ : Floor).step g (.pass time) =
        ⟨{ s.during r with now := time }, [⟨q, s.now, .listing kind seat due⟩]⟩ := by
    intro time later early inTime
    refine Floor.pass_single later ?_
    have hstopped : (s.during r).stopped = false := running
    simp [Task.idleUntil, hstopped, early, inTime]
  have harrived := arrival_cases (listingPace s i) r.now due
  generalize (listingPace s i).arrival r.now due = arrival at harrived
  cases harrived with
  | due uncancelled inTime =>
    have hin := inTime _ deadline
    refine ⟨[.pass due, .poll 0], ?_⟩
    rw [Floor.run_cons, passes due ahead (Nat.le_refl _) (Nat.le_of_lt hin)]
    exact mirrors_polled (g := g) moves awaited walk (Nat.le_trans since ahead) hin running (Nat.le_refl _)
  | cancelled c at_ by_ inTime' =>
    have hin := inTime' _ deadline
    rw [cancelAt, Option.map_eq_some_iff] at at_
    obtain ⟨t, stop, rfl⟩ := at_
    refine ⟨[.pass (max r.now (s.now + t)), .finish, .poll 0], ?_⟩
    rw [Floor.run_cons, passes _ (Nat.le_max_left _ _) (Nat.max_le.mpr ⟨ahead, by_⟩) (Nat.le_of_lt hin)]
    exact mirrors_cancelled (g := g) live walk due hin _ true (Or.inr ⟨rfl, rfl, t, stop, Nat.le_max_right _ _⟩)
  | dropped d at_ by_ =>
    have hd : s.now + requestLimit = d := Option.some.inj (deadline.symm.trans at_)
    refine ⟨[.pass d, .poll 0], ?_⟩
    rw [Floor.run_cons, passes d (by omega) (by_ ahead) (Nat.le_of_eq hd.symm)]
    exact mirrors_dropped (g := g) live seat due (Nat.le_of_eq hd)

theorem mirrors_checking {r : Run Script kind.source.Record} {seat : Seat kind.source.Record}
    (phase : r.walk.phase = .checking) (awaited : r.dropped = false) (since : s.now ≤ r.now)
    (inTime : r.now < s.now + requestLimit) (walk : seat.walk = r.walk) (free : seat.pending = none) :
    ∃ hs, Mirrors s q i kind
      (r.turn (Script.pages kind.source) (listingPace s i) kind.source.operation.label)
      ((⟨s.during r, [⟨q, s.now, .listing kind seat r.now⟩]⟩ : Floor).run g hs) := by
  have live : r.Live := Run.live_of_phase phase (by simp)
  rw [Run.turn_checking awaited phase]
  -- A session that was stopped before it served the request cancels the listing at its first look.
  rcases cancelBy_cases (listingPace s i) r.now with hnone | ⟨c, hsome, hat, hby⟩
  · have running : s.stopped = false := by
      cases stopped : s.stopped with
      | false => rfl
      | true =>
        have hat : (listingPace s i).cancelAt = some s.now := by simp [listingPace, stopped]
        rw [Run.cancelBy_eq_some hat since] at hnone
        cases hnone
    rw [hnone]
    exact ⟨[.poll 0], mirrors_polled (g := g) (Seat.moves_clear (walk ▸ phase) free) awaited walk since inTime running
      (Nat.le_refl _)⟩
  · rw [hsome]
    cases stopped : s.stopped with
    | true =>
      have hsame : s.during r = { s.during r with now := r.now, draining := s.draining, stopped := true } := by
        rw [← stopped]
        rfl
      refine ⟨[.poll 0], ?_⟩
      rw [hsame]
      exact mirrors_cancelled (g := g) live walk r.now inTime _ s.draining (Or.inl ⟨rfl, stopped.symm⟩)
    | false =>
      have cancelAt : (listingPace s i).cancelAt = i.stopAfter.map (s.now + ·) := by
        rw [listingPace, stopped]
        rfl
      rw [cancelAt, Option.map_eq_some_iff] at hat
      obtain ⟨t, stop, rfl⟩ := hat
      refine ⟨[.finish, .poll 0], ?_⟩
      exact mirrors_cancelled (g := g) live walk r.now inTime _ true (Or.inr ⟨rfl, rfl, t, stop, hby⟩)

theorem mirrors_calling {r : Run Script kind.source.Record} {seat : Seat kind.source.Record}
    (phase : r.walk.phase = .calling) (awaited : r.dropped = false) (since : s.now ≤ r.now)
    (inTime : r.now < s.now + requestLimit) (running : s.stopped = false) (walk : seat.walk = r.walk)
    (free : seat.pending = none) :
    ∃ hs, Mirrors s q i kind
      (r.turn (Script.pages kind.source) (listingPace s i) kind.source.operation.label)
      ((⟨s.during r, [⟨q, s.now, .listing kind seat r.now⟩]⟩ : Floor).run g hs) := by
  have hseat : seat.walk.phase = .calling := walk ▸ phase
  have hasks : seat.asks? = some r.walk.traversal.request := by rw [Seat.asks?, hseat, free, walk]
  have hpoll := Floor.poll_calls (g := g) (s := s.during r) (t := ⟨q, s.now, .listing kind seat r.now⟩) rfl inTime
    running (Nat.le_refl _) hasks
  have hquiet := pages_quiet kind.source r.walk.traversal.request r.store
  have hunnoted := pages_unnoted kind.source r.walk.traversal.request r.store
  -- The call is made: the run and the floor go on from the provider after it.
  obtain ⟨hs, hmirrors⟩ := mirrors_arrive (g := g) (q := q) (i := i) (r := r.called (Script.pages kind.source))
    (Seat.moves_answered hseat (Script.pages kind.source r.walk.traversal.request r.store).1.outcome)
    (Run.live_of_phase phase (by simp)) awaited walk since inTime running
    (Nat.le_add_right r.now (Script.pages kind.source r.walk.traversal.request r.store).1.delay)
  refine ⟨.poll 0 :: hs, ?_⟩
  rw [Run.turn_calling_arrive awaited phase]
  dsimp only
  rw [hquiet, if_neg Bool.false_ne_true, hunnoted, List.append_nil, Floor.run_cons, hpoll]
  exact hmirrors

theorem mirrors_waiting {r : Run Script kind.source.Record} {seat : Seat kind.source.Record} {delay : Nat}
    (phase : r.walk.phase = .waiting delay) (awaited : r.dropped = false) (since : s.now ≤ r.now)
    (inTime : r.now < s.now + requestLimit) (running : s.stopped = false) (walk : seat.walk = r.walk)
    (free : seat.pending = none) :
    ∃ hs, Mirrors s q i kind
      (r.turn (Script.pages kind.source) (listingPace s i) kind.source.operation.label)
      ((⟨s.during r, [⟨q, s.now, .listing kind seat (r.now + delay)⟩]⟩ : Floor).run g hs) := by
  have hrest : (listingPace s i).rest delay = delay := rfl
  rw [Run.turn_waiting_arrive awaited phase, hrest]
  exact mirrors_arrive (Seat.moves_waited (walk ▸ phase) free) (Run.live_of_phase phase (by simp)) awaited walk since
    inTime running (Nat.le_add_right r.now delay)

/-- A turn of the run is a number of happenings of the floor. -/
theorem mirrors_turn {r : Run Script kind.source.Record} {f : Floor} (h : Mirrors s q i kind r f) :
    ∃ hs, Mirrors s q i kind
      (r.turn (Script.pages kind.source) (listingPace s i) kind.source.operation.label) (f.run g hs) := by
  cases h with
  | finished ended draining stopped flags =>
    have hsame : r.turn (Script.pages kind.source) (listingPace s i) kind.source.operation.label = r := by
      rcases ended with hdropped | hended
      · exact Run.turn_dropped hdropped
      · simp only [Run.Live, not_forall, not_not] at hended
        obtain ⟨result, phase⟩ := hended
        exact Run.turn_ended phase
    rw [hsame]
    exact ⟨[], .finished r ended draining stopped flags⟩
  | underWay seat awaited live since inTime checked walk free =>
    have running : r.walk.phase ≠ .checking → s.stopped = false := by
      intro begun
      cases stopped : s.stopped with
      | false => rfl
      | true => exact absurd (checked stopped) begun
    cases phase : r.walk.phase with
    | checking =>
      rw [dueOf, phase]
      exact mirrors_checking phase awaited since inTime walk free
    | calling =>
      rw [dueOf, phase]
      exact mirrors_calling phase awaited since inTime (running (by simp [phase])) walk free
    | waiting delay =>
      rw [dueOf, phase]
      exact mirrors_waiting phase awaited since inTime (running (by simp [phase])) walk free
    | ended result => exact absurd phase (live result)

theorem mirrors_turns (n : Nat) {r : Run Script kind.source.Record} {f : Floor} (h : Mirrors s q i kind r f) :
    ∃ hs, Mirrors s q i kind
      (r.turns (Script.pages kind.source) (listingPace s i) kind.source.operation.label n) (f.run g hs) := by
  induction n generalizing r f with
  | zero => exact ⟨[], h⟩
  | succ n ih =>
    obtain ⟨first, hfirst⟩ := mirrors_turn (g := g) h
    obtain ⟨rest, hrest⟩ := ih hfirst
    refine ⟨first ++ rest, ?_⟩
    rw [Floor.run_append]
    exact hrest

/-! ### One request -/

/-- Interrupts in the order in which a session ends: it drains before it is stopped. -/
def Interrupts.Ordered (i : Interrupts) : Prop :=
  ∀ t, i.stopAfter = some t → ∃ t', i.drainAfter = some t' ∧ t' ≤ t

def passed (after : Option Nat) (started now : Nat) : Bool :=
  (after.map fun t => decide (started + t ≤ now)).getD false

/-- What has happened to a session when a request is answered. -/
def Interrupts.happened (i : Interrupts) (started now : Nat) : List Happening :=
  (if passed i.drainAfter started now then [.drain] else []) ++
    if passed i.stopAfter started now then [.finish] else []

theorem passed_of_ordered (ordered : i.Ordered) {started now : Nat} (stop : passed i.stopAfter started now = true) :
    passed i.drainAfter started now = true := by
  unfold passed at stop ⊢
  cases hstop : i.stopAfter with
  | none =>
    rw [hstop] at stop
    cases stop
  | some t =>
    obtain ⟨t', hdrain, hle⟩ := ordered t hstop
    rw [hstop] at stop
    have hpassed : started + t ≤ now := of_decide_eq_true stop
    rw [hdrain]
    exact decide_eq_true (by omega)

theorem interrupted_eq (s : Session Script) (started : Nat) :
    s.interrupted i started =
      { s with
        draining := s.draining || passed i.drainAfter started s.now
        stopped := s.stopped || passed i.stopAfter started s.now } := rfl

theorem happened_run (ordered : i.Ordered) (s : Session Script) (tasks : List Task) (started : Nat)
    (draining stopped : Bool)
    (flags : draining = s.draining ∧ stopped = s.stopped ∨
      draining = true ∧ stopped = true ∧ ∃ t, i.stopAfter = some t ∧ started + t ≤ s.now) :
    (⟨{ s with draining := draining, stopped := stopped }, tasks⟩ : Floor).run g (i.happened started s.now) =
      ⟨s.interrupted i started, tasks⟩ := by
  have hflags : (draining || passed i.drainAfter started s.now) = (s.draining || passed i.drainAfter started s.now) ∧
      (stopped || passed i.stopAfter started s.now) = (s.stopped || passed i.stopAfter started s.now) := by
    rcases flags with ⟨hdraining, hstopped⟩ | ⟨hdraining, hstopped, t, hstop, hpassed⟩
    · rw [hdraining, hstopped]
      exact ⟨rfl, rfl⟩
    -- The flags are up already, and the interrupts that raised them are among those that have come.
    · have hstop : passed i.stopAfter started s.now = true := by
        rw [passed, hstop]
        exact decide_eq_true hpassed
      rw [hstop, passed_of_ordered ordered hstop]
      simp
  rw [interrupted_eq, ← hflags.1, ← hflags.2, Interrupts.happened]
  cases hdrain : passed i.drainAfter started s.now with
  | true =>
    cases hstop : passed i.stopAfter started s.now with
    | true =>
      rw [Bool.or_true, Bool.or_true]
      rfl
    | false =>
      rw [Bool.or_true, Bool.or_false]
      rfl
  | false =>
    cases hstop : passed i.stopAfter started s.now with
    | true =>
      rw [passed_of_ordered ordered hstop] at hdrain
      cases hdrain
    | false =>
      rw [Bool.or_false, Bool.or_false]
      rfl

theorem listing_is_a_run (ordered : i.Ordered) (asks : Asks g s q kind) :
    ∃ hs, (⟨s, []⟩ : Floor).run g hs =
      ⟨(serve g Script.service q i s).2, [⟨q, s.now, .answered (serve g Script.service q i s).1⟩]⟩ := by
  obtain ⟨r, hr⟩ : ∃ r, g.listing Script.service s kind (listingPace s i) = r := ⟨_, rfl⟩
  have hrespond := respond_listing Script.service i asks
  rw [hr, serveListing_eq] at hrespond
  have begun := Floor.step_listed (f := ⟨s, []⟩) asks
  have hstart : Mirrors s q i kind (.start (kind.request g.pool.id) g.pool.backoff s.store s.now)
      ((⟨s, []⟩ : Floor).step g (.arrive q)) := by
    rw [begun]
    refine .underWay (.start (kind.request g.pool.id) g.pool.backoff s.store s.now) _ rfl ?_ (Nat.le_refl _) ?_
      (fun _ => rfl) rfl rfl
    · intro result ended
      cases ended
    · exact Nat.lt_add_of_pos_right (by decide)
  obtain ⟨hs, hmirrors⟩ := mirrors_turns (g := g) (g.pool.allowance s.store) hstart
  have hturns : (Run.start (kind.request g.pool.id) g.pool.backoff s.store s.now).turns (Script.pages kind.source)
      (listingPace s i) kind.source.operation.label (g.pool.allowance s.store) = r := hr
  rw [hturns] at hmirrors
  -- The allowance is enough for the listing to end, so at its last turn the floor has answered.
  have hended : r.dropped = false → ¬ r.Live := by
    intro awaited live
    obtain ⟨result, hresult⟩ := result_of_awaited (g.pool.setup kind (listingPace s i) s.store s.now)
      (dequeues_pages kind.source) (queue_le_pagesLeft kind.source s.store) (by
        show (g.listing Script.service s kind (listingPace s i)).dropped = false
        rw [hr]
        exact awaited)
    have hresult : (g.listing Script.service s kind (listingPace s i)).result? = some result := hresult
    rw [hr] at hresult
    exact live result (Run.ended_of_result hresult)
  generalize hf : ((⟨s, []⟩ : Floor).step g (.arrive q)).run g hs = f at hmirrors
  cases hmirrors with
  | underWay seat awaited live since inTime checked walk free => exact absurd live (hended awaited)
  | finished ended draining stopped flags =>
    refine ⟨.arrive q :: (hs ++ i.happened s.now r.now), ?_⟩
    have hlast := happened_run (g := g) ordered
      ((s.during r).observe [.request q.method q.path ((answerOf r).sent q.method).status (1000000 * (r.now - s.now))])
      [⟨q, s.now, .answered ((answerOf r).sent q.method)⟩] s.now draining stopped flags
    rw [Floor.run_cons, Floor.run_append, hf, Session.closed]
    refine hlast.trans ?_
    simp only [serve, hrespond]
    rfl

theorem direct_is_a_run (ordered : i.Ordered) (unlisted : g.listingOf? s.now q = none) :
    ∃ hs, (⟨s, []⟩ : Floor).run g hs =
      ⟨(serve g Script.service q i s).2, [⟨q, s.now, .answered (serve g Script.service q i s).1⟩]⟩ := by
  have direct := respond_direct unlisted
  have hsame : respond g Script.service q .none s = respond g Script.service q i s :=
    direct.uninterrupted rfl .none i
  obtain ⟨hdraining, hstopped, hnow, -, -⟩ := direct.kept (s := s) rfl i
  obtain ⟨r, after, hrespond⟩ : ∃ r after, respond g Script.service q i s = (r, after) := ⟨_, _, rfl⟩
  rw [hrespond] at hdraining hstopped hnow hsame
  refine ⟨.arrive q :: .pass after.now :: .poll 0 :: i.happened s.now after.now, ?_⟩
  have harrive : (⟨s, []⟩ : Floor).step g (.arrive q) =
      ⟨{ after with now := s.now }, [⟨q, s.now, .sending r after.now⟩]⟩ := by
    rw [Floor.step, Floor.arrive, unlisted, hsame]
    rfl
  have hpass : (⟨{ after with now := s.now }, [⟨q, s.now, .sending r after.now⟩]⟩ : Floor).step g (.pass after.now) =
      ⟨after, [⟨q, s.now, .sending r after.now⟩]⟩ := by
    refine Floor.pass_single hnow ?_
    exact decide_eq_true (Nat.le_refl _)
  have hpoll : (⟨after, [⟨q, s.now, .sending r after.now⟩]⟩ : Floor).step g (.poll 0) =
      ⟨after.observe [.request q.method q.path r.status (1000000 * (after.now - s.now))],
        [⟨q, s.now, .answered r⟩]⟩ := by
    have hturn := Task.poll_sending (t := ⟨q, s.now, .sending r after.now⟩) (s := after) rfl
    rw [if_pos (Nat.le_refl _)] at hturn
    rw [Floor.step_poll, hturn]
    rfl
  have hlast := happened_run (g := g) ordered
    (after.observe [.request q.method q.path r.status (1000000 * (after.now - s.now))])
    [⟨q, s.now, .answered r⟩] s.now _ _ (Or.inl ⟨rfl, rfl⟩)
  rw [Floor.run_cons, harrive, Floor.run_cons, hpass, Floor.run_cons, hpoll]
  refine Eq.trans hlast ?_
  simp only [serve, hrespond]

/-- A request that is served alone, interrupted or not, is served in a run of the floor. -/
theorem serve_is_a_run (g : Config) (s : Session Script) (q : Request) (i : Interrupts) (ordered : i.Ordered) :
    ∃ hs, (⟨s, []⟩ : Floor).run g hs =
      ⟨(serve g Script.service q i s).2, [⟨q, s.now, .answered (serve g Script.service q i s).1⟩]⟩ := by
  cases asked : g.listingOf? s.now q with
  | some kind => exact listing_is_a_run ordered (listingOf_eq_some_iff.mp asked)
  | none => exact direct_is_a_run ordered asked

end DirectoryGateway.Gateway
