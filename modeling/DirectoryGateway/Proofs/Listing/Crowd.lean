import DirectoryGateway.Listing.Crowd
import DirectoryGateway.Proofs.Listing.Kinds
import DirectoryGateway.Proofs.Listing.Throttling

/-!
# Listings do not disturb each other

Whatever the order in which the listings of a crowd move, each of them stands where the outcomes of its own calls have brought
it, with a schedule of its own; what the others share with it is the queue of its collection, from which every call takes the
next entry. A listing that is alone with its queue therefore ends as it would without the others.
-/

namespace DirectoryGateway.Listing

open DirectoryGateway.Provider

/-! ### One listing -/

namespace Seat

variable {α : Type}

theorem foldl_perform (acts : List Act) (s : Seat α) :
    (acts.foldl perform s).walk = s.walk ∧ (acts.foldl perform s).heard = s.heard ∧
      (acts.foldl perform s).pending = s.pending ∧
      (acts.foldl perform s).waits = s.waits ++ acts.filterMap Act.delay? := by
  induction acts generalizing s with
  | nil => simp
  | cons act acts ih =>
    rw [List.foldl_cons, List.filterMap_cons]
    cases act with
    | wait delay =>
      obtain ⟨hwalk, hheard, hpending, hwaits⟩ := ih { s with waits := s.waits ++ [delay] }
      refine ⟨hwalk, hheard, hpending, hwaits.trans ?_⟩
      simp [Act.delay?]
    | _ => exact ih s

@[simp] theorem take_walk (e : Event α) (s : Seat α) : (s.take e).walk = (s.walk.step e).1 :=
  (foldl_perform _ _).1

@[simp] theorem take_heard (e : Event α) (s : Seat α) : (s.take e).heard = s.heard :=
  (foldl_perform _ _).2.1

@[simp] theorem take_pending (e : Event α) (s : Seat α) : (s.take e).pending = s.pending :=
  (foldl_perform _ _).2.2.1

theorem take_waits (e : Event α) (s : Seat α) :
    (s.take e).waits = s.waits ++ (s.walk.step e).2.filterMap Act.delay? :=
  (foldl_perform _ _).2.2.2

/-- The moves made are no more than the outcomes taken in and the phase account for: of each call there is a look, the call
itself, its outcome and a wait. -/
def Accounts (turns : Nat) (s : Seat α) : Prop :=
  match s.walk.phase, s.pending with
  | .checking, _ => turns ≤ 4 * s.heard.length
  | .calling, none => turns ≤ 4 * s.heard.length + 1
  | .calling, some _ => turns ≤ 4 * s.heard.length + 2
  | .waiting _, _ => turns + 1 ≤ 4 * s.heard.length
  | .ended _, _ => True

/-- Where a listing stands after the outcomes that it has taken in. -/
inductive Standing (t : Traversal α) (disturbed : Prop) :
    Phase α → Option (PageOutcome α) → List (PageOutcome α) → Prop where
  | checking {heard : List (PageOutcome α)} (onward : t.Onward heard) :
    Standing t disturbed .checking none heard
  | calling {heard : List (PageOutcome α)} (onward : t.Onward heard) (pending : Option (PageOutcome α)) :
    Standing t disturbed .calling pending heard
  | waiting {heard : List (PageOutcome α)} (onward : t.Onward heard) (delay : Nat) :
    Standing t disturbed (.waiting delay) none heard
  | finished {before : List (PageOutcome α)} (onward : t.Onward before) (stop : PageOutcome α)
      (result : Result α) (ends : (t.after before).ends stop = some result) :
    Standing t disturbed (.ended result) none (before ++ [stop])
  | cancelled {heard : List (PageOutcome α)} (pending : Option (PageOutcome α)) (disturbance : disturbed) :
    Standing t disturbed (.ended (.error ((t.after heard).incomplete .cancelled))) pending heard

/-- A seat after a number of moves of its own. -/
structure Seated (t : Traversal α) (disturbed : Prop) (turns : Nat) (s : Seat α) : Prop where
  traversal : s.walk.traversal = t.after s.heard
  waits : s.waits = t.schedule.take (throttles s.heard)
  standing : Standing t disturbed s.walk.phase s.pending s.heard
  accounts : s.Accounts turns

variable {t : Traversal α} {disturbed : Prop} {turns : Nat} {s : Seat α}

theorem seated_start (request : ListingRequest) (schedule : Backoff) (disturbed : Prop) :
    Seated (.start request schedule) disturbed 0 (start (α := α) request schedule) where
  traversal := rfl
  waits := rfl
  standing := .checking (Traversal.onward_nil _)
  accounts := Nat.le_refl 0

theorem Standing.mono {disturbed' : Prop} (h : disturbed → disturbed') {phase : Phase α}
    {pending : Option (PageOutcome α)} {heard : List (PageOutcome α)}
    (standing : Standing t disturbed phase pending heard) : Standing t disturbed' phase pending heard := by
  cases standing with
  | checking onward => exact .checking onward
  | calling onward pending => exact .calling onward pending
  | waiting onward delay => exact .waiting onward delay
  | finished onward stop result ends => exact .finished onward stop result ends
  | cancelled pending disturbance => exact .cancelled pending (h disturbance)

theorem Seated.mono {disturbed' : Prop} (h : disturbed → disturbed') (seated : Seated t disturbed turns s) :
    Seated t disturbed' turns s :=
  ⟨seated.traversal, seated.waits, seated.standing.mono h, seated.accounts⟩

theorem asks_eq_some {request : ListingRequest} (h : s.asks? = some request) :
    s.walk.phase = .calling ∧ s.pending = none ∧ s.walk.traversal.request = request := by
  unfold asks? at h
  split at h
  · next hphase hpending => exact ⟨hphase, hpending, Option.some.inj h⟩
  · cases h

theorem Standing.onward_of_live {phase : Phase α} {pending : Option (PageOutcome α)}
    {heard : List (PageOutcome α)} (h : Standing t disturbed phase pending heard)
    (live : ∀ result, phase ≠ .ended result) : t.Onward heard := by
  cases h with
  | checking onward => exact onward
  | calling onward pending => exact onward
  | waiting onward delay => exact onward
  | finished onward stop result ends => exact absurd rfl (live result)
  | cancelled pending disturbance => exact absurd rfl (live _)

/-! ### Moves -/

theorem Seated.called (h : Seated t disturbed turns s) {request : ListingRequest}
    (asks : s.asks? = some request) (o : PageOutcome α) :
    Seated t disturbed (turns + 1) { s with pending := some o } := by
  obtain ⟨hphase, hpending, -⟩ := asks_eq_some asks
  have hstanding := h.standing
  have haccounts := h.accounts
  rw [Accounts, hphase, hpending] at haccounts
  refine ⟨h.traversal, h.waits, ?_, ?_⟩
  · rw [hphase] at hstanding
    show Standing t disturbed s.walk.phase (some o) s.heard
    rw [hphase]
    exact .calling (hstanding.onward_of_live (by simp)) (some o)
  · simp only [Accounts, hphase]
    dsimp only at haccounts
    omega

theorem Seated.cleared (h : Seated t disturbed turns s) (phase : s.walk.phase = .checking) :
    Seated t disturbed (turns + 1) (s.take .clear) := by
  have hstep := s.walk.step_clear phase
  have hstanding := h.standing
  have haccounts := h.accounts
  rw [Accounts, phase] at haccounts
  rw [phase] at hstanding
  have hpending : s.pending = none := by
    generalize s.pending = pending at hstanding ⊢
    cases hstanding with
    | checking onward => rfl
  refine ⟨?_, ?_, ?_, ?_⟩
  · rw [take_walk, hstep, take_heard]
    exact h.traversal
  · rw [take_waits, hstep, take_heard, h.waits]
    exact List.append_nil _
  · rw [take_walk, hstep, take_pending, take_heard]
    exact .calling (hstanding.onward_of_live (by simp)) _
  · simp only [Accounts, take_walk, hstep, take_pending, hpending, take_heard]
    dsimp only at haccounts
    omega

theorem Seated.answered (h : Seated t disturbed turns s) (phase : s.walk.phase = .calling)
    {o : PageOutcome α} (pending : s.pending = some o) :
    Seated t disturbed (turns + 1) (s.hear o) := by
  have hstep := s.walk.step_answered o phase
  have hstanding := h.standing
  have haccounts := h.accounts
  rw [Accounts, phase, pending] at haccounts
  rw [phase] at hstanding
  have hon := hstanding.onward_of_live (by simp)
  have hwalk : (s.hear o).walk = (s.walk.answer o).1 := by
    rw [hear, take_walk, hstep]
  have hheard : (s.hear o).heard = s.heard ++ [o] := rfl
  have hpending : (s.hear o).pending = none := rfl
  have hschedule : s.walk.traversal.schedule = t.schedule.drop (throttles s.heard) := by
    rw [h.traversal, Traversal.after_schedule]
  refine ⟨?_, ?_, ?_, ?_⟩
  · rw [hwalk, Walk.answer_traversal, h.traversal, hheard, Traversal.after_concat]
  · rw [hheard, throttles_append, List.take_add, ← h.waits, ← hschedule, ← Walk.answer_delays, ← hstep]
    exact take_waits _ _
  · rw [hwalk, hpending, hheard]
    rcases s.walk.answer_phase o with ⟨result, hends, hphase⟩ | ⟨hends, hphase⟩
    · rw [h.traversal] at hends
      rw [hphase]
      exact .finished hon o result hends
    · rw [h.traversal] at hends
      have hon' : t.Onward (s.heard ++ [o]) := (t.onward_concat s.heard o).mpr ⟨hon, hends⟩
      rcases hphase with hphase | ⟨delay, hphase⟩
      · rw [hphase]
        exact .checking hon'
      · rw [hphase]
        exact .waiting hon' delay
  · dsimp only at haccounts
    rw [Accounts, hwalk, hpending, hheard, List.length_append, List.length_singleton]
    rcases s.walk.answer_phase o with ⟨result, -, hphase⟩ | ⟨-, hphase | ⟨delay, hphase⟩⟩
    · rw [hphase]
      trivial
    · rw [hphase]
      dsimp only
      omega
    · rw [hphase]
      dsimp only
      omega

theorem Seated.waited (h : Seated t disturbed turns s) {delay : Nat} (phase : s.walk.phase = .waiting delay) :
    Seated t disturbed (turns + 1) (s.take .waited) := by
  have hstep := s.walk.step_waited delay phase
  have hstanding := h.standing
  have haccounts := h.accounts
  rw [Accounts, phase] at haccounts
  rw [phase] at hstanding
  have hpending : s.pending = none := by
    generalize s.pending = pending at hstanding ⊢
    cases hstanding with
    | waiting onward delay => rfl
  refine ⟨?_, ?_, ?_, ?_⟩
  · rw [take_walk, hstep, take_heard]
    exact h.traversal
  · rw [take_waits, hstep, take_heard, h.waits]
    exact List.append_nil _
  · rw [take_walk, hstep, take_pending, take_heard, hpending]
    exact .checking (hstanding.onward_of_live (by simp))
  · simp only [Accounts, take_walk, hstep, take_heard]
    exact haccounts

theorem Seated.moved (h : Seated t disturbed turns s) (quiet : s.asks? = none) :
    Seated t disturbed (turns + 1) s.move := by
  have haccounts := h.accounts
  unfold move
  split
  · next phase => exact h.cleared phase
  · next outcome phase pending => exact h.answered phase pending
  · next phase pending =>
    rw [asks?, phase, pending] at quiet
    cases quiet
  · next delay phase => exact h.waited phase
  · next result phase =>
    refine ⟨h.traversal, h.waits, h.standing, ?_⟩
    rw [Accounts, phase]
    trivial

theorem Seated.cancelled (h : Seated t disturbed turns s) (disturbance : disturbed) :
    Seated t disturbed turns (s.take .cancelled) := by
  by_cases live : ∀ result, s.walk.phase ≠ .ended result
  · have hstep := s.walk.step_cancelled live
    refine ⟨?_, ?_, ?_, ?_⟩
    · rw [take_walk, hstep, take_heard]
      exact h.traversal
    · rw [take_waits, hstep, take_heard, h.waits]
      exact List.append_nil _
    · rw [take_walk, hstep, take_pending, take_heard, Walk.stop, h.traversal]
      exact .cancelled _ disturbance
    · rw [Accounts, take_walk, hstep]
      trivial
  · simp only [not_forall, not_not] at live
    obtain ⟨result, phase⟩ := live
    have hstep : s.walk.step .cancelled = (s.walk, []) := by
      simp only [Walk.step, phase]
    have hsame : s.take .cancelled = s := by
      rw [take, hstep]
      rfl
    rw [hsame]
    exact h

theorem heard_of_move (s : Seat α) :
    s.move.heard ++ s.move.pending.toList = s.heard ++ s.pending.toList := by
  unfold move
  split
  · rw [take_heard, take_pending]
  · next outcome phase pending =>
    rw [pending]
    exact List.append_nil _
  · rfl
  · rw [take_heard, take_pending]
  · rfl

/-! ### The end -/

theorem ended_of_result {result : Result α} (h : s.result? = some result) :
    s.walk.phase = .ended result := by
  unfold result? at h
  split at h
  · cases h
    assumption
  · cases h

/-- A listing that was not cancelled has ended with the verdict of the last outcome that it has taken in, and no call of it is
under way. -/
theorem Seated.ended {request : ListingRequest} {schedule : Backoff}
    (h : Seated (.start request schedule) disturbed turns s) {result : Result α}
    (hr : s.result? = some result) (kept : wasCancelled result = false) :
    ∃ before stop, s.heard = before ++ [stop] ∧ s.pending = none ∧
      (Traversal.start request schedule).Onward before ∧
      verdict schedule.length before stop = some result := by
  have hstanding := h.standing
  rw [ended_of_result hr] at hstanding
  generalize s.heard = heard at hstanding ⊢
  generalize s.pending = pending at hstanding ⊢
  cases hstanding with
  | @finished before onward stop result ends =>
    refine ⟨before, stop, rfl, rfl, onward, ?_⟩
    rw [← Traversal.ends_eq_verdict request schedule before stop onward.throttles_le]
    exact ends
  | cancelled pending disturbance => cases kept

theorem Seated.kept {request : ListingRequest} {schedule : Backoff}
    (h : Seated (.start request schedule) disturbed turns s) (undisturbed : ¬ disturbed) {result : Result α}
    (hr : s.result? = some result) : wasCancelled result = false := by
  have hstanding := h.standing
  rw [ended_of_result hr] at hstanding
  generalize s.heard = heard at hstanding
  generalize s.pending = pending at hstanding
  cases hstanding with
  | finished onward stop result ends =>
    rw [Traversal.ends_eq_verdict request schedule _ stop onward.throttles_le] at ends
    exact not_wasCancelled_of_verdict ends
  | cancelled pending disturbance => exact absurd disturbance undisturbed

/-- Enough moves bring a listing to its end, if the pages that another one follows are bounded. -/
theorem Seated.exists_result {request : ListingRequest} {schedule : Backoff}
    (h : Seated (.start request schedule) disturbed turns s) {bound : Nat}
    (pages : s.heard.countP continues ≤ bound) (enough : 4 * (bound + schedule.length + 1) ≤ turns) :
    ∃ result, s.result? = some result := by
  cases hr : s.result? with
  | some result => exact ⟨result, rfl⟩
  | none =>
    have live : ∀ result, s.walk.phase ≠ .ended result := by
      intro result phase
      rw [result?, phase] at hr
      cases hr
    have hon := h.standing.onward_of_live live
    have hlength := length_eq_of_goes_on hon.goes_on
    have hthrottles : throttles s.heard ≤ schedule.length := hon.throttles_le
    have haccounts := h.accounts
    have hturns : turns ≤ 4 * s.heard.length + 2 := by
      unfold Accounts at haccounts
      split at haccounts
      · omega
      · omega
      · omega
      · omega
      · next result phase => exact absurd phase (live result)
    omega

end Seat

theorem Choice.go_ne {ι : Type} {i j : ι} (h : j ≠ i) : Choice.go i ≠ .go j := by
  intro heq
  cases heq
  exact h rfl

/-! ### Calls -/

section

variable {ι : Type} {kind : ι → Kind}

def Made.from? (c : Source) (call : Made ι kind) : Option (PageOutcome c.Record) :=
  if h : (kind call.caller).source = c then some (h ▸ call.outcome) else none

def Made.by? [DecidableEq ι] (i : ι) (call : Made ι kind) : Option (PageOutcome (kind i).source.Record) :=
  if h : call.caller = i then some (h ▸ call.outcome) else none

namespace Crowd

/-- What was handed out of a collection, call by call. -/
def drawn (src : Source) (c : Crowd ι kind) : List (PageOutcome src.Record) :=
  c.calls.filterMap (Made.from? src)

def outcomesOf [DecidableEq ι] (i : ι) (c : Crowd ι kind) : List (PageOutcome (kind i).source.Record) :=
  c.calls.filterMap (Made.by? i)

end Crowd

theorem from_own (i : ι) (q : ListingRequest) (o : PageOutcome (kind i).source.Record) :
    Made.from? (kind i).source (⟨i, q, o⟩ : Made ι kind) = some o := by
  rw [Made.from?, dif_pos rfl]

theorem from_other {i : ι} {src : Source} (h : src ≠ (kind i).source) (q : ListingRequest)
    (o : PageOutcome (kind i).source.Record) :
    Made.from? src (⟨i, q, o⟩ : Made ι kind) = none := by
  rw [Made.from?, dif_neg (Ne.symm h)]

variable [DecidableEq ι]

theorem by_own (i : ι) (q : ListingRequest) (o : PageOutcome (kind i).source.Record) :
    Made.by? i (⟨i, q, o⟩ : Made ι kind) = some o := by
  rw [Made.by?, dif_pos rfl]

theorem by_other {i j : ι} (h : j ≠ i) (q : ListingRequest) (o : PageOutcome (kind i).source.Record) :
    Made.by? j (⟨i, q, o⟩ : Made ι kind) = none := by
  rw [Made.by?, dif_neg (Ne.symm h)]

/-- The pages that a listing took are among those that were handed out of its collection. -/
theorem countP_outcomesOf_le (c : Crowd ι kind) (i : ι) :
    (c.outcomesOf i).countP continues ≤ (c.drawn (kind i).source).countP continues := by
  rw [Crowd.outcomesOf, Crowd.drawn]
  induction c.calls with
  | nil => exact Nat.le_refl 0
  | cons call calls ih =>
    obtain ⟨j, q, o⟩ := call
    by_cases hj : i = j
    · subst hj
      rw [List.filterMap_cons_some (by_own i q o), List.filterMap_cons_some (from_own i q o),
        List.countP_cons, List.countP_cons]
      omega
    · rw [List.filterMap_cons_none (by_other hj q o), List.filterMap_cons]
      split
      · exact ih
      · rw [List.countP_cons]
        omega

theorem outcomesOf_eq_drawn (c : Crowd ι kind) {i : ι} (alone : ∀ j, j ≠ i → (kind j).source ≠ (kind i).source) :
    c.outcomesOf i = c.drawn (kind i).source := by
  rw [Crowd.outcomesOf, Crowd.drawn]
  induction c.calls with
  | nil => rfl
  | cons call calls ih =>
    obtain ⟨j, q, o⟩ := call
    by_cases hj : j = i
    · subst hj
      rw [List.filterMap_cons_some (by_own j q o), List.filterMap_cons_some (from_own j q o), ih]
    · rw [List.filterMap_cons_none (by_other (Ne.symm hj) q o),
        List.filterMap_cons_none (from_other (Ne.symm (alone j hj)) q o), ih]

end

/-! ### The crowd -/

theorem scripted_drop {α : Type} (queue : List (Queued α)) (n : Nat) :
    (headReply (queue.drop n)).outcome = scripted queue n := by
  rw [outcome_headReply, scripted, scripted, List.getElem?_drop, Nat.add_zero]

namespace Crowd

variable {ι : Type} [DecidableEq ι] {kind : ι → Kind} (c : Crowd ι kind)

theorem seat_self (i : ι) (s : Seat (kind i).source.Record) : (c.seat i s).seats i = s := by
  show Function.update c.seats i s i = s
  rw [Function.update_self]

theorem seat_of_ne {i j : ι} (h : j ≠ i) (s : Seat (kind i).source.Record) :
    (c.seat i s).seats j = c.seats j := by
  show Function.update c.seats i s j = c.seats j
  rw [Function.update_of_ne h]

def outcomeOf (i : ι) (request : ListingRequest) : PageOutcome (kind i).source.Record :=
  (Script.pages (kind i).source request c.store).1.outcome

theorem call_calls (i : ι) (q : ListingRequest) :
    (c.call i q).calls = c.calls ++ [⟨i, q, c.outcomeOf i q⟩] := rfl

theorem call_store (i : ι) (q : ListingRequest) :
    (c.call i q).store = (Script.pages (kind i).source q c.store).2 := rfl

theorem call_self (i : ι) (q : ListingRequest) :
    (c.call i q).seats i = { c.seats i with pending := some (c.outcomeOf i q) } :=
  seat_self _ _ _

theorem call_of_ne {i j : ι} (h : j ≠ i) (q : ListingRequest) : (c.call i q).seats j = c.seats j :=
  seat_of_ne _ h _

theorem drawn_call_own (i : ι) (q : ListingRequest) :
    (c.call i q).drawn (kind i).source = c.drawn (kind i).source ++ [c.outcomeOf i q] := by
  rw [drawn, call_calls, List.filterMap_append, List.filterMap_cons_some (from_own _ _ _),
    List.filterMap_nil]
  rfl

theorem drawn_call_other {i : ι} {src : Source} (h : src ≠ (kind i).source) (q : ListingRequest) :
    (c.call i q).drawn src = c.drawn src := by
  rw [drawn, call_calls, List.filterMap_append, List.filterMap_cons_none (from_other h _ _),
    List.filterMap_nil, List.append_nil]
  rfl

theorem outcomesOf_call_own (i : ι) (q : ListingRequest) :
    (c.call i q).outcomesOf i = c.outcomesOf i ++ [c.outcomeOf i q] := by
  rw [outcomesOf, call_calls, List.filterMap_append, List.filterMap_cons_some (by_own _ _ _),
    List.filterMap_nil]
  rfl

theorem outcomesOf_call_other {i j : ι} (h : j ≠ i) (q : ListingRequest) :
    (c.call i q).outcomesOf j = c.outcomesOf j := by
  rw [outcomesOf, call_calls, List.filterMap_append, List.filterMap_cons_none (by_other h _ _),
    List.filterMap_nil, List.append_nil]
  rfl

/-! ### Choices -/

/-- What holds of a crowd after any choices. -/
structure Orderly (p : Pool) (store : Script) (choices : List (Choice ι)) (c : Crowd ι kind) : Prop where
  seated : ∀ i, (c.seats i).Seated (.start ((kind i).request p.id) p.backoff) (.cancel i ∈ choices)
    (choices.count (.go i))
  own : ∀ i, c.outcomesOf i = (c.seats i).heard ++ (c.seats i).pending.toList
  drawn : ∀ src, c.drawn src = firsts (scripted (store.queue src)) (c.drawn src).length
  left : ∀ src, c.store.queue src = (store.queue src).drop (c.drawn src).length
  counted : c.store.callCount = store.callCount + c.calls.length
  cursors : c.store.cursors = store.cursors ++ c.calls.map fun call => call.request.cursor

theorem orderly_start (p : Pool) (kind : ι → Kind) (store : Script) :
    (start p kind store).Orderly p store [] where
  seated _ := Seat.seated_start _ _ _
  own _ := rfl
  drawn _ := rfl
  left _ := rfl
  counted := rfl
  cursors := (List.append_nil _).symm

namespace Orderly

variable {c} {p : Pool} {store : Script} {choices : List (Choice ι)}

theorem seated_other (h : c.Orderly p store choices) {choice : Choice ι} {j : ι} (other : choice ≠ .go j) :
    (c.seats j).Seated (.start ((kind j).request p.id) p.backoff) (.cancel j ∈ choices ++ [choice])
      ((choices ++ [choice]).count (.go j)) := by
  have hcount : (choices ++ [choice]).count (.go j) = choices.count (.go j) := by
    rw [List.count_append, List.count_singleton, if_neg (by simpa using other), Nat.add_zero]
  rw [hcount]
  exact (h.seated j).mono (List.mem_append_left _)

/-- A listing makes a move that is no call; the others and the provider stay as they are. -/
theorem moved (h : c.Orderly p store choices) {choice : Choice ι} {i : ι}
    (others : ∀ j, j ≠ i → choice ≠ .go j) {s : Seat (kind i).source.Record}
    (seated : s.Seated (.start ((kind i).request p.id) p.backoff) (.cancel i ∈ choices ++ [choice])
      ((choices ++ [choice]).count (.go i)))
    (same : s.heard ++ s.pending.toList = (c.seats i).heard ++ (c.seats i).pending.toList) :
    (c.seat i s).Orderly p store (choices ++ [choice]) := by
  refine ⟨?_, ?_, h.drawn, h.left, h.counted, h.cursors⟩
  · intro j
    by_cases hj : j = i
    · subst hj
      rw [seat_self]
      exact seated
    · rw [seat_of_ne c hj]
      exact h.seated_other (others j hj)
  · intro j
    have hown := h.own j
    by_cases hj : j = i
    · subst hj
      rw [seat_self, same]
      exact hown
    · rw [seat_of_ne c hj]
      exact hown

theorem called (h : c.Orderly p store choices) {i : ι} {q : ListingRequest}
    (asks : (c.seats i).asks? = some q) : (c.call i q).Orderly p store (choices ++ [.go i]) := by
  obtain ⟨-, hpending, -⟩ := Seat.asks_eq_some asks
  have houtcome : c.outcomeOf i q =
      scripted (store.queue (kind i).source) (c.drawn (kind i).source).length := by
    rw [outcomeOf, Script.pages_reply, h.left, scripted_drop]
  refine ⟨?_, ?_, ?_, ?_, ?_, ?_⟩
  · intro j
    by_cases hj : j = i
    · subst hj
      rw [call_self, List.count_append, List.count_singleton_self]
      exact ((h.seated j).called asks _).mono (List.mem_append_left _)
    · rw [call_of_ne c hj]
      exact h.seated_other (Choice.go_ne hj)
  · intro j
    by_cases hj : j = i
    · subst hj
      rw [outcomesOf_call_own, call_self, h.own j, hpending]
      simp
    · rw [outcomesOf_call_other c hj, call_of_ne c hj, h.own j]
  · intro src
    by_cases hsrc : src = (kind i).source
    · subst hsrc
      have hdrawn := h.drawn (kind i).source
      rw [drawn_call_own, List.length_append, List.length_singleton, firsts_succ, ← hdrawn, houtcome]
    · rw [drawn_call_other c hsrc]
      exact h.drawn src
  · intro src
    rw [call_store]
    by_cases hsrc : src = (kind i).source
    · subst hsrc
      rw [drawn_call_own, List.length_append, List.length_singleton, Script.queue_pages, h.left,
        List.tail_drop]
    · rw [drawn_call_other c hsrc, Script.queue_pages_other hsrc, h.left]
  · rw [call_store, Script.pages_callCount, h.counted, call_calls, List.length_append]
    rfl
  · rw [call_store, Script.pages_cursors, h.cursors, call_calls, List.map_append, List.append_assoc]
    rfl

theorem step (h : c.Orderly p store choices) (choice : Choice ι) :
    (c.step choice).Orderly p store (choices ++ [choice]) := by
  cases choice with
  | go i =>
    rw [Crowd.step]
    cases asks : (c.seats i).asks? with
    | some q => exact h.called asks
    | none =>
      refine h.moved (fun j hj => Choice.go_ne hj) ?_ ?_
      · rw [List.count_append, List.count_singleton_self]
        exact ((h.seated i).moved asks).mono (List.mem_append_left _)
      · exact Seat.heard_of_move _
  | cancel i =>
    rw [Crowd.step]
    refine h.moved (fun j _ heq => by cases heq) ?_ ?_
    · have other : Choice.cancel i ≠ .go i := fun heq => by cases heq
      exact (h.seated_other other).cancelled (List.mem_append_right _ List.mem_cons_self)
    · rw [Seat.take_heard, Seat.take_pending]

end Orderly

theorem orderly_run (p : Pool) (kind : ι → Kind) (store : Script) (choices : List (Choice ι)) :
    ((start p kind store).run choices).Orderly p store choices := by
  induction choices using List.reverseRecOn with
  | nil => exact orderly_start p kind store
  | append_singleton choices choice ih =>
    rw [run, List.foldl_append]
    exact ih.step choice

/-! ### Results -/

/-- What the listings of a crowd have to do with each other, after any choices. -/
structure Apart (p : Pool) (store : Script) (choices : List (Choice ι)) (c : Crowd ι kind) : Prop where
  /-- Every listing waits the delays of the schedule from the first one on, one for each of its own throttled calls. -/
  schedules : ∀ i, (c.seats i).waits = p.backoff.take (throttles (c.seats i).heard)
  /-- It takes in the outcomes of its own calls, in order, and no others. -/
  outcomes : ∀ i, c.outcomesOf i = (c.seats i).heard ++ (c.seats i).pending.toList
  /-- Calls on a collection come to the entries of its queue, one after the other, and then to empty last pages. -/
  handedOut : ∀ src, c.drawn src = firsts (scripted (store.queue src)) (c.drawn src).length
  left : ∀ src, c.store.queue src = (store.queue src).drop (c.drawn src).length
  counted : c.store.callCount = store.callCount + c.calls.length
  cursors : c.store.cursors = store.cursors ++ c.calls.map fun call => call.request.cursor
  /-- A listing that was not cancelled has all records of its own calls. -/
  complete : ∀ i result, (c.seats i).result? = some result → wasCancelled result = false →
    gatheredIn result = records (c.outcomesOf i)
  /-- A listing that nobody cancels ends, if it is its turn often enough. -/
  ends : ∀ i, .cancel i ∉ choices →
    4 * ((store.queue (kind i).source).length + p.backoff.length + 1) ≤ choices.count (.go i) →
      ∃ result, (c.seats i).result? = some result ∧ wasCancelled result = false
  /-- A listing that shares its collection with no other ends as it would without the others. -/
  alone : ∀ i, (∀ j, j ≠ i → (kind j).source ≠ (kind i).source) →
    ∀ result, (c.seats i).result? = some result → wasCancelled result = false →
      ∀ now, (p.list (kind i) Script.service .free store now).result? = some result

theorem gatheredIn_of_verdict {α : Type} {delays : Nat} {before : List (PageOutcome α)}
    {stop : PageOutcome α} {result : Result α} (h : verdict delays before stop = some result) :
    gatheredIn result = records (before ++ [stop]) := by
  rw [records_append, records_singleton]
  cases stop with
  | ok page =>
    rw [verdict] at h
    split at h
    · cases h
    · cases h
      rfl
  | error failure =>
    have hnone : recordsOf (.error failure : PageOutcome α) = [] := rfl
    rw [hnone, List.append_nil]
    rw [verdict] at h
    split at h
    · split at h
      · cases h
        rfl
      · cases h
    · cases h
      rfl

namespace Orderly

variable {c} {p : Pool} {store : Script} {choices : List (Choice ι)}

theorem complete (h : c.Orderly p store choices) {i : ι} {result : Result (kind i).source.Record}
    (hr : (c.seats i).result? = some result) (kept : wasCancelled result = false) :
    gatheredIn result = records (c.outcomesOf i) := by
  obtain ⟨before, stop, hheard, hpending, -, hverdict⟩ := (h.seated i).ended hr kept
  rw [h.own i, hpending, hheard, gatheredIn_of_verdict hverdict]
  simp

theorem countP_heard_le (h : c.Orderly p store choices) (i : ι) :
    (c.seats i).heard.countP continues ≤ (store.queue (kind i).source).length := by
  have hown := congrArg (List.countP continues) (h.own i)
  rw [List.countP_append] at hown
  have hcalls := countP_outcomesOf_le c i
  have hqueue := countP_scripted_le (store.queue (kind i).source) (c.drawn (kind i).source).length
  rw [← h.drawn] at hqueue
  omega

theorem ends (h : c.Orderly p store choices) {i : ι} (undisturbed : .cancel i ∉ choices)
    (enough : 4 * ((store.queue (kind i).source).length + p.backoff.length + 1) ≤ choices.count (.go i)) :
    ∃ result, (c.seats i).result? = some result ∧ wasCancelled result = false := by
  obtain ⟨result, hr⟩ := (h.seated i).exists_result (h.countP_heard_le i) enough
  exact ⟨result, hr, (h.seated i).kept undisturbed hr⟩

/-- A listing alone with its collection hears the entries of the queue, as it does without the others. -/
theorem alone (h : c.Orderly p store choices) {i : ι}
    (own : ∀ j, j ≠ i → (kind j).source ≠ (kind i).source) {result : Result (kind i).source.Record}
    (hr : (c.seats i).result? = some result) (kept : wasCancelled result = false) (now : Nat) :
    (p.list (kind i) Script.service .free store now).result? = some result := by
  obtain ⟨before, stop, hheard, hpending, hon, hverdict⟩ := (h.seated i).ended hr kept
  have hcalls : before ++ [stop] = c.drawn (kind i).source := by
    rw [← outcomesOf_eq_drawn c own, h.own i, hheard, hpending]
    exact (List.append_nil _).symm
  have hstream := h.drawn (kind i).source
  rw [← hcalls, List.length_append, List.length_singleton, firsts_succ] at hstream
  obtain ⟨hbefore, hstop⟩ := List.append_inj' hstream rfl
  rw [List.singleton_inj] at hstop
  have hears : (p.setup (kind i) .free store now).Hears (scripted (store.queue (kind i).source)) := by
    intro n
    rw [← Run.requests_length]
    exact answers_dequeues (dequeues_pages (kind i).source) _ _
  have hgoesOn := verdicts_of_onward (hbefore ▸ hon)
  rw [hbefore, hstop] at hverdict
  have hpages : (firsts (scripted (store.queue (kind i).source)) before.length).countP continues ≤
      Script.service.pagesLeft store :=
    Nat.le_trans (countP_scripted_le _ _) (queue_le_pagesLeft _ _)
  exact ((result_of_stream (p.setup (kind i) .free store now) (undisturbed_pages _ rfl rfl) _ hears
    before.length result hgoesOn hverdict).2 _ hpages).1

end Orderly

end Crowd

/-- Listings of a pool that are under way at the same time do not disturb each other, in whatever order they move. -/
theorem crowds_stay_apart (p : Pool) {ι : Type} [DecidableEq ι] (kind : ι → Kind) (store : Script)
    (choices : List (Choice ι)) : ((Crowd.start p kind store).run choices).Apart p store choices := by
  have horderly := Crowd.orderly_run p kind store choices
  exact {
    schedules := fun i => (horderly.seated i).waits
    outcomes := horderly.own
    handedOut := horderly.drawn
    left := horderly.left
    counted := horderly.counted
    cursors := horderly.cursors
    complete := fun i result => horderly.complete
    ends := fun i => horderly.ends
    alone := fun i own result => horderly.alone own }

/-- Two listings of users and one of groups, which are all throttled before any of them has waited. -/
def threeListings : Fin 3 → Kind
  | 0 => .users
  | 1 => .users
  | 2 => .groups

def throttledOnce : Script :=
  { Script.empty with
    users := [⟨0, .error (throttledFailure "list_users")⟩, ⟨0, .error (throttledFailure "list_users")⟩,
      ⟨0, .ok (.ofItems [.named "ann"] (some "x"))⟩, ⟨0, .ok (.last [.named "bob"])⟩]
    groups := [⟨0, .error (throttledFailure "list_groups")⟩, ⟨0, .ok (.last [.named "staff"])⟩] }

def inTurns : List (Choice (Fin 3)) :=
  (List.replicate 12 [.go 0, .go 1, .go 2]).flatten

theorem throttled_side_by_side :
    ∃ c : Crowd (Fin 3) threeListings, c = (Crowd.start ⟨"pool", [5, 9]⟩ threeListings throttledOnce).run inTurns ∧
      (c.seats 0).waits = [5] ∧ (c.seats 1).waits = [5] ∧ (c.seats 2).waits = [5] ∧
      c.store.callCount = 7 := by
  have hapart := crowds_stay_apart ⟨"pool", [5, 9]⟩ threeListings throttledOnce inTurns
  refine ⟨_, rfl, ?_, ?_, ?_, ?_⟩
  · rw [hapart.schedules]
    decide +kernel
  · rw [hapart.schedules]
    decide +kernel
  · rw [hapart.schedules]
    decide +kernel
  · rw [hapart.counted]
    decide +kernel

end DirectoryGateway.Listing
