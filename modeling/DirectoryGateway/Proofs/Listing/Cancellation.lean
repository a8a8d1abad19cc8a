import DirectoryGateway.Proofs.Listing.Budget
import DirectoryGateway.Proofs.Listing.Points

/-!
# Cancelled listings

A cancelled run is compared, step by step, with the same run when nothing cancels it. Up to the step that finds that the listing
was cancelled the two are one; in this step the cancelled run stops as it stands, whatever the step would have brought. So what
it has gathered are whole pages, the call under way is lost, and nothing is begun any more. Every step finds a cancellation but
one that takes in what a poll has brought: the look before this poll came too early, and the next one comes behind the page.
-/

namespace DirectoryGateway.Listing

open DirectoryGateway.Provider

variable {σ α : Type}

/-- A provider whose calls cancel nothing, and which is the same otherwise. -/
def quiet (fetch : PageCall σ α) : PageCall σ α :=
  fun q store => ({ (fetch q store).1 with cancels := false }, (fetch q store).2)

theorem quiet_call {fetch : PageCall σ α} {q : ListingRequest} {store : σ} (h : (fetch q store).1.cancels = false) :
    quiet fetch q store = fetch q store := by
  rw [quiet, ← h]

@[simp] theorem answers_quiet (fetch : PageCall σ α) (store : σ) (qs : List ListingRequest) :
    answers (quiet fetch) store qs = answers fetch store qs := by
  induction qs generalizing store with
  | nil => rfl
  | cons q qs ih => simp only [answers, quiet, ih]

def Pace.uncancelled (pace : Pace) : Pace :=
  { pace with cancelAt := none }

@[simp] theorem Pace.uncancelled_rest (pace : Pace) : pace.uncancelled.rest = pace.rest := rfl

theorem undisturbed_quiet (fetch : PageCall σ α) {pace : Pace} (awaited : pace.deadline = none) :
    Undisturbed (quiet fetch) pace.uncancelled :=
  ⟨rfl, awaited, fun _ _ => rfl⟩

/-! ### Looks with and without cancellation -/

namespace Run

variable {fetch : PageCall σ α} {pace : Pace} {operation : String}

theorem polled_quiet {r : Run σ α} (h : (fetch r.walk.traversal.request r.store).1.cancels = false) :
    r.polled (quiet fetch) = r.polled fetch := by
  rw [polled, polled, called, called, quiet_call h]

/-- At a point of a turn it no longer matters what its call would have cancelled. -/
theorem Within.of_quiet {r : Run σ α} {p : Point σ α} (h : r.Within (quiet fetch) p) : r.Within fetch p := by
  cases h with
  | before => exact .before
  | midway awaited phase cancels => exact .midway awaited phase cancels

theorem calm_look_checking {r : Run σ α} (calm : Undisturbed fetch pace)
    (awaited : r.dropped = false) (h : r.walk.phase = .checking) :
    r.look fetch pace operation = ⟨r.move operation r.now .clear, none⟩ := by
  rw [look_checking awaited h, undisturbed_cancelBy calm]

theorem calm_look_calling {r : Run σ α} (calm : Undisturbed fetch pace)
    (awaited : r.dropped = false) (h : r.walk.phase = .calling) :
    r.look fetch pace operation = r.polled fetch := by
  rw [look_calling awaited h, poll, undisturbed_arrival calm, calm.quiet]
  rfl

theorem calm_look_waiting {r : Run σ α} {delay : Nat} (calm : Undisturbed fetch pace)
    (awaited : r.dropped = false) (h : r.walk.phase = .waiting delay) :
    r.look fetch pace operation = ⟨r.move operation (r.now + pace.rest delay) .waited, none⟩ := by
  rw [look_waiting awaited h, undisturbed_arrival calm]

theorem cancelBy_eq_none {time : Nat} (h : ∀ c, pace.cancelAt = some c → time < c) :
    pace.cancelBy time = none := by
  rw [Pace.cancelBy, Option.filter_eq_none_iff]
  intro c hc
  have hlt := h c hc
  simp only [decide_eq_true_eq]
  omega

theorem cancelBy_eq_some {time c : Nat} (hc : pace.cancelAt = some c) (hle : c ≤ time) :
    pace.cancelBy time = some c := by
  simp [Pace.cancelBy, hc, hle]

theorem arrival_of_uncancelled {now due : Nat} (awaited : pace.deadline = none)
    (h : pace.cancelBy due = none) : pace.arrival now due = .due := by
  simp [Pace.arrival, Pace.deadlineBy, h, awaited]

theorem arrival_of_cancelled {now due c : Nat} (awaited : pace.deadline = none)
    (h : pace.cancelBy due = some c) : pace.arrival now due = .cancelled (max now c) := by
  simp [Pace.arrival, Pace.deadlineBy, h, awaited]

end Run

namespace Point

variable {fetch : PageCall σ α} {pace : Pace} {operation : String}

/-- The step that brings `p` to `p'` when nothing cancels the listing finds that it was cancelled: it looks, and the cancellation
comes no later than it is over, or by making the call. -/
def Notices (fetch : PageCall σ α) (pace : Pace) (p p' : Point σ α) : Prop :=
  p.brought = none ∧
    ((∃ c, pace.cancelAt = some c ∧ c ≤ p'.run.now) ∨
      (p.run.walk.phase = .calling ∧ (fetch p.run.walk.traversal.request p.run.store).1.cancels = true))

theorem Notices.time {p p' : Point σ α} (h : p.Notices fetch pace p') (hp : p.run.walk.phase ≠ .calling) :
    ∃ c, pace.cancelAt = some c ∧ c ≤ p'.run.now := by
  rcases h.2 with htime | ⟨hcalling, _⟩
  · exact htime
  · exact absurd hcalling hp

/-- A step that finds no cancellation is as if there were none. -/
theorem step_of_unnoticed {p : Point σ α} (patient : pace.deadline = none) (awaited : p.run.dropped = false)
    (h : ¬ p.Notices fetch pace (p.step (quiet fetch) pace.uncancelled operation)) :
    p.step fetch pace operation = p.step (quiet fetch) pace.uncancelled operation := by
  have calm := undisturbed_quiet fetch patient
  obtain ⟨r, _ | reply⟩ := p
  · simp only [Notices, true_and, not_or, not_exists, not_and, Bool.not_eq_true, Nat.not_le] at h
    obtain ⟨htime, hcall⟩ := h
    -- What the step waits for is over before the cancellation comes.
    have hby := Run.cancelBy_eq_none htime
    simp only [step] at hby ⊢
    cases hp : r.walk.phase with
    | checking =>
      rw [Run.calm_look_checking calm awaited hp] at hby ⊢
      rw [Run.move_now] at hby
      rw [Run.look_checking awaited hp, hby]
    | calling =>
      rw [Run.calm_look_calling calm awaited hp] at hby ⊢
      rw [Run.polled_quiet (hcall hp)] at hby ⊢
      have hdue : pace.arrival (r.called fetch).now
          ((r.called fetch).now + (fetch r.walk.traversal.request r.store).1.delay) = .due :=
        Run.arrival_of_uncancelled patient hby
      rw [Run.look_calling awaited hp, Run.poll, hcall hp, hdue]
      rfl
    | waiting delay =>
      rw [Run.calm_look_waiting calm awaited hp, Pace.uncancelled_rest] at hby ⊢
      rw [Run.move_now] at hby
      rw [Run.look_waiting awaited hp, Run.arrival_of_uncancelled patient hby]
    | ended result => rw [Run.look_ended hp, Run.look_ended hp]
  · rfl

/-- In the step that finds a cancellation, a run stops as it stands. -/
theorem step_of_noticed {p : Point σ α} (patient : pace.deadline = none) (awaited : p.run.dropped = false)
    (live : p.run.Live)
    (h : p.Notices fetch pace (p.step (quiet fetch) pace.uncancelled operation)) :
    ∃ store time, p.step fetch pace operation =
      ⟨{ p.run with walk := p.run.walk.stop .cancelled, store := store, now := time }, none⟩ := by
  have calm := undisturbed_quiet fetch patient
  obtain ⟨r, brought⟩ := p
  obtain rfl : brought = none := h.1
  have hstop : ∀ r' : Run σ α, r'.Live → ∀ time, (⟨r'.move operation time .cancelled, none⟩ : Point σ α) =
      ⟨{ r' with walk := r'.walk.stop .cancelled, now := time }, none⟩ := by
    intro r' live' time
    rw [Run.move_cancelled operation r' time live']
  simp only [step] at h ⊢
  cases hp : r.walk.phase with
  | checking =>
    rw [Run.calm_look_checking calm awaited hp] at h
    obtain ⟨c, hc, hle⟩ := h.time (by simp [hp])
    rw [Run.move_now] at hle
    rw [Run.look_checking awaited hp, Run.cancelBy_eq_some hc hle]
    exact ⟨_, _, hstop r live _⟩
  | calling =>
    rw [Run.look_calling awaited hp, Run.poll]
    cases hcall : (fetch r.walk.traversal.request r.store).1.cancels with
    | true => exact ⟨_, _, hstop (r.called fetch) live _⟩
    | false =>
      rw [Run.calm_look_calling calm awaited hp] at h
      rcases h.2 with ⟨c, hc, hle⟩ | ⟨_, hcancels⟩
      · have harrival : pace.arrival (r.called fetch).now
            ((r.called fetch).now + (fetch r.walk.traversal.request r.store).1.delay) =
              .cancelled (max (r.called fetch).now c) :=
          Run.arrival_of_cancelled patient (Run.cancelBy_eq_some hc hle)
        rw [harrival]
        exact ⟨_, _, hstop (r.called fetch) live _⟩
      · rw [hcall] at hcancels
        contradiction
  | waiting delay =>
    rw [Run.calm_look_waiting calm awaited hp, Pace.uncancelled_rest] at h
    obtain ⟨c, hc, hle⟩ := h.time (by simp [hp])
    rw [Run.move_now] at hle
    rw [Run.look_waiting awaited hp, Run.arrival_of_cancelled patient (Run.cancelBy_eq_some hc hle)]
    exact ⟨_, _, hstop r live _⟩
  | ended result => exact absurd hp (live result)

/-- Without disturbance the clock never goes back. -/
theorem now_le_step (calm : Undisturbed fetch pace) (p : Point σ α) :
    p.run.now ≤ (p.step fetch pace operation).run.now := by
  obtain ⟨r, _ | reply⟩ := p
  · rw [step]
    rcases r.look_cases fetch pace operation with ⟨hlook, hturned⟩ | ⟨awaited, phase, hlook⟩
    · rw [hlook]
      generalize r.turn fetch pace operation = r' at hturned
      cases hturned with
      | idle still => exact Nat.le_refl _
      | clear awaited phase => exact Nat.le_of_eq (Run.move_now operation r r.now .clear).symm
      | waited awaited delay phase =>
        rw [Run.move_now]
        exact Nat.le_add_right _ _
      | cancelled awaited live store time disturbed => exact absurd calm disturbed
      | dropped store time disturbed => exact absurd calm disturbed
    · rw [hlook]
      exact Nat.le_add_right _ _
  · show r.now ≤ (r.takeIn operation reply).now
    exact Nat.le_of_eq (Run.move_now operation _ r.now _).symm

end Point

/-! ### Runs with and without cancellation -/

namespace Setup

/-- The same listing when nothing cancels it. -/
def uncancelled (s : Setup σ α) : Setup σ α :=
  { s with fetch := quiet s.fetch, pace := s.pace.uncancelled }

/-- The listing after `n` steps without cancellation and `m` steps in which it may come. -/
def cancelled (s : Setup σ α) (n m : Nat) : Point σ α :=
  (s.uncancelled.point n).steps s.fetch s.pace s.operation m

/-- The step after the first `i` finds that the listing was cancelled. -/
def Notices (s : Setup σ α) (i : Nat) : Prop :=
  (s.uncancelled.point i).Notices s.fetch s.pace (s.uncancelled.point (i + 1))

variable {s : Setup σ α}

theorem uncancelled_undisturbed (patient : s.pace.deadline = none) :
    Undisturbed s.uncancelled.fetch s.uncancelled.pace :=
  undisturbed_quiet s.fetch patient

@[simp] theorem uncancelled_outcomes (s : Setup σ α) (r : Run σ α) :
    s.uncancelled.outcomes r = s.outcomes r := by
  rw [outcomes, outcomes, uncancelled, answers_quiet]

theorem uncancelled_point_succ (s : Setup σ α) (i : Nat) :
    s.uncancelled.point (i + 1) =
      (s.uncancelled.point i).step (quiet s.fetch) s.pace.uncancelled s.operation :=
  s.uncancelled.point_succ i

/-- `gather` is a run in which the cancellation may come from the first step on. -/
theorem gather_eq_cancelled (s : Setup σ α) (pagesLeft : Nat) :
    ∃ m, s.cancelled 0 m =
      ⟨gather s.fetch s.pace s.operation pagesLeft s.request s.schedule s.store s.now, none⟩ := by
  obtain ⟨m, -, -, hm⟩ := s.exists_point (turnsOfCalls (pagesLeft + s.schedule.length + 1))
  exact ⟨m, hm⟩

theorem cancelled_add (s : Setup σ α) (n m d : Nat) :
    s.cancelled n (m + d) = (s.cancelled n m).steps s.fetch s.pace s.operation d :=
  Point.steps_add _ m d

theorem cancelled_succ (s : Setup σ α) (n m : Nat) :
    s.cancelled n (m + 1) = (s.cancelled n m).step s.fetch s.pace s.operation :=
  s.cancelled_add n m 1

/-! ### What an uncancelled run has heard -/

/-- A point of a turn of a run that has heard the outcomes of some replies. -/
def Hearing (s : Setup σ α) : Point σ α → List (Reply (Page α)) → Prop :=
  Point.At s.uncancelled.fetch fun r replies => Heard s.uncancelled r (replies.map Reply.outcome)

theorem hearing_point (s : Setup σ α) (i : Nat) : ∃ replies, s.Hearing (s.uncancelled.point i) replies := by
  have hstart : s.Hearing ⟨s.uncancelled.run 0, none⟩ [] := ⟨_, heard_start s.uncancelled, .before⟩
  exact ⟨_, hstart.steps (preserved_heard s.uncancelled) i⟩

section

variable {p : Point σ α} {replies : List (Reply (Page α))}

theorem Hearing.outcomes (h : s.Hearing p replies) (patient : s.pace.deadline = none) :
    s.outcomes p.run = replies.map Reply.outcome := by
  obtain ⟨r, heard, within⟩ := h
  rw [within.kept, ← uncancelled_outcomes]
  exact heard.outcomes_eq (uncancelled_undisturbed patient)

theorem Hearing.awaited (h : s.Hearing p replies) (patient : s.pace.deadline = none) : p.run.dropped = false := by
  obtain ⟨r, heard, within⟩ := h
  rw [within.kept]
  exact heard.awaited (uncancelled_undisturbed patient)

theorem Hearing.items (h : s.Hearing p replies) : p.run.walk.traversal.items = records (replies.map Reply.outcome) := by
  obtain ⟨r, heard, within⟩ := h
  rw [within.kept]
  exact heard.traversal ▸ Traversal.start_after_items s.request s.schedule _

end

theorem awaited (patient : s.pace.deadline = none) (i : Nat) : (s.uncancelled.point i).run.dropped = false := by
  obtain ⟨replies, hearing⟩ := s.hearing_point i
  exact hearing.awaited patient

theorem items_of_uncancelled (patient : s.pace.deadline = none) (i : Nat) :
    (s.uncancelled.point i).run.walk.traversal.items = records (s.outcomes (s.uncancelled.point i).run) := by
  obtain ⟨replies, hearing⟩ := s.hearing_point i
  rw [hearing.outcomes patient]
  exact hearing.items

theorem outcomes_of_uncancelled (patient : s.pace.deadline = none) {i k : Nat} (hk : i ≤ k) :
    s.outcomes (s.uncancelled.point i).run <+: s.outcomes (s.uncancelled.point k).run := by
  obtain ⟨d, rfl⟩ : ∃ d, k = i + d := ⟨k - i, by omega⟩
  obtain ⟨replies, hearing⟩ := s.hearing_point i
  have hlater : s.Hearing _ _ := Point.At.steps (preserved_heard s.uncancelled) hearing d
  rw [← point_add] at hlater
  rw [hearing.outcomes patient, hlater.outcomes patient, List.map_append]
  exact List.prefix_append _ _

theorem requests_of_uncancelled {i k : Nat} (hk : i ≤ k) :
    (s.uncancelled.point i).run.requests <+: (s.uncancelled.point k).run.requests := by
  obtain ⟨d, rfl⟩ : ∃ d, k = i + d := ⟨k - i, by omega⟩
  have preserved : Point.Preserved s.uncancelled.fetch s.uncancelled.pace s.uncancelled.operation
      fun r _ => (s.uncancelled.point i).run.requests <+: r.requests := by
    refine ⟨?_, ?_⟩
    · intro r r' _ before turn _
      rw [← turn]
      exact before.trans (Run.requests_turn _ _ _ r)
    · intro r _ before awaited phase _
      rw [Run.answered_requests phase]
      exact before
  obtain ⟨replies, r, -, within⟩ := s.hearing_point i
  have hstart : (s.uncancelled.point i).run.requests <+: r.requests := by
    rw [within.kept]
    exact List.prefix_rfl
  have hat : (s.uncancelled.point i).At s.uncancelled.fetch
      (fun r _ => (s.uncancelled.point i).run.requests <+: r.requests) [] := ⟨r, hstart, within⟩
  obtain ⟨r', hlater, within'⟩ := hat.steps preserved d
  rw [point_add, within'.kept]
  exact hlater

/-- The step behind a poll takes in what it has brought. It asks for nothing, and begins a wait only behind a throttled call. -/
theorem takes_in (patient : s.pace.deadline = none) {i : Nat} {reply : Reply (Page α)}
    (brought : (s.uncancelled.point i).brought = some reply) :
    (s.uncancelled.point (i + 1)).brought = none ∧
      s.outcomes (s.uncancelled.point (i + 1)).run =
        s.outcomes (s.uncancelled.point i).run ++ [reply.outcome] ∧
      (s.uncancelled.point (i + 1)).run.requests = (s.uncancelled.point i).run.requests ∧
      (s.uncancelled.point (i + 1)).run.waits = (s.uncancelled.point i).run.waits ++
        (s.uncancelled.point i).run.walk.traversal.schedule.take (throttles [reply.outcome]) := by
  obtain ⟨replies, hearing⟩ := s.hearing_point i
  have hnext : s.Hearing _ _ := Point.At.step (preserved_heard s.uncancelled) hearing
  rw [← point_succ, brought] at hnext
  refine ⟨?_, ?_, ?_⟩
  · rw [point_succ, Point.step, brought]
  · rw [hearing.outcomes patient, hnext.outcomes patient, List.map_append]
    rfl
  · rw [point_succ]
    obtain ⟨r, -, within⟩ := hearing
    generalize s.uncancelled.point i = p at brought within
    cases within with
    | before => cases brought
    | midway awaited phase cancels =>
      cases brought
      exact ⟨Run.answered_requests phase, Run.answered_waits phase⟩

/-! ### Noticing -/

/-- Until a step finds the cancellation there is nothing to tell the runs apart. -/
theorem cancelled_before (patient : s.pace.deadline = none) (n m : Nat)
    (earlier : ∀ l, n ≤ l → l < n + m → ¬ s.Notices l) :
    s.cancelled n m = s.uncancelled.point (n + m) := by
  induction m with
  | zero => rfl
  | succ m ih =>
    have hm := ih fun l hn hl => earlier l hn (by omega)
    have hunnoticed := earlier (n + m) (by omega) (by omega)
    have hnext := s.uncancelled_point_succ (n + m)
    rw [Notices, hnext] at hunnoticed
    rw [cancelled_succ, hm, Point.step_of_unnoticed patient (awaited patient _) hunnoticed]
    exact hnext.symm

/-- From the step on that finds the cancellation the cancelled run stands still. -/
theorem cancelled_from (patient : s.pace.deadline = none) {n i m : Nat} (hn : n ≤ i)
    (hm : i < n + m) (earlier : ∀ l, n ≤ l → l < i → ¬ s.Notices l) (notices : s.Notices i)
    (live : (s.uncancelled.point i).run.Live) :
    ∃ store time, s.cancelled n m =
      ⟨{ (s.uncancelled.point i).run with
          walk := (s.uncancelled.point i).run.walk.stop .cancelled
          store := store
          now := time }, none⟩ := by
  obtain ⟨d, rfl⟩ : ∃ d, i = n + d := ⟨i - n, by omega⟩
  obtain ⟨e, rfl⟩ : ∃ e, m = d + 1 + e := ⟨m - d - 1, by omega⟩
  -- `d` steps as without cancellation, the one that finds it, and `e` steps of a run that has ended.
  have hnext := s.uncancelled_point_succ (n + d)
  rw [Notices, hnext] at notices
  obtain ⟨store, time, hstep⟩ := Point.step_of_noticed patient (awaited patient _) live notices
  have hd := cancelled_before patient n d earlier
  have hstop := s.cancelled_succ n d
  rw [hd, hstep] at hstop
  refine ⟨store, time, ?_⟩
  rw [cancelled_add, hstop]
  exact Point.steps_ended rfl e

/-- A listing that has ended before anything finds that it was cancelled stays as it is. -/
theorem cancelled_of_ended (patient : s.pace.deadline = none) {result : Result α} {n d : Nat}
    (earlier : ∀ l, n ≤ l → l < n + d → ¬ s.Notices l)
    (ended : (s.uncancelled.point (n + d)).run.result? = some result) (e : Nat) :
    (s.cancelled n (d + e)).run.result? = some result := by
  rw [cancelled_add, cancelled_before patient n d earlier]
  obtain ⟨replies, r, -, within⟩ := s.hearing_point (n + d)
  generalize s.uncancelled.point (n + d) = p at ended within
  cases within with
  | before =>
    rw [Point.steps_ended (Run.ended_of_result ended)]
    exact ended
  | midway awaited phase cancels =>
    have hphase : r.walk.phase = .ended result := Run.ended_of_result ended
    rw [phase] at hphase
    cases hphase

/-- A listing that was cancelled looks again before it begins anything but a wait: the next step finds it, or the one after that,
if a poll has just brought a reply. -/
theorem notices_soon (patient : s.pace.deadline = none) {n c : Nat} (cancel : s.pace.cancelAt = some c)
    (since : c ≤ (s.uncancelled.point n).run.now) :
    s.Notices (if (s.uncancelled.point n).brought.isSome then n + 1 else n) := by
  have calm := uncancelled_undisturbed patient
  have hlater : ∀ i, (s.uncancelled.point i).run.now ≤ (s.uncancelled.point (i + 1)).run.now := by
    intro i
    rw [point_succ]
    exact Point.now_le_step calm _
  cases hbrought : (s.uncancelled.point n).brought with
  | none => exact ⟨hbrought, Or.inl ⟨c, cancel, Nat.le_trans since (hlater n)⟩⟩
  | some reply =>
    have hnow := Nat.le_trans (hlater n) (hlater (n + 1))
    exact ⟨(takes_in patient hbrought).1, Or.inl ⟨c, cancel, Nat.le_trans since hnow⟩⟩

end Setup

/-- A cancellation takes effect in the first step that finds it: the listing ends with the pages that were taken in before, and
nothing is begun after it; what is under way is lost. If the listing has ended before, nothing is changed. A cancellation that
has come is found by the next step that looks, and until then the listing takes in no more than the reply that a poll has just
brought, and asks for nothing. -/
theorem cancelled_result (s : Setup σ α) (patient : s.pace.deadline = none) (n i : Nat) (hn : n ≤ i)
    (earlier : ∀ l, n ≤ l → l < i → ¬ s.Notices l) :
    (∀ m, n + m ≤ i → s.cancelled n m = s.uncancelled.point (n + m)) ∧
    (s.Notices i → (s.uncancelled.point i).run.result? = none → ∀ m, i < n + m →
      (s.cancelled n m).run.result? =
          some (.error ⟨records (s.outcomes (s.uncancelled.point i).run), .cancelled⟩) ∧
        (s.cancelled n m).run.calls = (s.uncancelled.point i).run.calls ∧
        (s.cancelled n m).run.waits = (s.uncancelled.point i).run.waits ∧
        (s.cancelled n m).run.notes = (s.uncancelled.point i).run.notes ∧
        ∀ k, i ≤ k →
          (s.cancelled n m).run.requests <+: (s.uncancelled.point k).run.requests ∧
          s.outcomes (s.uncancelled.point i).run <+: s.outcomes (s.uncancelled.point k).run ∧
          (s.uncancelled.point k).run.walk.traversal.items =
            records (s.outcomes (s.uncancelled.point k).run)) ∧
    (∀ result, (s.uncancelled.point i).run.result? = some result → ∀ m, i ≤ n + m →
      (s.cancelled n m).run.result? = some result) ∧
    (∀ c, s.pace.cancelAt = some c → c ≤ (s.uncancelled.point n).run.now →
      s.Notices (if (s.uncancelled.point n).brought.isSome then n + 1 else n)) ∧
    ∀ reply, (s.uncancelled.point n).brought = some reply →
      s.outcomes (s.uncancelled.point (n + 1)).run =
          s.outcomes (s.uncancelled.point n).run ++ [reply.outcome] ∧
        (s.uncancelled.point (n + 1)).run.requests = (s.uncancelled.point n).run.requests ∧
        (s.uncancelled.point (n + 1)).run.waits = (s.uncancelled.point n).run.waits ++
          (s.uncancelled.point n).run.walk.traversal.schedule.take (throttles [reply.outcome]) := by
  refine ⟨?_, ?_, ?_, ?_, ?_⟩
  · intro m hm
    exact Setup.cancelled_before patient n m fun l hl hlm => earlier l hl (by omega)
  · intro notices running m hm
    have hstop := Setup.cancelled_from patient hn hm earlier notices (Run.live_of_result running)
    obtain ⟨store, time, hstop⟩ := hstop
    rw [hstop]
    refine ⟨?_, rfl, rfl, rfl, ?_⟩
    · rw [← Setup.items_of_uncancelled patient i]
      rfl
    · intro k hk
      exact ⟨Setup.requests_of_uncancelled hk, Setup.outcomes_of_uncancelled patient hk,
        Setup.items_of_uncancelled patient k⟩
  · intro result hresult m hm
    obtain ⟨d, rfl⟩ : ∃ d, i = n + d := ⟨i - n, by omega⟩
    obtain ⟨e, rfl⟩ : ∃ e, m = d + e := ⟨m - d, by omega⟩
    exact Setup.cancelled_of_ended patient earlier hresult e
  · intro c cancel since
    exact Setup.notices_soon patient cancel since
  · intro reply brought
    exact (Setup.takes_in patient brought).2

/-- The last page and the cancellation come at the same moment. -/
def raceSetup : Setup Nat Nat where
  fetch := played fun
    | 0 => ⟨3, .ok (.ofItems [1, 2] (some "a")), [], false⟩
    | _ => ⟨4, .ok (.last [3]), [], false⟩
  pace := ⟨some 7, none, id⟩
  operation := "list_users"
  request := .ofPool "pool"
  schedule := []
  store := 0
  now := 0

theorem race_is_cancelled :
    (raceSetup.cancelled 0 16).run.result? = some (.error ⟨[1, 2], .cancelled⟩) ∧
      (raceSetup.cancelled 0 16).run.calls.map Prod.fst = [0, 3] ∧
      (raceSetup.uncancelled.point 16).run.result? = some (.ok [1, 2, 3]) := by
  have hearlier : ∀ l, 0 ≤ l → l < 4 → ¬ raceSetup.Notices l := by
    intro l _ hl
    rintro ⟨-, ⟨c, hc, hle⟩ | ⟨_, hcancels⟩⟩
    · simp only [raceSetup, Option.some.injEq] at hc
      subst hc
      revert hle
      match l, hl with
      | 0, _ => decide
      | 1, _ => decide
      | 2, _ => decide
      | 3, _ => decide
    · revert hcancels
      match l, hl with
      | 0, _ => decide
      | 1, _ => decide
      | 2, _ => decide
      | 3, _ => decide
  have hnotices : raceSetup.Notices 4 := ⟨rfl, Or.inl ⟨7, rfl, by decide⟩⟩
  obtain ⟨hresult, hcalls, _⟩ :=
    (cancelled_result raceSetup rfl 0 4 (Nat.zero_le 4) hearlier).2.1 hnotices rfl 16 (by decide)
  refine ⟨hresult, ?_, rfl⟩
  rw [hcalls]
  rfl

/-- One page, and a cancellation at the moment when it comes. -/
def promptSetup : Setup Nat Nat where
  fetch := played fun _ => ⟨5, .ok (.last [1]), [], false⟩
  pace := ⟨some 5, none, id⟩
  operation := "list_users"
  request := .ofPool "pool"
  schedule := []
  store := 0
  now := 0

/-- If the cancellation comes behind the look of the poll that brings the last page, this page is not taken in yet, and still the
listing goes on to its end. -/
theorem last_page_outruns_cancellation :
    promptSetup.pace.cancelAt = some (promptSetup.uncancelled.point 2).run.now ∧
      (promptSetup.uncancelled.point 2).run.result? = none ∧
      (promptSetup.uncancelled.point 2).run.walk.traversal.items = [] ∧
      (promptSetup.cancelled 2 16).run.result? = some (.ok [1]) ∧
      (promptSetup.cancelled 2 16).run.result? ≠ some (.error ⟨[], .cancelled⟩) := by
  refine ⟨rfl, rfl, rfl, rfl, ?_⟩
  have hresult : (promptSetup.cancelled 2 16).run.result? = some (.ok [1]) := rfl
  rw [hresult]
  intro same
  cases same

end DirectoryGateway.Listing
