import DirectoryGateway.Proofs.Listing.Completion
import Mathlib.Algebra.GroupWithZero.Nat

/-!
# What a listing spends

The waits of an undisturbed listing are the first delays of its schedule, one after each throttled call that is made
again. Pages give no delay back, so the calls of a listing are bounded by its delays and the pages that others follow,
and each call is accounted for: it brought a page, it was waited after, or it ended the listing.
-/

namespace DirectoryGateway.Listing

open DirectoryGateway.Provider

variable {σ α : Type}

/-! ### Calls and waits in order -/

def Act.delay? : Act → Option Nat
  | .wait delay => some delay
  | _ => none

namespace Run

/-- The calls and waits that a run has begun since it was `r`. -/
def begunSince (r r' : Run σ α) : List Act :=
  (r'.requests.drop r.requests.length).map .call ++ (r'.waits.drop r.waits.length).map .wait

/-- The call that has not come to its outcome. -/
def underway (r : Run σ α) : List Act :=
  match r.walk.phase with
  | .calling => [.call r.walk.traversal.request]
  | _ => []

theorem begunSince_eq {r r' : Run σ α} (qs : List ListingRequest) (delays : List Nat)
    (hq : r'.requests = r.requests ++ qs) (hw : r'.waits = r.waits ++ delays) :
    r.begunSince r' = qs.map .call ++ delays.map .wait := by
  rw [begunSince, hq, hw, List.drop_left, List.drop_left]

theorem foldl_perform_waits (operation : String) (acts : List Act) (r : Run σ α) :
    (acts.foldl (perform operation) r).waits = r.waits ++ acts.filterMap Act.delay? := by
  induction acts generalizing r with
  | nil => simp
  | cons act acts ih =>
    rw [List.foldl_cons, ih, List.filterMap_cons]
    cases act <;> simp [perform, Act.delay?]

theorem move_waits (operation : String) (r : Run σ α) (time : Nat) (e : Event α) :
    (r.move operation time e).waits = r.waits ++ (r.walk.step e).2.filterMap Act.delay? :=
  foldl_perform_waits operation _ _

end Run

/-- The calls and waits of the first turns of a listing, in the order in which they were begun. -/
def Setup.log (s : Setup σ α) : Nat → List Act
  | 0 => []
  | n + 1 => s.log n ++ (s.run n).begunSince (s.run (n + 1))

/-- The calls and waits that outcomes lead to: each call is followed by the next delay if it was throttled, while there
is one. -/
def conduct (q : ListingRequest) (delays : Backoff) : List (PageOutcome α) → List Act
  | [] => []
  | o :: os =>
    .call q :: (delays.take (throttles [o])).map .wait ++
      conduct (nextRequest q o) (delays.drop (throttles [o])) os

/-- The throttled calls that are made again: all but one that comes when no delay is left. -/
def retried (delays : Nat) (os : List (PageOutcome α)) : Nat :=
  min delays (throttles os)

def isPage : PageOutcome α → Bool
  | .ok _ => true
  | .error _ => false

theorem conduct_concat (q : ListingRequest) (delays : Backoff) (os : List (PageOutcome α))
    (o : PageOutcome α) :
    conduct q delays (os ++ [o]) =
      conduct q delays os ++ .call (os.foldl nextRequest q) ::
        ((delays.drop (throttles os)).take (throttles [o])).map .wait := by
  induction os generalizing q delays with
  | nil => simp [conduct]
  | cons o' os ih =>
    have hcons : throttles (o' :: os) = throttles [o'] + throttles os := throttles_append [o'] os
    simp only [List.cons_append, conduct, List.foldl_cons, ih, hcons, List.drop_drop,
      List.append_assoc]

theorem conduct_requests (q : ListingRequest) (delays : Backoff) (os : List (PageOutcome α)) :
    (conduct q delays os).filterMap Act.request? = asked q os := by
  induction os using List.reverseRecOn with
  | nil => rfl
  | append_singleton os o ih =>
    have hnone : ∀ ds : List Nat, (ds.map Act.wait).filterMap Act.request? = [] := by
      intro ds
      rw [List.filterMap_map, List.filterMap_eq_nil_iff]
      intro d _
      rfl
    rw [conduct_concat, asked_append, List.filterMap_append, ih, List.filterMap_cons, hnone]
    rfl

theorem conduct_delays (q : ListingRequest) (delays : Backoff) (os : List (PageOutcome α)) :
    (conduct q delays os).filterMap Act.delay? = delays.take (throttles os) := by
  induction os using List.reverseRecOn with
  | nil => simp [conduct]
  | append_singleton os o ih =>
    have hall : ∀ ds : List Nat, (ds.map Act.wait).filterMap Act.delay? = ds := by
      intro ds
      rw [List.filterMap_map]
      exact List.filterMap_some
    rw [conduct_concat, List.filterMap_append, ih, List.filterMap_cons, hall, throttles_append,
      List.take_add]
    rfl

theorem Walk.answer_delays (w : Walk α) (o : PageOutcome α) :
    (w.answer o).2.filterMap Act.delay? = w.traversal.schedule.take (throttles [o]) := by
  obtain ⟨r, hr, h⟩ := w.traversal.advance_cases o
  simp only [answer, hr]
  cases h with
  | page page cursor next => rfl
  | lastPage page next => rfl
  | throttle failure delay rest retryable left =>
    have htake : (w.traversal.schedule).take (throttles [(.error failure : PageOutcome α)]) = [delay] := by
      simp [throttled, retryable, left]
    rw [htake]
    rfl
  | exhausted failure retryable left => simp [follow, left]
  | hard failure retryable => simp [follow, throttled, retryable]

theorem Run.answered_delays {fetch : PageCall σ α} {operation : String} {r : Run σ α}
    (phase : r.walk.phase = .calling) :
    (r.answered fetch operation).waits = r.waits ++
      (r.walk.answer (fetch r.walk.traversal.request r.store).1.outcome).2.filterMap Act.delay? := by
  rw [answered, move_waits, Walk.step_answered _ _ phase]

theorem Run.answered_waits {fetch : PageCall σ α} {operation : String} {r : Run σ α}
    (phase : r.walk.phase = .calling) :
    (r.answered fetch operation).waits = r.waits ++
      r.walk.traversal.schedule.take (throttles [(fetch r.walk.traversal.request r.store).1.outcome]) := by
  rw [answered_delays phase, Walk.answer_delays]

/-- What a throttled call waits is taken from the schedule. -/
theorem Run.answered_schedule {fetch : PageCall σ α} {operation : String} {r : Run σ α}
    (phase : r.walk.phase = .calling) :
    (r.answered fetch operation).waits ++ (r.answered fetch operation).walk.traversal.schedule =
      r.waits ++ r.walk.traversal.schedule := by
  rw [answered_waits phase, answered_walk phase, Walk.answer_traversal, Traversal.advance_schedule, List.append_assoc,
    List.take_append_drop]

theorem Walk.answer_not_calling (w : Walk α) (o : PageOutcome α) :
    (w.answer o).1.phase ≠ .calling := by
  rcases w.answer_phase o with ⟨result, _, h⟩ | ⟨_, h | ⟨delay, h⟩⟩ <;> simp [h]

/-! ### One turn -/

/-- A run has taken in the outcomes `os`, and has spent on them what it should. -/
structure Spent (s : Setup σ α) (r : Run σ α) (log : List Act) (os : List (PageOutcome α)) : Prop where
  heard : Heard s r os
  waits : r.waits = s.schedule.take (throttles os)
  log : log = conduct s.traversal.request s.schedule os ++ r.underway

variable {s : Setup σ α}

namespace Spent

variable {r : Run σ α} {log : List Act} {os : List (PageOutcome α)}

theorem underway_nil (hp : r.walk.phase ≠ .calling) : r.underway = [] := by
  unfold Run.underway
  split
  · contradiction
  · rfl

theorem clear (h : Spent s r log os) (awaited : r.dropped = false) (phase : r.walk.phase = .checking) :
    Spent s (r.move s.operation r.now .clear)
      (log ++ r.begunSince (r.move s.operation r.now .clear)) os := by
  have hstep := r.walk.step_clear phase
  have hrequests : (r.move s.operation r.now .clear).requests =
      r.requests ++ [r.walk.traversal.request] := by
    rw [Run.move_requests, hstep]
    rfl
  have hwaits : (r.move s.operation r.now .clear).waits = r.waits ++ [] := by
    rw [Run.move_waits, hstep]
    rfl
  have hbefore : r.underway = [] := underway_nil (by simp [phase])
  have hafter : (r.move s.operation r.now .clear).underway = [.call r.walk.traversal.request] := by
    simp only [Run.underway, Run.move_walk, hstep]
  refine ⟨h.heard.clear awaited phase, ?_, ?_⟩
  · rw [hwaits, List.append_nil]
    exact h.waits
  · rw [Run.begunSince_eq _ _ hrequests hwaits, hafter, h.log, hbefore]
    simp

theorem answered (h : Spent s r log os) (awaited : r.dropped = false)
    (phase : r.walk.phase = .calling) :
    Spent s (r.answered s.fetch s.operation)
      (log ++ r.begunSince (r.answered s.fetch s.operation))
      (os ++ [(s.fetch r.walk.traversal.request r.store).1.outcome]) := by
  have hheard := h.heard.answered awaited phase
  generalize ho : (s.fetch r.walk.traversal.request r.store).1.outcome = o at hheard ⊢
  have hrequest : r.walk.traversal.request = os.foldl nextRequest s.traversal.request := by
    rw [h.heard.traversal, Traversal.after_request]
  have hschedule : r.walk.traversal.schedule = s.schedule.drop (throttles os) := by
    rw [h.heard.traversal, Traversal.after_schedule]
    rfl
  have hrequests : (r.answered s.fetch s.operation).requests = r.requests ++ [] := by
    rw [Run.answered_requests phase, List.append_nil]
  have hwaits : (r.answered s.fetch s.operation).waits =
      r.waits ++ (s.schedule.drop (throttles os)).take (throttles [o]) := by
    rw [Run.answered_waits phase, ho, hschedule]
  have hbefore : r.underway = [.call (os.foldl nextRequest s.traversal.request)] := by
    simp only [Run.underway, phase, hrequest]
  have hafter : (r.answered s.fetch s.operation).underway = [] := by
    refine underway_nil ?_
    rw [Run.answered_walk phase]
    exact Walk.answer_not_calling _ _
  refine ⟨hheard, ?_, ?_⟩
  · rw [hwaits, h.waits, throttles_append, ← List.take_add]
  · rw [Run.begunSince_eq _ _ hrequests hwaits, hafter, h.log, hbefore, conduct_concat]
    simp

theorem waited (h : Spent s r log os) (awaited : r.dropped = false) {delay time : Nat}
    (phase : r.walk.phase = .waiting delay) :
    Spent s (r.move s.operation time .waited)
      (log ++ r.begunSince (r.move s.operation time .waited)) os := by
  have hstep := r.walk.step_waited delay phase
  have hrequests : (r.move s.operation time .waited).requests = r.requests ++ [] := by
    rw [Run.move_requests, hstep]
    rfl
  have hwaits : (r.move s.operation time .waited).waits = r.waits ++ [] := by
    rw [Run.move_waits, hstep]
    rfl
  have hbefore : r.underway = [] := underway_nil (by simp [phase])
  have hafter : (r.move s.operation time .waited).underway = [] := by
    refine underway_nil ?_
    simp [hstep]
  refine ⟨h.heard.waited awaited phase, ?_, ?_⟩
  · rw [hwaits, List.append_nil]
    exact h.waits
  · rw [Run.begunSince_eq _ _ hrequests hwaits, hafter, h.log, hbefore]
    simp

end Spent

/-! ### Runs -/

theorem spent_undisturbed (calm : Undisturbed s.fetch s.pace) (n : Nat) :
    ∃ os, Spent s (s.run n) (s.log n) os := by
  induction n with
  | zero => exact ⟨[], heard_start s, by rw [throttles_nil]; rfl, rfl⟩
  | succ n ih =>
    obtain ⟨os, hos⟩ := ih
    rw [Setup.log, s.run_succ]
    generalize s.run n = r at hos ⊢
    obtain ⟨_, r', hr', hturned⟩ := Run.turn_cases s.fetch s.pace s.operation r
    rw [hr']
    cases hturned with
    | idle still =>
      refine ⟨os, hos.heard, hos.waits, ?_⟩
      rw [Run.begunSince_eq [] [] (by simp) (by simp)]
      simpa using hos.log
    | clear awaited phase => exact ⟨os, hos.clear awaited phase⟩
    | answered awaited phase => exact ⟨_, hos.answered awaited phase⟩
    | waited awaited delay phase => exact ⟨os, hos.waited awaited phase⟩
    | cancelled awaited live store time disturbed => exact absurd calm disturbed
    | dropped store time disturbed => exact absurd calm disturbed

theorem spent_outcomes (calm : Undisturbed s.fetch s.pace) (n : Nat) :
    Spent s (s.run n) (s.log n) (s.outcomes (s.run n)) := by
  obtain ⟨os, hos⟩ := spent_undisturbed calm n
  rw [hos.heard.outcomes_eq calm]
  exact hos

theorem log_complete (calm : Undisturbed s.fetch s.pace) (n : Nat) :
    (s.log n).filterMap Act.request? = (s.run n).requests ∧
      (s.log n).filterMap Act.delay? = (s.run n).waits := by
  obtain ⟨os, hos⟩ := spent_undisturbed calm n
  have hs := hos.heard.stage
  have hrequests : (s.run n).requests =
      asked s.traversal.request os ++ (s.run n).underway.filterMap Act.request? := by
    rw [Run.underway, hos.heard.traversal]
    generalize (s.run n).walk.phase = phase at hs ⊢
    generalize (s.run n).requests = qs at hs ⊢
    cases hs with
    | checking onward => simp
    | calling onward => rfl
    | waiting onward delay => simp
    | finished onward o result ends => simp
    | cancelled onward qs made disturbed => exact absurd calm disturbed
  have hnone : (s.run n).underway.filterMap Act.delay? = [] := by
    unfold Run.underway
    split <;> rfl
  rw [hos.log, List.filterMap_append, List.filterMap_append, conduct_requests, conduct_delays, hnone,
    List.append_nil, hos.waits, hrequests]
  exact ⟨rfl, rfl⟩

/-- The outcomes of a listing that has ended: it went on after all of them but the last. -/
theorem Heard.ended {r : Run σ α} {os : List (PageOutcome α)} (h : Heard s r os)
    (calm : Undisturbed s.fetch s.pace) {result : Result α} (hr : r.result? = some result) :
    ∃ before stop, os = before ++ [stop] ∧ s.traversal.Onward before ∧
      verdict s.schedule.length before stop = some result ∧ r.calls.length = before.length + 1 := by
  rcases h.ended_cases hr with hfinished | ⟨disturbed, -⟩
  · exact hfinished
  · exact absurd calm disturbed

theorem length_of_onward {t : Traversal α} {os : List (PageOutcome α)} (h : t.Onward os) :
    os.length = os.countP isPage + throttles os := by
  have hgoes := h.goes_on
  have hlength := length_eq_of_goes_on hgoes
  have hpages : os.countP isPage = os.countP continues := by
    refine List.countP_congr ?_
    intro o ho
    rcases hgoes o ho with hc | ht
    · cases o with
      | ok page => simp [isPage, hc]
      | error failure => simp [continues] at hc
    · cases o with
      | ok page => simp [throttled] at ht
      | error failure => simp [isPage, continues]
  omega

/-- Each call of a listing that has ended brought a page, or was waited after, or ended it by its failure. -/
theorem calls_accounted {before : List (PageOutcome α)} {stop : PageOutcome α} {k : Nat}
    {result : Result α} (hlength : before.length = before.countP isPage + throttles before)
    (fits : throttles before ≤ k) (hv : verdict k before stop = some result) :
    before.length + 1 = (before ++ [stop]).countP isPage + retried k (before ++ [stop]) +
      (if result.isOk then 0 else 1) := by
  rw [List.countP_append, List.countP_singleton, retried, throttles_append, throttles_singleton]
  cases stop with
  | ok page =>
    cases hn : page.next with
    | some cursor => simp [verdict, hn] at hv
    | none =>
      simp only [verdict, hn, Option.some.injEq] at hv
      have hok : result.isOk = true := by rw [← hv]; rfl
      have hunthrottled : throttled (.ok page : PageOutcome α) = false := rfl
      have hpage : isPage (.ok page : PageOutcome α) = true := rfl
      rw [hok, hunthrottled, hpage]
      simp only [Bool.false_eq_true, ↓reduceIte]
      omega
  | error failure =>
    have hpage : isPage (.error failure : PageOutcome α) = false := rfl
    cases hr : failure.retryable with
    | true =>
      simp only [verdict, hr, ↓reduceIte] at hv
      split at hv
      · simp only [Option.some.injEq] at hv
        have hfailed : result.isOk = false := by rw [← hv]; rfl
        have hthrottled : throttled (.error failure : PageOutcome α) = true := hr
        rw [hfailed, hthrottled, hpage]
        simp only [Bool.false_eq_true, ↓reduceIte]
        omega
      · contradiction
    | false =>
      simp only [verdict, hr, Bool.false_eq_true, ↓reduceIte, Option.some.injEq] at hv
      have hfailed : result.isOk = false := by rw [← hv]; rfl
      have hthrottled : throttled (.error failure : PageOutcome α) = false := hr
      rw [hfailed, hthrottled, hpage]
      simp only [Bool.false_eq_true, ↓reduceIte]
      omega

/-- A listing whose pages with a cursor are bounded ends, and its bound is that of `gather`. -/
theorem ends_within (calm : Undisturbed s.fetch s.pace) {bound : Nat}
    (pages : ∀ n, (s.outcomes (s.run n)).countP continues ≤ bound) {n : Nat}
    (enough : turnsOfCalls (bound + s.schedule.length + 1) ≤ n) :
    ∃ result, (s.run n).result? = some result ∧
      (s.run n).calls.length ≤ bound + s.schedule.length + 1 := by
  obtain ⟨os, hos, haccounts⟩ := heard_undisturbed calm n
  have hpages := pages n
  rw [hos.outcomes_eq calm] at hpages
  cases hr : (s.run n).result? with
  | some result =>
    obtain ⟨before, stop, hsplit, hon, _, hcalls⟩ := hos.ended calm hr
    rw [hsplit, List.countP_append] at hpages
    have hlength := length_eq_of_goes_on hon.goes_on
    have hfits : throttles before ≤ s.schedule.length := hon.throttles_le
    exact ⟨result, rfl, by omega⟩
  | none =>
    -- The turns made are then fewer than those that the outcomes account for.
    have hturns := hos.live_turns (Run.live_of_result hr) hpages haccounts
    omega

theorem always_throttled (calm : Undisturbed s.fetch s.pace)
    (never : ∀ n, ∀ o ∈ s.outcomes (s.run n), throttled o = true) {n : Nat}
    (enough : turnsOfCalls (s.schedule.length + 1) ≤ n) :
    (s.run n).calls.length = s.schedule.length + 1 ∧ ∃ last, (s.run n).result? =
      some (.error ⟨[], .retriesExhausted s.schedule.length last⟩) := by
  have hnone : ∀ n, (s.outcomes (s.run n)).countP continues ≤ 0 := by
    intro n
    rw [Nat.le_zero, List.countP_eq_zero]
    intro o ho hc
    have ht := never n o ho
    rw [throttled_of_continues hc] at ht
    contradiction
  have henough : turnsOfCalls (0 + s.schedule.length + 1) ≤ n := by rwa [Nat.zero_add]
  obtain ⟨result, hr, _⟩ := ends_within calm hnone henough
  obtain ⟨os, hos, _⟩ := heard_undisturbed calm n
  obtain ⟨before, stop, hsplit, hon, hv, hlength⟩ := hos.ended calm hr
  have hnever := never n
  rw [hos.outcomes_eq calm, hsplit] at hnever
  have hstop : throttled stop = true := hnever stop (by simp)
  have hbefore : throttles before = before.length := by
    rw [throttles, List.countP_eq_length]
    intro o ho
    exact hnever o (by simp [ho])
  have hrecords : records before = [] := by
    rw [records, List.flatMap_eq_nil_iff]
    intro o ho
    have ht := hnever o (by simp [ho])
    cases o with
    | ok page => contradiction
    | error failure => rfl
  cases stop with
  | ok page => contradiction
  | error failure =>
    have hretryable : failure.retryable = true := hstop
    simp only [verdict, hretryable, ↓reduceIte] at hv
    split at hv
    · rename_i hk
      simp only [Option.some.injEq] at hv
      rw [hr, ← hv, hrecords]
      exact ⟨by omega, failure, rfl⟩
    · contradiction

/-- The waits of an undisturbed listing are the first delays of its schedule, one right after each throttled call that is
made again; its calls are accounted for by pages, waits and a failure at the end. So it ends when its pages with a cursor
are bounded, after the turns that `gather` makes, and one that is always throttled makes a call for each delay and one
more. -/
theorem delays_bound_calls (s : Setup σ α) (calm : Undisturbed s.fetch s.pace) :
    (∀ n,
      (s.run n).waits = s.schedule.take (retried s.schedule.length (s.outcomes (s.run n))) ∧
      (s.run n).waits.sum ≤ s.schedule.sum ∧
      s.log n = conduct s.traversal.request s.schedule (s.outcomes (s.run n)) ++ (s.run n).underway ∧
      (s.log n).filterMap Act.request? = (s.run n).requests ∧
      (s.log n).filterMap Act.delay? = (s.run n).waits ∧
      ∀ result, (s.run n).result? = some result →
        (s.run n).calls.length = (s.outcomes (s.run n)).countP isPage + (s.run n).waits.length +
          (if result.isOk then 0 else 1)) ∧
    (∀ bound, (∀ n, (s.outcomes (s.run n)).countP continues ≤ bound) →
      ∀ n, turnsOfCalls (bound + s.schedule.length + 1) ≤ n →
        ∃ result, (s.run n).result? = some result ∧
          (s.run n).calls.length ≤ bound + s.schedule.length + 1) ∧
    ((∀ n, ∀ o ∈ s.outcomes (s.run n), throttled o = true) →
      ∀ n, turnsOfCalls (s.schedule.length + 1) ≤ n →
        (s.run n).calls.length = s.schedule.length + 1 ∧
          ∃ last, (s.run n).result? = some (.error ⟨[], .retriesExhausted s.schedule.length last⟩)) := by
  refine ⟨?_, ?_, ?_⟩
  · intro n
    have hspent := spent_outcomes calm n
    have hwaits : (s.run n).waits =
        s.schedule.take (retried s.schedule.length (s.outcomes (s.run n))) := by
      rw [hspent.waits, List.take_eq_take_iff, retried]
      omega
    obtain ⟨hrequests, hdelays⟩ := log_complete calm n
    refine ⟨hwaits, ?_, hspent.log, hrequests, hdelays, ?_⟩
    · have hsplit := congrArg List.sum
        (List.take_append_drop (throttles (s.outcomes (s.run n))) s.schedule)
      rw [List.sum_append_nat] at hsplit
      rw [hspent.waits]
      omega
    · intro result hr
      obtain ⟨before, stop, hsplit, hon, hv, hlength⟩ := hspent.heard.ended calm hr
      have hcalls := calls_accounted (length_of_onward hon) hon.throttles_le hv
      have hcount : (s.run n).waits.length = retried s.schedule.length (before ++ [stop]) := by
        rw [hwaits, hsplit, List.length_take, retried]
        omega
      rw [hsplit, hcount, hlength]
      exact hcalls
  · intro bound hpages n enough
    exact ends_within calm hpages enough
  · intro never n enough
    exact always_throttled calm never enough

/-- Throttled calls before and between pages; one of three delays is left over. -/
def thriftySetup : Setup Nat Nat :=
  .ofScript [.error (throttledFailure "list_users"), .ok (.ofItems [1] (some "a")),
    .ok (.ofItems [2] (some "b")), .error (throttledFailure "list_users"), .ok (.last [3])]
    (.ofPool "pool") [5, 7, 9]

/-- A listing on a provider that throttles every call. -/
def starvedSetup : Setup Unit Nat where
  fetch _ store := (.now (.error (throttledFailure "list_users")), store)
  pace := .free
  operation := "list_users"
  request := .ofPool "pool"
  schedule := [5, 7]
  store := ()
  now := 0

theorem thrifty_and_starved :
    ((thriftySetup.run 15).waits = [5, 7] ∧
      (thriftySetup.run 15).calls.length = 5 ∧
      ∃ result, (thriftySetup.run 18).result? = some result) ∧
    (starvedSetup.run 9).calls.length = 3 ∧
    ∃ last, (starvedSetup.run 9).result? = some (.error ⟨[], .retriesExhausted 2 last⟩) := by
  refine ⟨?_, ?_⟩
  · have hcalm : Undisturbed thriftySetup.fetch thriftySetup.pace := ⟨rfl, rfl, fun _ _ => rfl⟩
    have hresult : (thriftySetup.run 15).result? = some (.ok [1, 2, 3]) := rfl
    have hpages : ∀ n, (thriftySetup.outcomes (thriftySetup.run n)).countP continues ≤ 2 := by
      intro n
      rcases Nat.lt_or_ge n 15 with hlt | hge
      · have hall : ∀ m < 15, (thriftySetup.outcomes (thriftySetup.run m)).countP continues ≤ 2 := by
          decide
        exact hall n hlt
      · obtain ⟨d, rfl⟩ : ∃ d, n = 15 + d := ⟨n - 15, by omega⟩
        rw [thriftySetup.run_add, Run.turns_ended (Run.ended_of_result hresult)]
        decide
    obtain ⟨hruns, hbounded, _⟩ := delays_bound_calls thriftySetup hcalm
    obtain ⟨hwaits, _, _, _, _, hcalls⟩ := hruns 15
    have hspent : (thriftySetup.run 15).waits = [5, 7] := by
      rw [hwaits]
      decide
    refine ⟨hspent, ?_, ?_⟩
    · rw [hcalls _ hresult, hspent]
      decide
    · obtain ⟨result, hr, _⟩ := hbounded 2 hpages 18 (by decide)
      exact ⟨result, hr⟩
  · have hcalm : Undisturbed starvedSetup.fetch starvedSetup.pace := ⟨rfl, rfl, fun _ _ => rfl⟩
    have hanswers : ∀ qs, ∀ o ∈ answers starvedSetup.fetch starvedSetup.store qs,
        throttled o = true := by
      intro qs
      induction qs with
      | nil => simp [answers]
      | cons q qs ih =>
        intro o ho
        rcases List.mem_cons.mp ho with rfl | hmem
        · rfl
        · exact ih o hmem
    have hnever : ∀ n, ∀ o ∈ starvedSetup.outcomes (starvedSetup.run n), throttled o = true := by
      intro n o ho
      exact hanswers _ o (List.mem_of_mem_take ho)
    exact (delays_bound_calls starvedSetup hcalm).2.2 hnever 9 (by decide)

end DirectoryGateway.Listing
