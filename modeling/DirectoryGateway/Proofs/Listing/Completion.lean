import DirectoryGateway.Proofs.Listing.Heard
import DirectoryGateway.Provider.Script

/-!
# How an undisturbed listing comes to its end

The calls of a run come to a stream of outcomes. An undisturbed run takes in this stream outcome by outcome, and ends
at the first one that `verdict` gives a result for, with that result and with no call more. Nothing in a run depends on
the number of turns it is given, as long as they are enough for its calls.
-/

namespace DirectoryGateway.Listing

open DirectoryGateway.Provider

variable {σ α : Type}

/-! ### Streams -/

def firsts (o : Nat → PageOutcome α) (n : Nat) : List (PageOutcome α) :=
  (List.range n).map o

@[simp] theorem firsts_length (o : Nat → PageOutcome α) (n : Nat) : (firsts o n).length = n := by
  simp [firsts]

theorem firsts_succ (o : Nat → PageOutcome α) (n : Nat) : firsts o (n + 1) = firsts o n ++ [o n] := by
  simp [firsts, List.range_succ]

theorem firsts_of_isPrefix {o : Nat → PageOutcome α} {os : List (PageOutcome α)} {n : Nat}
    (h : os <+: firsts o n) : os = firsts o os.length := by
  have hle := h.length_le
  rw [firsts_length] at hle
  have ht := List.prefix_iff_eq_take.mp h
  rw [firsts, ← List.map_take, List.take_range, Nat.min_eq_left hle] at ht
  exact ht

/-- The calls of a listing come to the outcomes of a stream, however many turns it makes. -/
def Setup.Hears (s : Setup σ α) (o : Nat → PageOutcome α) : Prop :=
  ∀ n, answers s.fetch s.store (s.run n).requests = firsts o (s.run n).calls.length

theorem exists_hears (s : Setup σ α) : ∃ o, s.Hears o := by
  have hcall : ∀ i, ∃ o, ∀ n, i < (s.run n).calls.length →
      (answers s.fetch s.store (s.run n).requests)[i]? = some o := by
    intro i
    by_cases h : ∃ n, i < (s.run n).calls.length
    · obtain ⟨n, hn⟩ := h
      have hlen : i < (answers s.fetch s.store (s.run n).requests).length := by simpa using hn
      refine ⟨(answers s.fetch s.store (s.run n).requests)[i], ?_⟩
      intro m hm
      have hlen' : i < (answers s.fetch s.store (s.run m).requests).length := by simpa using hm
      rw [List.getElem?_eq_getElem hlen', Option.some.injEq]
      rcases Nat.le_total n m with hle | hle
      · exact ((s.answers_run hle).getElem hlen).symm
      · exact (s.answers_run hle).getElem hlen'
    · refine ⟨.ok (.last []), ?_⟩
      intro n hn
      exact absurd ⟨n, hn⟩ h
  choose o ho using hcall
  refine ⟨o, ?_⟩
  intro n
  apply List.ext_getElem?
  intro i
  by_cases hi : i < (s.run n).calls.length
  · rw [ho i n hi]
    simp [firsts, hi]
  · rw [List.getElem?_eq_none (by simpa using hi), List.getElem?_eq_none (by simpa using hi)]

/-- A provider that plays replies, whatever it is asked for. -/
def played (replies : Nat → Reply (Page α)) : PageCall Nat α :=
  fun _ i => (replies i, i + 1)

theorem answers_played (replies : Nat → Reply (Page α)) (qs : List ListingRequest) (i : Nat) :
    answers (played replies) i qs = firsts (fun n => (replies (i + n)).outcome) qs.length := by
  induction qs generalizing i with
  | nil => rfl
  | cons q qs ih =>
    have hshift : ∀ n, i + 1 + n = i + (n + 1) := by omega
    have hplayed : played replies q i = (replies i, i + 1) := rfl
    rw [answers, hplayed, ih]
    simp [firsts, List.range_succ_eq_map, hshift]

theorem hears_played (replies : Nat → Reply (Page α)) (pace : Pace) (operation : String)
    (request : ListingRequest) (schedule : Backoff) (now : Nat) :
    Setup.Hears ⟨played replies, pace, operation, request, schedule, 0, now⟩
      (fun n => (replies n).outcome) := by
  intro n
  rw [answers_played, Run.requests_length]
  simp

/-- An undisturbed listing whose calls come to the outcomes of a script. -/
structure Setup.Plays (s : Setup σ α) (script : List (PageOutcome α)) : Prop where
  calm : Undisturbed s.fetch s.pace
  stream : ∃ o, s.Hears o ∧ firsts o script.length = script

/-- A listing on the provider that plays a script, and then empty last pages. -/
def Setup.ofScript (script : List (PageOutcome α)) (request : ListingRequest) (schedule : Backoff) :
    Setup Nat α where
  fetch := played fun n => .now (script.getD n (.ok (.last [])))
  pace := .free
  operation := "list_users"
  request := request
  schedule := schedule
  store := 0
  now := 0

theorem plays_ofScript (script : List (PageOutcome α)) (request : ListingRequest)
    (schedule : Backoff) : (Setup.ofScript script request schedule).Plays script where
  calm := ⟨rfl, rfl, fun _ _ => rfl⟩
  stream := by
    refine ⟨_, hears_played _ _ _ _ _ _, ?_⟩
    apply List.ext_getElem
    · simp
    · intro n hn hn'
      simp [firsts, Reply.now, hn']

theorem Traversal.onward_firsts (t : Traversal α) (o : Nat → PageOutcome α) (n : Nat) :
    t.Onward (firsts o n) ↔ ∀ i < n, (t.after (firsts o i)).ends (o i) = none := by
  induction n with
  | zero =>
    refine ⟨?_, fun _ => t.onward_nil⟩
    intro _ i hi
    omega
  | succ n ih =>
    rw [firsts_succ, Traversal.onward_concat, ih]
    constructor
    · rintro ⟨hbefore, hlast⟩ i hi
      rcases Nat.lt_or_eq_of_le (Nat.le_of_lt_succ hi) with h | rfl
      · exact hbefore i h
      · exact hlast
    · intro h
      exact ⟨fun i hi => h i (by omega), h n (by omega)⟩

theorem onward_of_verdicts (request : ListingRequest) (schedule : Backoff) (o : Nat → PageOutcome α)
    (n : Nat) (h : ∀ i < n, verdict schedule.length (firsts o i) (o i) = none) :
    (Traversal.start request schedule).Onward (firsts o n) := by
  induction n with
  | zero => exact Traversal.onward_nil _
  | succ n ih =>
    have hon := ih fun i hi => h i (by omega)
    rw [firsts_succ, Traversal.onward_concat]
    refine ⟨hon, ?_⟩
    rw [Traversal.ends_eq_verdict request schedule _ _ hon.throttles_le]
    exact h n (by omega)

/-! ### Progress -/

/-- The turns made are no more than the outcomes taken in and the phase account for: a call is checked, made and
waited after. -/
def Phase.Accounts (turns outcomes : Nat) : Phase α → Prop
  | .checking => turns ≤ 3 * outcomes
  | .calling => turns ≤ 3 * outcomes + 1
  | .waiting _ => turns + 1 ≤ 3 * outcomes
  | .ended _ => True

variable {s : Setup σ α}

theorem Walk.answer_accounts (w : Walk α) (o : PageOutcome α) (n a : Nat) (h : n ≤ 3 * a + 1) :
    (w.answer o).1.phase.Accounts (n + 1) (a + 1) := by
  rcases w.answer_phase o with ⟨result, _, hphase⟩ | ⟨_, hphase | ⟨delay, hphase⟩⟩
  · simp [hphase, Phase.Accounts]
  · simp only [hphase, Phase.Accounts]
    omega
  · simp only [hphase, Phase.Accounts]
    omega

/-- A run that is not dropped goes on until it has ended: each turn brings it closer to the next outcome. -/
theorem heard_progress (s : Setup σ α) (n : Nat) :
    ∃ os, Heard s (s.run n) os ∧
      ((s.run n).dropped = false → (s.run n).walk.phase.Accounts n os.length) := by
  induction n with
  | zero => exact ⟨[], heard_start s, fun _ => Nat.le_refl 0⟩
  | succ n ih =>
    obtain ⟨os, hos, hn⟩ := ih
    rw [s.run_succ]
    generalize s.run n = r at hos hn ⊢
    obtain ⟨_, r', hr', hturned⟩ := Run.turn_cases s.fetch s.pace s.operation r
    rw [hr']
    cases hturned with
    | idle still =>
      refine ⟨os, hos, ?_⟩
      intro awaited
      rcases still with hd | hl
      · rw [awaited] at hd
        contradiction
      · simp only [Run.Live, not_forall, not_not] at hl
        obtain ⟨result, hl⟩ := hl
        rw [hl]
        exact trivial
    | clear awaited phase =>
      refine ⟨os, hos.clear awaited phase, ?_⟩
      intro _
      have haccounts := hn awaited
      rw [phase] at haccounts
      rw [Run.move_walk, Walk.step_clear _ phase]
      exact Nat.succ_le_succ haccounts
    | answered awaited phase =>
      refine ⟨_, hos.answered awaited phase, ?_⟩
      intro _
      have haccounts := hn awaited
      rw [phase] at haccounts
      rw [Run.answered_walk phase, List.length_append]
      exact Walk.answer_accounts _ _ n os.length haccounts
    | waited awaited delay phase =>
      refine ⟨os, hos.waited awaited phase, ?_⟩
      intro _
      have haccounts := hn awaited
      rw [phase] at haccounts
      rw [Run.move_walk, Walk.step_waited _ _ phase]
      exact haccounts
    | cancelled awaited live store time disturbed =>
      refine ⟨os, hos.cancelled awaited live disturbed store time, ?_⟩
      intro _
      rw [Run.move_cancelled s.operation { r with store := store } time live]
      exact trivial
    | dropped store time disturbed =>
      refine ⟨os, hos.dropped disturbed store time, ?_⟩
      intro awaited
      contradiction

theorem heard_undisturbed (calm : Undisturbed s.fetch s.pace) (n : Nat) :
    ∃ os, Heard s (s.run n) os ∧ (s.run n).walk.phase.Accounts n os.length := by
  obtain ⟨os, hos, haccounts⟩ := heard_progress s n
  exact ⟨os, hos, haccounts (hos.awaited calm)⟩

/-- Turns that are more than enough for the calls of a listing leave none under way. -/
theorem Heard.live_turns {r : Run σ α} {os : List (PageOutcome α)} (h : Heard s r os) (live : r.Live)
    {bound n : Nat} (pages : os.countP continues ≤ bound) (turns : r.walk.phase.Accounts n os.length) :
    n < turnsOfCalls (bound + s.schedule.length + 1) := by
  obtain ⟨hon, -⟩ := h.stage.made_of_live live
  have hlength := length_eq_of_goes_on hon.goes_on
  have hfits : throttles os ≤ s.schedule.length := hon.throttles_le
  have hle : n ≤ 3 * os.length + 1 := by
    cases hphase : r.walk.phase with
    | checking =>
      rw [hphase] at turns
      exact Nat.le_succ_of_le turns
    | calling =>
      rw [hphase] at turns
      exact turns
    | waiting delay =>
      rw [hphase] at turns
      have hturns : n + 1 ≤ 3 * os.length := turns
      omega
    | ended result => exact absurd hphase (live result)
  rw [turnsOfCalls]
  omega

/-- A listing comes to an end or is dropped, if no more pages have a cursor than it is made for. -/
theorem ended_or_dropped (s : Setup σ α) {pagesLeft : Nat}
    (pages : ∀ qs, (answers s.fetch s.store qs).countP continues ≤ pagesLeft) :
    (∃ result, (s.run (turnsOfCalls (pagesLeft + s.schedule.length + 1))).result? = some result) ∨
      (s.run (turnsOfCalls (pagesLeft + s.schedule.length + 1))).dropped = true := by
  obtain ⟨os, hos, haccounts⟩ := heard_progress s (turnsOfCalls (pagesLeft + s.schedule.length + 1))
  cases hd : (s.run (turnsOfCalls (pagesLeft + s.schedule.length + 1))).dropped with
  | true => exact Or.inr rfl
  | false =>
    cases hr : (s.run (turnsOfCalls (pagesLeft + s.schedule.length + 1))).result? with
    | some result => exact Or.inl ⟨result, rfl⟩
    | none =>
      have hpages := pages (asked s.traversal.request os)
      rw [hos.told] at hpages
      have hturns := hos.live_turns (Run.live_of_result hr) hpages (haccounts hd)
      omega

/-- A listing ends with the verdict of the last outcome that it has taken in, if it is not cancelled. -/
theorem Heard.ended_cases {r : Run σ α} {os : List (PageOutcome α)} (h : Heard s r os)
    {result : Result α} (hr : r.result? = some result) :
    (∃ before stop, os = before ++ [stop] ∧ s.traversal.Onward before ∧
      verdict s.schedule.length before stop = some result ∧ r.calls.length = before.length + 1) ∨
    (¬ Undisturbed s.fetch s.pace ∧ ∃ gathered, result = .error ⟨gathered, .cancelled⟩) := by
  have hs := h.stage
  rw [Run.ended_of_result hr] at hs
  rw [← Run.requests_length]
  generalize r.requests = qs at hs ⊢
  cases hs with
  | @finished before onward stop result ends =>
    have hverdict := Traversal.ends_eq_verdict s.request s.schedule before stop onward.throttles_le
    refine Or.inl ⟨before, stop, rfl, onward, ?_, by simp⟩
    rw [← hverdict]
    exact ends
  | cancelled onward qs made disturbed => exact Or.inr ⟨disturbed, _, rfl⟩

/-! ### The end -/

/-- An undisturbed run that has made enough turns has ended at the first outcome that ends its traversal. -/
theorem Heard.finished (calm : Undisturbed s.fetch s.pace) {r : Run σ α}
    {os : List (PageOutcome α)} (h : Heard s r os) {o : Nat → PageOutcome α}
    (stream : os = firsts o os.length) {j n : Nat} {result : Result α}
    (onward : s.traversal.Onward (firsts o j))
    (ends : (s.traversal.after (firsts o j)).ends (o j) = some result)
    (turns : r.walk.phase.Accounts n os.length) (enough : turnsOfCalls (j + 1) ≤ n) :
    r.walk.phase = .ended result ∧ r.requests = asked s.traversal.request (firsts o (j + 1)) := by
  -- No listing goes on behind the outcome that ends it.
  have hle : ∀ a, s.traversal.Onward (firsts o a) → a ≤ j := by
    intro a ha
    by_contra hlt
    have hnone := (s.traversal.onward_firsts o a).mp ha j (by omega)
    rw [ends] at hnone
    contradiction
  simp only [turnsOfCalls] at enough
  have hs := h.stage
  generalize r.walk.phase = phase at hs turns ⊢
  generalize r.requests = qs at hs ⊢
  -- In every phase but the last the turns made are fewer than `n`.
  cases hs with
  | checking hon =>
    rw [stream] at hon
    have ha := hle _ hon
    simp only [Phase.Accounts] at turns
    omega
  | calling hon =>
    rw [stream] at hon
    have ha := hle _ hon
    simp only [Phase.Accounts] at turns
    omega
  | waiting hon delay =>
    rw [stream] at hon
    have ha := hle _ hon
    simp only [Phase.Accounts] at turns
    omega
  | @finished before hon last result' hends =>
    rw [List.length_append, List.length_singleton, firsts_succ] at stream
    obtain ⟨hbefore, hlast⟩ := List.append_inj' stream rfl
    simp only [List.cons.injEq, and_true] at hlast
    rw [hbefore] at hon hends
    have ha := hle _ hon
    have hj : before.length = j := by
      by_contra hne
      have hnone := (s.traversal.onward_firsts o j).mp onward before.length (by omega)
      rw [← hlast, hends] at hnone
      contradiction
    rw [hj, hlast, hj, ends] at hends
    simp only [Option.some.injEq] at hends
    rw [stream, hj, hends, firsts_succ]
    exact ⟨rfl, rfl⟩
  | cancelled hon qs made disturbed => exact absurd calm disturbed

theorem finished_of_hears (calm : Undisturbed s.fetch s.pace) {o : Nat → PageOutcome α}
    (hears : s.Hears o) {before : List (PageOutcome α)} {stop : PageOutcome α} {result : Result α}
    (stream : firsts o (before.length + 1) = before ++ [stop]) (onward : s.traversal.Onward before)
    (ends : (s.traversal.after before).ends stop = some result)
    {n : Nat} (enough : turnsOfCalls (before.length + 1) ≤ n) :
    (s.run n).result? = some result ∧
      (s.run n).requests = asked s.traversal.request (before ++ [stop]) := by
  obtain ⟨os, hos, haccounts⟩ := heard_undisturbed calm n
  have hprefix := hos.isPrefix
  rw [hears n] at hprefix
  have hcut := stream
  rw [firsts_succ] at hcut
  obtain ⟨hbefore, hstop⟩ := List.append_inj' hcut rfl
  simp only [List.cons.injEq, and_true] at hstop
  rw [← hbefore] at onward
  rw [← hbefore, ← hstop] at ends
  obtain ⟨hphase, hrequests⟩ := hos.finished calm (firsts_of_isPrefix hprefix) onward ends haccounts
    enough
  rw [stream] at hrequests
  exact ⟨by rw [Run.result?, hphase], hrequests⟩

theorem Setup.Plays.finished {s : Setup σ α} {before rest : List (PageOutcome α)}
    {stop : PageOutcome α} {result : Result α} (plays : s.Plays (before ++ stop :: rest))
    (onward : s.traversal.Onward before)
    (ends : verdict s.schedule.length before stop = some result)
    {n : Nat} (enough : turnsOfCalls (before.length + 1) ≤ n) :
    (s.run n).result? = some result ∧
      (s.run n).requests = asked s.traversal.request (before ++ [stop]) := by
  obtain ⟨o, hears, hscript⟩ := plays.stream
  have hcut : before ++ [stop] <+: before ++ stop :: rest :=
    ⟨rest, by rw [List.append_assoc, List.singleton_append]⟩
  have hstream : firsts o (before.length + 1) = before ++ [stop] := by
    rw [← hscript] at hcut
    have h := firsts_of_isPrefix hcut
    rw [List.length_append, List.length_singleton] at h
    exact h.symm
  rw [← Traversal.ends_eq_verdict s.request s.schedule _ _ onward.throttles_le] at ends
  exact finished_of_hears plays.calm hears hstream onward ends enough

/-- An undisturbed listing ends at the first outcome of its stream that has a verdict, with this verdict, and the call
that came to this outcome is its last. A bound on the pages with a cursor is all that `gather` needs for it. -/
theorem result_of_stream (s : Setup σ α) (calm : Undisturbed s.fetch s.pace)
    (o : Nat → PageOutcome α) (hears : s.Hears o) (j : Nat) (result : Result α)
    (before : ∀ i < j, verdict s.schedule.length (firsts o i) (o i) = none)
    (stop : verdict s.schedule.length (firsts o j) (o j) = some result) :
    (∀ n, turnsOfCalls (j + 1) ≤ n →
      (s.run n).result? = some result ∧ (s.run n).calls.length = j + 1) ∧
    (∀ pagesLeft, (firsts o j).countP continues ≤ pagesLeft →
      (gather s.fetch s.pace s.operation pagesLeft s.request s.schedule s.store s.now).result? =
          some result ∧
        (gather s.fetch s.pace s.operation pagesLeft s.request s.schedule s.store
          s.now).calls.length = j + 1) := by
  have hon := onward_of_verdicts s.request s.schedule o j before
  rw [← Traversal.ends_eq_verdict s.request s.schedule _ _ hon.throttles_le] at stop
  have hstream : firsts o ((firsts o j).length + 1) = firsts o j ++ [o j] := by
    rw [firsts_length, firsts_succ]
  have hall : ∀ n, turnsOfCalls (j + 1) ≤ n →
      (s.run n).result? = some result ∧ (s.run n).calls.length = j + 1 := by
    intro n hn
    have hn' : turnsOfCalls ((firsts o j).length + 1) ≤ n := by rwa [firsts_length]
    obtain ⟨hresult, hrequests⟩ := finished_of_hears calm hears hstream hon stop hn'
    refine ⟨hresult, ?_⟩
    rw [← Run.requests_length, hrequests, asked_length, List.length_append, firsts_length]
    rfl
  refine ⟨hall, ?_⟩
  intro pagesLeft hpages
  have hlength := length_eq_of_goes_on hon.goes_on
  have hthrottles := hon.throttles_le
  rw [firsts_length] at hlength
  rw [s.gather_eq_run]
  refine hall _ ?_
  simp only [turnsOfCalls]
  omega

/-- Pages, one of them empty, and throttled calls in turns, until a throttled call finds no delay left. -/
def interleaved : Nat → PageOutcome Nat
  | 0 => .ok (.ofItems [1, 2] (some "a"))
  | 1 => .error (throttledFailure "list_users")
  | 2 => .ok (.ofItems [] (some "b"))
  | 3 => .ok (.ofItems [3] (some "c"))
  | _ => .error (throttledFailure "list_users")

def interleavedSetup : Setup Nat Nat where
  fetch := played fun n => .now (interleaved n)
  pace := .free
  operation := "list_users"
  request := .ofPool "pool"
  schedule := [5]
  store := 0
  now := 0

theorem interleaved_exhausts :
    (interleavedSetup.run 15).result? =
      some (.error ⟨[1, 2, 3], .retriesExhausted 1 (throttledFailure "list_users")⟩) ∧
    (interleavedSetup.run 15).calls.length = 5 := by
  have hcalm : Undisturbed interleavedSetup.fetch interleavedSetup.pace :=
    ⟨rfl, rfl, fun _ _ => rfl⟩
  have hbefore : ∀ i < 4, verdict 1 (firsts interleaved i) (interleaved i) = none := by
    intro i hi
    match i, hi with
    | 0, _ => rfl
    | 1, _ => rfl
    | 2, _ => rfl
    | 3, _ => rfl
  exact (result_of_stream interleavedSetup hcalm interleaved (hears_played _ _ _ _ _ _) 4 _
    hbefore rfl).1 15 (by decide)

end DirectoryGateway.Listing
