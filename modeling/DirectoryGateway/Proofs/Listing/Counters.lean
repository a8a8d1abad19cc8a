import DirectoryGateway.Proofs.Listing.Cancellation
import DirectoryGateway.Proofs.Listing.Kinds
import DirectoryGateway.Proofs.Listing.Throttling
import DirectoryGateway.Proofs.Telemetry.Counting

/-!
# What a listing is counted as

A run takes in a reply if the poll of its call has brought it before the listing was found cancelled and before the deadline. The
counter of pages goes up with each page that is taken in, and the counter of retries with each wait that is begun; of the other
counters a run enters nothing but what the provider observes of its calls. This holds at every point of every run, whenever it
is cancelled.
-/

namespace DirectoryGateway.Listing

open DirectoryGateway.Provider
open DirectoryGateway.Telemetry (Counter Ledger Note)

variable {σ α : Type}

/-! ### What acts enter -/

/-- What pages and retries of an operation add to a counter. -/
def share (operation : String) (pages retries : Nat) : Counter → Nat
  | .pages name => if name = operation then pages else 0
  | .retries name => if name = operation then retries else 0
  | _ => 0

theorem share_zero (operation : String) (c : Counter) : share operation 0 0 c = 0 := by
  cases c <;> simp [share]

theorem share_add (operation : String) (pages retries pages' retries' : Nat) (c : Counter) :
    share operation (pages + pages') (retries + retries') c =
      share operation pages retries c + share operation pages' retries' c := by
  cases c with
  | pages name => by_cases own : name = operation <;> simp [share, own]
  | retries name => by_cases own : name = operation <;> simp [share, own]
  | _ => rfl

def tally (notes : List Note) (c : Counter) : Nat :=
  (notes.map Note.counter).count c

theorem value_tally (l : Ledger) (notes : List Note) (c : Counter) :
    (l.noteAll notes).value c = l.value c + tally notes c :=
  l.value_noteAll notes c

theorem tally_append (notes notes' : List Note) (c : Counter) :
    tally (notes ++ notes') c = tally notes c + tally notes' c := by
  rw [tally, List.map_append, List.count_append]
  rfl

theorem tally_page (operation : String) (c : Counter) :
    tally [.page operation] c = share operation 1 0 c := by
  rw [tally, List.map_singleton, List.count_singleton]
  cases c with
  | pages name => by_cases own : name = operation <;> simp [Note.counter, share, own, eq_comm (a := operation)]
  | _ => simp [Note.counter, share]

theorem tally_retry (operation : String) (c : Counter) :
    tally [.retry operation] c = share operation 0 1 c := by
  rw [tally, List.map_singleton, List.count_singleton]
  cases c with
  | retries name => by_cases own : name = operation <;> simp [Note.counter, share, own, eq_comm (a := operation)]
  | _ => simp [Note.counter, share]

/-- What an answer leads to enters the page that came in, and the wait that is begun. -/
theorem Walk.tally_answer (w : Walk α) (o : PageOutcome α) (operation : String) (c : Counter) :
    tally ((w.answer o).2.filterMap (Act.note? operation)) c =
      share operation ([o].countP isPage) ((w.answer o).2.filterMap Act.delay?).length c := by
  obtain ⟨r, hr, h⟩ := w.traversal.advance_cases o
  simp only [answer, hr]
  cases h with
  | page page cursor next => exact tally_page operation c
  | lastPage page next => exact tally_page operation c
  | throttle failure delay rest retryable left => exact tally_retry operation c
  | exhausted failure retryable left => exact (share_zero operation c).symm
  | hard failure retryable => exact (share_zero operation c).symm

/-! ### Replies that are taken in -/

/-- A run that has taken in `replies` has heard nothing else, and is counted as what they are. -/
structure Counted (s : Setup σ α) (r : Run σ α) (replies : List (Reply (Page α))) : Prop where
  heard : Heard s r (replies.map Reply.outcome)
  tallied : ∀ c, tally r.notes c =
    tally (replies.flatMap Reply.notes) c +
      share s.operation ((replies.map Reply.outcome).countP isPage) r.waits.length c
  scheduled : r.waits ++ r.walk.traversal.schedule = s.schedule
  told : ∀ reply ∈ replies, ∃ q store, reply.notes = (s.fetch q store).1.notes

namespace Counted

variable {s : Setup σ α} {r : Run σ α} {replies : List (Reply (Page α))}

/-- A turn that begins no wait and enters nothing takes in nothing. -/
theorem silent (h : Counted s r replies) {r' : Run σ α} (heard : Heard s r' (replies.map Reply.outcome))
    (notes : r'.notes = r.notes) (waits : r'.waits = r.waits)
    (scheduled : r'.waits ++ r'.walk.traversal.schedule = r.waits ++ r.walk.traversal.schedule) :
    Counted s r' replies := by
  refine ⟨heard, ?_, scheduled.trans h.scheduled, h.told⟩
  rw [notes, waits]
  exact h.tallied

theorem clear (h : Counted s r replies) (awaited : r.dropped = false) (phase : r.walk.phase = .checking) :
    Counted s (r.move s.operation r.now .clear) replies := by
  have hwaits : (r.move s.operation r.now .clear).waits = r.waits := by
    rw [Run.move_waits, Walk.step_clear _ phase]
    exact List.append_nil _
  apply h.silent (h.heard.clear awaited phase) _ hwaits
  · rw [hwaits, Run.move_walk, Walk.step_clear _ phase]
  · rw [Run.move_notes, Walk.step_clear _ phase]
    exact List.append_nil _

theorem waited (h : Counted s r replies) (awaited : r.dropped = false) {delay time : Nat}
    (phase : r.walk.phase = .waiting delay) :
    Counted s (r.move s.operation time .waited) replies := by
  have hwaits : (r.move s.operation time .waited).waits = r.waits := by
    rw [Run.move_waits, Walk.step_waited _ _ phase]
    exact List.append_nil _
  apply h.silent (h.heard.waited awaited phase) _ hwaits
  · rw [hwaits, Run.move_walk, Walk.step_waited _ _ phase]
  · rw [Run.move_notes, Walk.step_waited _ _ phase]
    exact List.append_nil _

theorem cancelled (h : Counted s r replies) (awaited : r.dropped = false) (live : r.Live)
    (disturbed : ¬ Undisturbed s.fetch s.pace) (store : σ) (time : Nat) :
    Counted s ({ r with store := store }.move s.operation time .cancelled) replies := by
  have hmove := Run.move_cancelled s.operation { r with store := store } time live
  apply h.silent (h.heard.cancelled awaited live disturbed store time)
  · rw [hmove]
  · rw [hmove]
  · rw [hmove]
    rfl

theorem dropped (h : Counted s r replies) (disturbed : ¬ Undisturbed s.fetch s.pace) (store : σ) (time : Nat) :
    Counted s { r with store := store, now := time, dropped := true } replies :=
  h.silent (h.heard.dropped disturbed store time) rfl rfl rfl

theorem answered (h : Counted s r replies) (awaited : r.dropped = false) (phase : r.walk.phase = .calling)
    (cancels : Bool) :
    Counted s (r.answered s.fetch s.operation)
      (replies ++ [{ (s.fetch r.walk.traversal.request r.store).1 with cancels := cancels }]) := by
  have hheard := h.heard.answered awaited phase
  have hschedule : (r.answered s.fetch s.operation).waits ++
      (r.answered s.fetch s.operation).walk.traversal.schedule = r.waits ++ r.walk.traversal.schedule :=
    Run.answered_schedule phase
  have hnotes : (r.answered s.fetch s.operation).notes =
      (r.notes ++ (s.fetch r.walk.traversal.request r.store).1.notes) ++
        (r.walk.answer (s.fetch r.walk.traversal.request r.store).1.outcome).2.filterMap
          (Act.note? s.operation) := by
    rw [Run.answered, Run.move_notes, Walk.step_answered _ _ phase]
  have hwaits : (r.answered s.fetch s.operation).waits = r.waits ++
      (r.walk.answer (s.fetch r.walk.traversal.request r.store).1.outcome).2.filterMap Act.delay? :=
    Run.answered_delays phase
  have htold : ∃ q store, (s.fetch r.walk.traversal.request r.store).1.notes = (s.fetch q store).1.notes :=
    ⟨_, _, rfl⟩
  generalize r.answered s.fetch s.operation = r' at hheard hschedule hnotes hwaits ⊢
  generalize (s.fetch r.walk.traversal.request r.store).1 = reply at hheard hnotes hwaits htold ⊢
  refine ⟨?_, ?_, hschedule.trans h.scheduled, ?_⟩
  · rw [List.map_append]
    exact hheard
  · intro c
    have htallied := h.tallied c
    have hanswer := r.walk.tally_answer reply.outcome s.operation c
    rw [hnotes, hwaits, tally_append, tally_append, List.flatMap_append, tally_append, List.map_append,
      List.countP_append, List.length_append, share_add, List.flatMap_singleton, List.map_singleton]
    dsimp only
    omega
  · intro reply' hreply'
    rcases List.mem_append.mp hreply' with hbefore | hnew
    · exact h.told reply' hbefore
    · rw [List.mem_singleton] at hnew
      rw [hnew]
      exact htold

theorem value (h : Counted s r replies) (l : Ledger) (c : Counter) :
    (l.noteAll r.notes).value c = (l.noteAll (replies.flatMap Reply.notes)).value c +
      share s.operation ((replies.map Reply.outcome).countP isPage) r.waits.length c := by
  rw [value_tally, value_tally, h.tallied c, Nat.add_assoc]

/-- A run has begun the waits that its throttled calls took from the schedule. -/
theorem waits_eq (h : Counted s r replies) :
    r.waits = s.schedule.take (throttles (replies.map Reply.outcome)) := by
  have hscheduled := h.scheduled
  have hleft : r.walk.traversal.schedule = s.schedule.drop (throttles (replies.map Reply.outcome)) := by
    rw [h.heard.traversal]
    exact Traversal.after_schedule _ _
  rw [hleft] at hscheduled
  exact List.append_cancel_right (hscheduled.trans (List.take_append_drop _ s.schedule).symm)

end Counted

/-! ### Runs -/

/-- What turns of a listing preserve, turns of it preserve in which its calls cancel something else. -/
theorem preserved_counted (s : Setup σ α) {fetch : PageCall σ α} {pace : Pace} (calls : quiet fetch = quiet s.fetch)
    (calm : Undisturbed s.fetch s.pace → Undisturbed fetch pace) :
    Point.Preserved fetch pace s.operation (Counted s) where
  quiet h _ hturned := by
    cases hturned with
    | idle still => exact h
    | clear awaited phase => exact h.clear awaited phase
    | waited awaited delay phase => exact h.waited awaited phase
    | cancelled awaited live store time disturbed =>
      exact h.cancelled awaited live (fun undisturbed => disturbed (calm undisturbed)) store time
    | dropped store time disturbed =>
      exact h.dropped (fun undisturbed => disturbed (calm undisturbed)) store time
  answered {r replies} h awaited phase cancels := by
    have hcall : ∀ q store, { (fetch q store).1 with cancels := cancels } =
        { (s.fetch q store).1 with cancels := cancels } := by
      intro q store
      have hquiet := congrArg (fun call => ({ (call q store).1 with cancels := cancels } : Reply (Page α))) calls
      exact hquiet
    have hanswered : r.answered fetch s.operation = r.answered s.fetch s.operation := by
      show r.answered (quiet fetch) s.operation = r.answered (quiet s.fetch) s.operation
      rw [calls]
    rw [hcall, hanswered]
    exact h.answered awaited phase cancels

namespace Setup

/-- The replies that `n` steps without cancellation and `m` steps in which it may come take in. -/
def taken (s : Setup σ α) (n m : Nat) : List (Reply (Page α)) :=
  (⟨s.run 0, none⟩ : Point σ α).taken s.uncancelled.fetch s.uncancelled.pace s.operation n ++
    (s.uncancelled.point n).taken s.fetch s.pace s.operation m

end Setup

theorem counted_cancelled (s : Setup σ α) (n m : Nat) :
    (s.cancelled n m).At s.fetch (Counted s) (s.taken n m) := by
  have hstart : (⟨s.run 0, none⟩ : Point σ α).At s.uncancelled.fetch (Counted s) [] := by
    refine ⟨_, ⟨heard_start s, ?_, rfl, ?_⟩, .before⟩
    · intro c
      exact ((Nat.zero_add _).trans (share_zero s.operation c)).symm
    · intro reply hreply
      cases hreply
  have hquiet : Point.Preserved s.uncancelled.fetch s.uncancelled.pace s.operation (Counted s) :=
    preserved_counted s rfl fun calm => undisturbed_quiet s.fetch calm.awaited
  have hloud : Point.Preserved s.fetch s.pace s.operation (Counted s) := preserved_counted s rfl id
  obtain ⟨r, counted, within⟩ := hstart.steps hquiet n
  have hpoint : (s.uncancelled.point n).At s.fetch (Counted s) _ := ⟨r, counted, within.of_quiet⟩
  exact hpoint.steps hloud m

/-! ### Providers that observe their calls alone -/

/-- Nothing but calls is observed of the replies of a provider. -/
def Reticent (fetch : PageCall σ α) : Prop :=
  ∀ q store, ∀ note ∈ (fetch q store).1.notes, ∃ operation outcome nanos, note = .providerCall operation outcome nanos

theorem reticent_script (c : Source) : Reticent (Script.pages c) := by
  intro q store note hnote
  rw [pages_unnoted] at hnote
  cases hnote

theorem Counted.tally_reticent {s : Setup σ α} {r : Run σ α} {replies : List (Reply (Page α))}
    (h : Counted s r replies) (reticent : Reticent s.fetch) {c : Counter}
    (other : ∀ operation outcome, c ≠ .providerCalls operation outcome) :
    tally (replies.flatMap Reply.notes) c = 0 := by
  rw [tally, List.count_eq_zero]
  intro hc
  obtain ⟨note, hnote, rfl⟩ := List.mem_map.mp hc
  obtain ⟨reply, hreply, hnote⟩ := List.mem_flatMap.mp hnote
  obtain ⟨q, store, htold⟩ := h.told reply hreply
  rw [htold] at hnote
  obtain ⟨operation, outcome, nanos, rfl⟩ := reticent q store note hnote
  exact other operation outcome rfl

/-! ### Outcomes that come too late -/

/-- Of the outcomes of its calls a run has taken in all, or all but the last; what it gave this one up for is a
cancellation, if it has ended. -/
theorem Heard.given_up {s : Setup σ α} {r : Run σ α} {os : List (PageOutcome α)} (h : Heard s r os) :
    answers s.fetch s.store r.requests = os ∨
      ∃ late, answers s.fetch s.store r.requests = os ++ [late] ∧
        ∀ result, r.result? = some result → wasCancelled result = true := by
  have hanswers : ∀ qs, (qs = asked s.traversal.request os ∨
      qs = asked s.traversal.request os ++ [(s.traversal.after os).request]) →
        answers s.fetch s.store qs = os ∨ ∃ late, answers s.fetch s.store qs = os ++ [late] := by
    rintro qs (rfl | rfl)
    · exact Or.inl h.told
    · rw [answers_append, h.told]
      exact Or.inr ⟨_, rfl⟩
  cases hr : r.result? with
  | none =>
    obtain ⟨-, hmade⟩ := h.stage.made_of_live (Run.live_of_result hr)
    rcases hanswers _ hmade with hall | ⟨late, hlate⟩
    · exact Or.inl hall
    · exact Or.inr ⟨late, hlate, fun result hresult => nomatch hresult⟩
  | some result =>
    have hs := h.stage
    rw [Run.ended_of_result hr] at hs
    generalize r.requests = qs at hs ⊢
    cases hs with
    | finished onward o result ends => exact Or.inl h.told
    | cancelled onward qs made disturbance =>
      rcases hanswers _ made with hall | ⟨late, hlate⟩
      · exact Or.inl hall
      · refine Or.inr ⟨late, hlate, ?_⟩
        intro result hresult
        cases hresult
        rfl

/-! ### Ledgers -/

/-- At every point of a listing, whenever it is cancelled, the counter of its pages has gone up by the pages whose records it
has gathered, that of its retries by the waits that it has begun, and nothing else is counted but what is observed of the
provider. Waits are begun after throttled calls that there is a delay for, and an outcome that comes too late is no part of the
listing. -/
theorem counters_tell_the_truth (s : Setup σ α) (n m : Nat) (l : Ledger) :
    let r := (s.cancelled n m).run
    let outcomes := (s.taken n m).map Reply.outcome
    (∀ c, (l.noteAll r.notes).value c =
      (l.noteAll ((s.taken n m).flatMap Reply.notes)).value c +
        share s.operation (outcomes.countP isPage) r.waits.length c) ∧
    (Reticent s.fetch → ∀ name,
      (l.noteAll r.notes).value (.pages name) =
          l.value (.pages name) + (if name = s.operation then outcomes.countP isPage else 0) ∧
        (l.noteAll r.notes).value (.retries name) =
          l.value (.retries name) + if name = s.operation then r.waits.length else 0) ∧
    (∀ result, r.result? = some result → gatheredIn result = records outcomes) ∧
    r.waits = s.schedule.take (throttles outcomes) ∧
    (answers s.fetch s.store r.requests = outcomes ∨
      ∃ late, answers s.fetch s.store r.requests = outcomes ++ [late] ∧
        ∀ result, r.result? = some result → wasCancelled result = true) := by
  obtain ⟨r, counted, within⟩ := counted_cancelled s n m
  dsimp only
  -- In the middle of a turn a run has what it had before.
  rw [within.kept]
  have hvalue := fun c => counted.value l c
  refine ⟨hvalue, ?_, ?_, counted.waits_eq, counted.heard.given_up⟩
  · intro reticent name
    have hpages := counted.tally_reticent reticent (c := .pages name) (fun _ _ h => nomatch h)
    have hretries := counted.tally_reticent reticent (c := .retries name) (fun _ _ h => nomatch h)
    have hpage := hvalue (.pages name)
    have hretry := hvalue (.retries name)
    rw [value_tally l ((s.taken n m).flatMap Reply.notes), hpages] at hpage
    rw [value_tally l ((s.taken n m).flatMap Reply.notes), hretries] at hretry
    exact ⟨hpage, hretry⟩
  · intro result hresult
    have hstage := counted.heard.stage
    rw [Run.ended_of_result hresult] at hstage
    rw [hstage.gathered]
    exact Traversal.start_after_items s.request s.schedule _

/-- A listing that waits once, and is cancelled at the moment when its first page comes. -/
def lateSetup : Setup Nat Nat where
  fetch := played fun
    | 0 => ⟨1, .error (throttledFailure "list_users"), [], false⟩
    | 1 => ⟨2, .ok (.ofItems [1, 2] (some "a")), [], false⟩
    | _ => ⟨4, .ok (.last [3]), [], false⟩
  pace := ⟨some 8, none, id⟩
  operation := "list_users"
  request := .ofPool "pool"
  schedule := [5, 7]
  store := 0
  now := 0

/-- The page is lost, and not counted, if the poll that would bring it finds that the listing was cancelled. If the cancellation
comes behind the look of this poll, the page is taken in and counted. -/
theorem late_page_is_counted_if_kept :
    (lateSetup.cancelled 0 20).run.result? = some (.error ⟨[], .cancelled⟩) ∧
      (Ledger.empty.noteAll (lateSetup.cancelled 0 20).run.notes).value (.pages "list_users") = 0 ∧
      (lateSetup.cancelled 6 20).run.result? = some (.error ⟨[1, 2], .cancelled⟩) ∧
      (lateSetup.cancelled 6 20).run.requests.length = 2 ∧
      (Ledger.empty.noteAll (lateSetup.cancelled 6 20).run.notes).value (.pages "list_users") = 1 ∧
      (Ledger.empty.noteAll (lateSetup.cancelled 6 20).run.notes).value (.retries "list_users") = 1 ∧
      (Ledger.empty.noteAll (lateSetup.cancelled 6 20).run.notes).value (.pages "list_groups") = 0 := by
  obtain ⟨-, hlost, -, -, -⟩ := counters_tell_the_truth lateSetup 0 20 Ledger.empty
  obtain ⟨-, hkept, -, hwaits, -⟩ := counters_tell_the_truth lateSetup 6 20 Ledger.empty
  have reticent : Reticent lateSetup.fetch := by
    intro q store note hnote
    have hnone : (lateSetup.fetch q store).1.notes = [] := by
      match store with
      | 0 => rfl
      | 1 => rfl
      | _ + 2 => rfl
    rw [hnone] at hnote
    cases hnote
  have hnoPage : ((lateSetup.taken 0 20).map Reply.outcome).countP isPage = 0 := rfl
  have hpage : ((lateSetup.taken 6 20).map Reply.outcome).countP isPage = 1 := rfl
  have hretries : (lateSetup.cancelled 6 20).run.waits.length = 1 := by
    rw [hwaits]
    rfl
  obtain ⟨hlostUsers, -⟩ := hlost reticent "list_users"
  obtain ⟨husers, hwaited⟩ := hkept reticent "list_users"
  obtain ⟨hgroups, -⟩ := hkept reticent "list_groups"
  rw [hnoPage] at hlostUsers
  rw [hpage] at husers hgroups
  rw [hretries] at hwaited
  exact ⟨rfl, hlostUsers, rfl, rfl, husers, hwaited, hgroups⟩

end DirectoryGateway.Listing
