import DirectoryGateway.Listing.Pool
import DirectoryGateway.Proofs.Listing.Turn
import DirectoryGateway.Proofs.Provider.Redaction

/-!
# Listings from providers that differ in vendor detail

A traversal keeps nothing of a failure but its kind, so what the vendor said can only stand in the cause that a listing ends
with. Listings from providers that are alike therefore go on side by side: they make the same calls at the same times, gather
the same records and end together.
-/

namespace DirectoryGateway.Listing

open DirectoryGateway.Provider

variable {σ τ α : Type}

/-! ### Traversals -/

def Cause.redacted : Cause → Cause
  | .retriesExhausted retries last => .retriesExhausted retries last.redacted
  | .provider failure => .provider failure.redacted
  | .cancelled => .cancelled

def Step.redacted : Step → Step
  | .abort cause => .abort cause.redacted
  | step => step

theorem advance_redact (t : Traversal α) (o : PageOutcome α) :
    t.advance (redact o) = ((t.advance o).1, (t.advance o).2.redacted) := by
  cases o with
  | ok page =>
    cases hnext : page.next <;> simp [redact, Traversal.advance, Traversal.takePage, hnext, Step.redacted]
  | error failure =>
    cases hretryable : failure.retryable with
    | false =>
      simp [redact, Traversal.advance, Traversal.takeFailure, hretryable, Step.redacted, Cause.redacted]
    | true =>
      cases hschedule : t.schedule.take? <;>
        simp [redact, Traversal.advance, Traversal.takeFailure, hretryable, hschedule, Step.redacted,
          Cause.redacted]

/-! ### Walks -/

def redactResult : Result α → Result α
  | .ok items => .ok items
  | .error i => .error ⟨i.gathered, i.cause.redacted⟩

def Phase.redacted : Phase α → Phase α
  | .ended result => .ended (redactResult result)
  | phase => phase

def Event.redacted : Event α → Event α
  | .answered outcome => .answered (redact outcome)
  | e => e

namespace Walk

def redacted (w : Walk α) : Walk α :=
  { w with phase := w.phase.redacted }

theorem follow_redacted (t : Traversal α) (step : Step) :
    follow t step.redacted = ((follow t step).1.redacted, (follow t step).2) := by
  cases step <;> rfl

theorem answer_redacted (w : Walk α) (o : PageOutcome α) :
    w.redacted.answer (redact o) = ((w.answer o).1.redacted, (w.answer o).2) := by
  have hadvance : w.redacted.traversal.advance (redact o) = _ := advance_redact w.traversal o
  simp only [answer, hadvance, follow_redacted]
  cases o <;> rfl

theorem step_redacted (w : Walk α) (e : Event α) :
    w.redacted.step e.redacted = ((w.step e).1.redacted, (w.step e).2) := by
  obtain ⟨t, phase⟩ := w
  cases phase with
  | checking => cases e <;> rfl
  | calling =>
    cases e with
    | answered o => exact answer_redacted ⟨t, .calling⟩ o
    | _ => rfl
  | waiting delay => cases e <;> rfl
  | ended result => cases e <;> rfl

end Walk

/-! ### Runs -/

namespace Run

/-- What a run shows of itself: neither the state of its provider nor what the vendor said. -/
def shown (r : Run σ α) : Run Unit α :=
  ⟨r.walk.redacted, (), r.now, r.calls, r.waits, r.notes, r.dropped⟩

theorem shown_perform (operation : String) (r : Run σ α) (act : Act) :
    (r.perform operation act).shown = r.shown.perform operation act := by
  cases act <;> rfl

theorem shown_foldl_perform (operation : String) (acts : List Act) (r : Run σ α) :
    (acts.foldl (perform operation) r).shown = acts.foldl (perform operation) r.shown := by
  induction acts generalizing r with
  | nil => rfl
  | cons act acts ih => rw [List.foldl_cons, List.foldl_cons, ih, shown_perform]

theorem shown_move (operation : String) (r : Run σ α) (now : Nat) (e : Event α) :
    (r.move operation now e).shown = r.shown.move operation now e.redacted := by
  have hstep : r.shown.walk.step e.redacted = _ := r.walk.step_redacted e
  simp only [move, hstep, shown_foldl_perform]
  rfl

theorem shown_poll (pace : Pace) (operation : String) (r : Run σ α) (reply : Reply (Page α)) :
    ((r.poll pace operation reply).settle operation).shown =
      (r.shown.poll pace operation reply.redacted).settle operation := by
  have hcancels : reply.redacted.cancels = reply.cancels := rfl
  have hdelay : reply.redacted.delay = reply.delay := rfl
  have hnow : r.shown.now = r.now := rfl
  unfold poll
  rw [hcancels, hdelay, hnow]
  split
  · exact shown_move operation r r.now .cancelled
  · cases pace.arrival r.now (r.now + reply.delay) with
    | due => exact shown_move operation _ _ (.answered reply.outcome)
    | cancelled time => exact shown_move operation r time .cancelled
    | dropped time => rfl

/-- What a provider shows to a run in its next turn. -/
def asShown (fetch : PageCall σ α) (store : σ) : PageCall Unit α :=
  fun q _ => ((fetch q store).1.redacted, ())

theorem shown_turn (fetch : PageCall σ α) (pace : Pace) (operation : String) (r : Run σ α) :
    (r.turn fetch pace operation).shown = r.shown.turn (asShown fetch r.store) pace operation := by
  have hdropped : r.shown.dropped = r.dropped := rfl
  have hnow : r.shown.now = r.now := rfl
  have hphase : r.shown.walk.phase = r.walk.phase.redacted := rfl
  unfold turn look
  rw [hdropped, hnow, hphase]
  split
  · rfl
  · cases r.walk.phase with
    | checking =>
      simp only [Phase.redacted]
      cases pace.cancelBy r.now with
      | none => exact shown_move operation r r.now .clear
      | some time => exact shown_move operation r r.now .cancelled
    | calling => exact shown_poll pace operation _ _
    | waiting delay =>
      simp only [Phase.redacted]
      cases pace.arrival r.now (r.now + pace.rest delay) with
      | due => exact shown_move operation r _ .waited
      | cancelled time => exact shown_move operation r time .cancelled
      | dropped time => rfl
    | ended result => rfl

theorem calling_of_shown {r : Run σ α} {r' : Run τ α} (h : r.shown = r'.shown)
    (phase : r.walk.phase = .calling) : r'.walk.phase = .calling := by
  have hphase : r.walk.phase.redacted = r'.walk.phase.redacted := congrArg (·.walk.phase) h
  rw [phase] at hphase
  cases hphase' : r'.walk.phase with
  | calling => rfl
  | _ =>
    rw [hphase'] at hphase
    cases hphase

structure Alike (R : σ → τ → Prop) (r : Run σ α) (r' : Run τ α) : Prop where
  shown : r.shown = r'.shown
  store : R r.store r'.store

variable {R : σ → τ → Prop} {f : PageCall σ α} {f' : PageCall τ α} {r : Run σ α} {r' : Run τ α}

theorem Alike.turn (h : Alike R r r') (calls : PagesAlike R f f') (pace : Pace) (operation : String) :
    Alike R (r.turn f pace operation) (r'.turn f' pace operation) := by
  have hask : asShown f r.store = asShown f' r'.store := by
    funext q _
    rw [asShown, asShown, (calls q r.store r'.store h.store).1]
  have hdropped : r.dropped = r'.dropped := congrArg (·.dropped) h.shown
  have hrequest : r.walk.traversal.request = r'.walk.traversal.request :=
    congrArg (·.walk.traversal.request) h.shown
  refine ⟨?_, ?_⟩
  · rw [shown_turn, shown_turn, hask, h.shown]
  · by_cases hcalling : r.dropped = false ∧ r.walk.phase = .calling
    · have hcalling' : r'.dropped = false ∧ r'.walk.phase = .calling :=
        ⟨hdropped ▸ hcalling.1, calling_of_shown h.shown hcalling.2⟩
      rw [turn_store_calling hcalling.1 hcalling.2, turn_store_calling hcalling'.1 hcalling'.2, hrequest]
      exact (calls _ _ _ h.store).2
    · have hquiet : r'.dropped = false → r'.walk.phase ≠ .calling := fun awaited phase =>
        hcalling ⟨hdropped ▸ awaited, calling_of_shown h.shown.symm phase⟩
      rw [turn_store_quiet fun awaited phase => hcalling ⟨awaited, phase⟩, turn_store_quiet hquiet]
      exact h.store

theorem Alike.turns (h : Alike R r r') (calls : PagesAlike R f f') (pace : Pace) (operation : String)
    (n : Nat) : Alike R (r.turns f pace operation n) (r'.turns f' pace operation n) := by
  induction n generalizing r r' with
  | zero => exact h
  | succ n ih => exact ih (h.turn calls pace operation)

theorem result?_redacted (r : Run σ α) : r.result?.map redactResult = r.shown.result? := by
  have hphase : r.shown.walk.phase = r.walk.phase.redacted := rfl
  rw [result?, result?, hphase]
  cases r.walk.phase <;> rfl

end Run

theorem gather_alike {R : σ → τ → Prop} {f : PageCall σ α} {f' : PageCall τ α} (calls : PagesAlike R f f')
    (pace : Pace) (operation : String) (pagesLeft : Nat) (request : ListingRequest) (schedule : Backoff)
    {store : σ} {store' : τ} (related : R store store') (now : Nat) :
    Run.Alike R (gather f pace operation pagesLeft request schedule store now)
      (gather f' pace operation pagesLeft request schedule store' now) :=
  have start : Run.Alike R (Run.start (α := α) request schedule store now)
      (Run.start request schedule store' now) := ⟨rfl, related⟩
  start.turns calls pace operation _

end DirectoryGateway.Listing
