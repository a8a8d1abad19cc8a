import DirectoryGateway.Proofs.Listing.Heard

/-!
# Runs step by step

A step either goes through a whole turn, or it polls the call of a turn, and the next one takes in what the poll has brought. So
each point that steps lead to is one of a turn of some run, and what turns preserve can be told of it. In the middle of a turn a
run is as before it, but for the clock and the provider.
-/

namespace DirectoryGateway.Listing

open DirectoryGateway.Provider

variable {σ α : Type} {fetch : PageCall σ α} {pace : Pace} {operation : String}

/-! ### Points of turns -/

namespace Run

/-- A look leads through the whole turn, or to the middle of one that takes in a reply. -/
theorem look_cases (fetch : PageCall σ α) (pace : Pace) (operation : String) (r : Run σ α) :
    (r.look fetch pace operation = ⟨r.turn fetch pace operation, none⟩ ∧
        Turned fetch pace operation r none (r.turn fetch pace operation)) ∨
      (r.dropped = false ∧ r.walk.phase = .calling ∧ r.look fetch pace operation = r.polled fetch) := by
  have hturned := turned fetch pace operation r
  cases hbrought : (r.look fetch pace operation).brought with
  | none =>
    rw [hbrought] at hturned
    refine Or.inl ⟨?_, hturned⟩
    rw [turn, Point.settle, hbrought]
    generalize r.look fetch pace operation = p at hbrought
    cases p
    cases hbrought
    rfl
  | some reply =>
    have hcall : r.dropped = false ∧ r.walk.phase = .calling := by
      rw [hbrought] at hturned
      generalize r.turn fetch pace operation = r' at hturned
      cases hturned with
      | answered awaited phase => exact ⟨awaited, phase⟩
    refine Or.inr ⟨hcall.1, hcall.2, ?_⟩
    rw [look_calling hcall.1 hcall.2, poll] at hbrought ⊢
    split at hbrought
    · cases hbrought
    · next uncancelled =>
      rw [if_neg uncancelled]
      split at hbrought
      · rfl
      · cases hbrought
      · cases hbrought

/-- The points of a turn of a run: that before the turn, and that at which the poll has brought the reply of the call under
way. -/
inductive Within (fetch : PageCall σ α) (r : Run σ α) : Point σ α → Prop where
  | before : Within fetch r ⟨r, none⟩
  | midway (awaited : r.dropped = false) (phase : r.walk.phase = .calling) (cancels : Bool) :
    Within fetch r
      ⟨(r.polled fetch).run, some { (fetch r.walk.traversal.request r.store).1 with cancels := cancels }⟩

/-- A turn changes nothing but the clock and the provider until its last step. -/
theorem Within.kept {r : Run σ α} {p : Point σ α} (h : r.Within fetch p) :
    p.run = { r with store := p.run.store, now := p.run.now } := by
  cases h <;> rfl

end Run

/-! ### Steps -/

namespace Point

variable {p : Point σ α}

theorem steps_add (p : Point σ α) (n m : Nat) :
    p.steps fetch pace operation (n + m) = (p.steps fetch pace operation n).steps fetch pace operation m := by
  induction n generalizing p with
  | zero =>
    rw [Nat.zero_add]
    rfl
  | succ n ih =>
    rw [Nat.succ_add, steps, ih]
    rfl

/-- A point of a run that has ended is the last one. -/
theorem steps_ended {r : Run σ α} {result : Result α} (h : r.walk.phase = .ended result) (n : Nat) :
    (⟨r, none⟩ : Point σ α).steps fetch pace operation n = ⟨r, none⟩ := by
  induction n with
  | zero => rfl
  | succ n ih =>
    rw [steps, step, Run.look_ended h]
    exact ih

/-- The replies that steps take in. -/
def taken (fetch : PageCall σ α) (pace : Pace) (operation : String) :
    Nat → Point σ α → List (Reply (Page α))
  | 0, _ => []
  | n + 1, p => p.brought.toList ++ taken fetch pace operation n (p.step fetch pace operation)

/-- What is known of a run and the replies that it has taken in holds at each point of its next turn. -/
def At (fetch : PageCall σ α) (P : Run σ α → List (Reply (Page α)) → Prop) (p : Point σ α)
    (replies : List (Reply (Page α))) : Prop :=
  ∃ r, P r replies ∧ r.Within fetch p

/-- What turns preserve, with the replies that they take in. -/
structure Preserved (fetch : PageCall σ α) (pace : Pace) (operation : String)
    (P : Run σ α → List (Reply (Page α)) → Prop) : Prop where
  quiet : ∀ {r r' replies}, P r replies → r.turn fetch pace operation = r' →
    Run.Turned fetch pace operation r none r' → P r' replies
  answered : ∀ {r replies}, P r replies → r.dropped = false → r.walk.phase = .calling → ∀ cancels,
    P (r.answered fetch operation)
      (replies ++ [{ (fetch r.walk.traversal.request r.store).1 with cancels := cancels }])

variable {P : Run σ α → List (Reply (Page α)) → Prop} {replies : List (Reply (Page α))}

theorem At.step (preserved : Preserved fetch pace operation P) (h : p.At fetch P replies) :
    (p.step fetch pace operation).At fetch P (replies ++ p.brought.toList) := by
  obtain ⟨r, hr, within⟩ := h
  cases within with
  | before =>
    rw [Option.toList_none, List.append_nil]
    rcases r.look_cases fetch pace operation with ⟨hlook, hturned⟩ | ⟨awaited, phase, hlook⟩
    · refine ⟨_, preserved.quiet hr rfl hturned, ?_⟩
      rw [Point.step, hlook]
      exact .before
    · refine ⟨r, hr, ?_⟩
      rw [Point.step, hlook]
      exact .midway awaited phase _
  | midway awaited phase cancels => exact ⟨_, preserved.answered hr awaited phase cancels, .before⟩

/-- What turns preserve holds at each point that steps lead to. -/
theorem At.steps (preserved : Preserved fetch pace operation P) (h : p.At fetch P replies) (n : Nat) :
    (p.steps fetch pace operation n).At fetch P (replies ++ p.taken fetch pace operation n) := by
  induction n generalizing p replies with
  | zero =>
    rw [taken, List.append_nil]
    exact h
  | succ n ih =>
    rw [Point.steps, taken, ← List.append_assoc]
    exact ih (h.step preserved)

end Point

/-! ### Listings -/

namespace Setup

/-- The listing after `n` steps. -/
def point (s : Setup σ α) (n : Nat) : Point σ α :=
  (⟨s.run 0, none⟩ : Point σ α).steps s.fetch s.pace s.operation n

theorem point_add (s : Setup σ α) (n m : Nat) :
    s.point (n + m) = (s.point n).steps s.fetch s.pace s.operation m :=
  Point.steps_add _ n m

theorem point_succ (s : Setup σ α) (n : Nat) :
    s.point (n + 1) = (s.point n).step s.fetch s.pace s.operation :=
  s.point_add n 1

/-- Every turn is made in one step or two. -/
theorem exists_point (s : Setup σ α) (n : Nat) : ∃ k, n ≤ k ∧ k ≤ 2 * n ∧ s.point k = ⟨s.run n, none⟩ := by
  induction n with
  | zero => exact ⟨0, Nat.le_refl 0, Nat.le_refl 0, rfl⟩
  | succ n ih =>
    obtain ⟨k, hnk, hkn, hk⟩ := ih
    have hnext := s.point_succ k
    rw [hk] at hnext
    rcases (s.run n).look_cases s.fetch s.pace s.operation with ⟨hlook, -⟩ | ⟨awaited, phase, hlook⟩
    · refine ⟨k + 1, by omega, by omega, ?_⟩
      rw [hnext, s.run_succ]
      exact hlook
    · refine ⟨k + 2, by omega, by omega, ?_⟩
      rw [s.point_succ (k + 1), hnext, s.run_succ, Run.turn, Point.step, hlook]
      exact congrArg (fun p : Point σ α => p.step s.fetch s.pace s.operation) hlook

end Setup

theorem preserved_heard (s : Setup σ α) :
    Point.Preserved s.fetch s.pace s.operation fun r replies => Heard s r (replies.map Reply.outcome) where
  quiet h _ hturned := by
    cases hturned with
    | idle still => exact h
    | clear awaited phase => exact h.clear awaited phase
    | waited awaited delay phase => exact h.waited awaited phase
    | cancelled awaited live store time disturbed => exact h.cancelled awaited live disturbed store time
    | dropped store time disturbed => exact h.dropped disturbed store time
  answered h awaited phase cancels := by
    rw [List.map_append]
    exact h.answered awaited phase

end DirectoryGateway.Listing
