import DirectoryGateway.Proofs.Listing.Completion
import DirectoryGateway.Remote.Service

/-!
# What a listing asks for

The requests of a run are told by the outcomes between them: a throttled call is made again as it was, and a page is
followed by the call with its cursor. Pool and group never change, and an empty cursor is never asked for.
-/

namespace DirectoryGateway.Listing

open DirectoryGateway.Provider

variable {σ α : Type}

/-! ### Requests and outcomes -/

/-- A page that was made with the cursor that came with it. -/
def Built (page : Page α) : Prop :=
  ∃ items cursor, page = .ofItems items cursor

theorem properCursor_ne_empty (cursor : Option String) : properCursor cursor ≠ some "" := by
  cases cursor with
  | none => simp [properCursor]
  | some c =>
    by_cases h : c = ""
    · simp [properCursor, h]
    · simp [properCursor, h]

theorem properCursor_eq_some {cursor : Option String} {token : String}
    (h : properCursor cursor = some token) : cursor = some token ∧ token ≠ "" := by
  cases cursor with
  | none => simp [properCursor] at h
  | some c =>
    by_cases hc : c = ""
    · simp [properCursor, hc] at h
    · simp only [properCursor, hc, ↓reduceIte, Option.some.injEq] at h
      rw [← h]
      exact ⟨rfl, hc⟩

theorem built_next_ne_empty {page : Page α} (h : Built page) : page.next ≠ some "" := by
  obtain ⟨items, cursor, rfl⟩ := h
  exact properCursor_ne_empty cursor

theorem nextRequest_addressed (q : ListingRequest) (o : PageOutcome α) :
    (nextRequest q o).pool = q.pool ∧ (nextRequest q o).group = q.group := by
  cases o with
  | ok page =>
    cases hn : page.next <;> simp [nextRequest, hn]
  | error failure => exact ⟨rfl, rfl⟩

theorem nextRequest_cursor_ne_empty {q : ListingRequest} {o : PageOutcome α}
    (hq : q.cursor ≠ some "") (built : ∀ page, o = .ok page → Built page) :
    (nextRequest q o).cursor ≠ some "" := by
  cases o with
  | ok page =>
    have hnext := built_next_ne_empty (built page rfl)
    cases hn : page.next with
    | none => simpa [nextRequest, hn] using hq
    | some cursor =>
      rw [hn] at hnext
      simpa [nextRequest, hn] using hnext
  | error failure => exact hq

theorem asked_addressed (q : ListingRequest) (os : List (PageOutcome α)) :
    ∀ q' ∈ asked q os, q'.pool = q.pool ∧ q'.group = q.group := by
  induction os generalizing q with
  | nil => simp [asked]
  | cons o os ih =>
    intro q' hq'
    rcases List.mem_cons.mp hq' with rfl | hmem
    · exact ⟨rfl, rfl⟩
    · obtain ⟨hpool, hgroup⟩ := ih (nextRequest q o) q' hmem
      obtain ⟨hpool', hgroup'⟩ := nextRequest_addressed q o
      exact ⟨hpool.trans hpool', hgroup.trans hgroup'⟩

theorem asked_cursor_ne_empty {q : ListingRequest} {os : List (PageOutcome α)}
    (hq : q.cursor ≠ some "") (built : ∀ page, .ok page ∈ os → Built page) :
    ∀ q' ∈ asked q os, q'.cursor ≠ some "" := by
  induction os generalizing q with
  | nil => simp [asked]
  | cons o os ih =>
    intro q' hq'
    rcases List.mem_cons.mp hq' with rfl | hmem
    · exact hq
    · have ho : ∀ page, o = .ok page → Built page := by
        intro page h
        exact built page (by rw [h]; exact List.mem_cons_self)
      exact ih (nextRequest_cursor_ne_empty hq ho) (fun page h => built page (List.mem_cons_of_mem _ h))
        q' hmem

theorem asked_head {q q' : ListingRequest} {os : List (PageOutcome α)}
    (h : (asked q os)[0]? = some q') : q' = q := by
  cases os with
  | nil => simp [asked] at h
  | cons o os =>
    simp only [asked, List.getElem?_cons_zero, Option.some.injEq] at h
    exact h.symm

/-- A request comes from the one before it by the outcome of the call that this was made with. -/
theorem asked_succ {q a b : ListingRequest} {os : List (PageOutcome α)} {i : Nat}
    (ha : (asked q os)[i]? = some a) (hb : (asked q os)[i + 1]? = some b) :
    ∃ o, os[i]? = some o ∧ b = nextRequest a o := by
  induction os generalizing q i with
  | nil => simp [asked] at ha
  | cons o os ih =>
    cases i with
    | zero =>
      simp only [asked, List.getElem?_cons_zero, Option.some.injEq] at ha
      simp only [asked, List.getElem?_cons_succ] at hb
      refine ⟨o, by simp, ?_⟩
      rw [asked_head hb, ha]
    | succ i =>
      simp only [asked, List.getElem?_cons_succ] at ha hb ⊢
      exact ih ha hb

theorem properCursor_eq_ite (cursor : Option String) :
    properCursor cursor = if cursor = some "" then none else cursor := by
  cases cursor with
  | none => rfl
  | some c => simp [properCursor]

/-- What is asked for after an outcome that a listing goes on from. -/
theorem nextRequest_cases (q : ListingRequest) {o : PageOutcome α}
    (goesOn : continues o = true ∨ throttled o = true) (built : ∀ page, o = .ok page → Built page) :
    (∃ failure, o = .error failure ∧ failure.retryable = true ∧
      (nextRequest q o).cursor = q.cursor) ∨
    (∃ items token, o = .ok (.ofItems items (some token)) ∧ token ≠ "" ∧
      (nextRequest q o).cursor = some token) := by
  cases o with
  | ok page =>
    obtain ⟨items, cursor, rfl⟩ := built page rfl
    have hsome : (properCursor cursor).isSome = true := by
      simpa [continues, throttled, Page.ofItems] using goesOn
    obtain ⟨token, htoken⟩ := Option.isSome_iff_exists.mp hsome
    obtain ⟨rfl, hne⟩ := properCursor_eq_some htoken
    refine Or.inr ⟨items, token, rfl, hne, ?_⟩
    simp only [nextRequest, Page.ofItems, htoken]
  | error failure =>
    have hr : failure.retryable = true := by simpa [continues, throttled] using goesOn
    exact Or.inl ⟨failure, rfl, hr, rfl⟩

/-! ### Providers -/

theorem answers_built {fetch : PageCall σ α}
    (h : ∀ q store page, (fetch q store).1.outcome = .ok page → Built page)
    (store : σ) (qs : List ListingRequest) : ∀ page, .ok page ∈ answers fetch store qs → Built page := by
  induction qs generalizing store with
  | nil => simp [answers]
  | cons q qs ih =>
    intro page hpage
    rcases List.mem_cons.mp hpage with hq | hqs
    · exact h q store page hq.symm
    · exact ih _ page hqs

theorem readAnswer_eq_ok {operation : Operation} {read : Json.Raw → Option α}
    {answer : Option Remote.Answer} {value : α}
    (h : Remote.readAnswer operation read answer = .ok value) : ∃ document, read document = some value := by
  unfold Remote.readAnswer at h
  split at h
  · contradiction
  · split at h
    · split at h
      · rename_i found
        obtain ⟨document, _, hread⟩ := Option.bind_eq_some_iff.mp found
        simp only [Except.ok.injEq] at h
        rw [h] at hread
        exact ⟨document, hread⟩
      · contradiction
    · contradiction

theorem call_built {read : Json.Raw → Option (Page α)}
    (h : ∀ document page, read document = some page → Built page) (request : Remote.Sent)
    (l : Remote.Line) (page : Page α) (hpage : (l.call read request).1.outcome = .ok page) :
    Built page := by
  have hresult : (Remote.readAnswer request.operation read (l.answers.head?.bind id)).mapError
      (Remote.Refusal.failure l.wording request.operation (l.answers.head?.bind id)) = .ok page := hpage
  cases hanswer : Remote.readAnswer request.operation read (l.answers.head?.bind id) with
  | error refusal =>
    rw [hanswer] at hresult
    contradiction
  | ok value =>
    rw [hanswer] at hresult
    obtain ⟨document, hread⟩ := readAnswer_eq_ok hanswer
    simp only [Except.mapError, Except.ok.injEq] at hresult
    rw [hresult] at hread
    exact h document page hread

/-- The pool service makes its pages with the cursors that come with them. -/
theorem remote_pages_built (pageSize : Int) (q : ListingRequest) (l : Remote.Line) :
    (∀ page, ((Remote.service pageSize).groups q l).1.outcome = .ok page → Built page) ∧
    (∀ page, ((Remote.service pageSize).users q l).1.outcome = .ok page → Built page) ∧
    (∀ page, ((Remote.service pageSize).members q l).1.outcome = .ok page → Built page) := by
  have hgroups : ∀ document page, Remote.readGroups document = some page → Built page := by
    intro document page h
    obtain ⟨⟨items, token⟩, _, hpage⟩ := Option.bind_eq_some_iff.mp h
    exact ⟨items, token, (Option.some.inj hpage).symm⟩
  have husers : ∀ operation document page, Remote.readUsers operation document = some page →
      Built page := by
    intro operation document page h
    obtain ⟨⟨items, token⟩, _, hpage⟩ := Option.bind_eq_some_iff.mp h
    exact ⟨items, token, (Option.some.inj hpage).symm⟩
  exact ⟨call_built hgroups _ l, call_built (husers _) _ l, call_built (husers _) _ l⟩

/-! ### Runs -/

theorem Stage.made_by {t : Traversal α} {disturbed : Prop} {phase : Phase α}
    {os : List (PageOutcome α)} {qs : List ListingRequest} (h : Stage t disturbed phase os qs) :
    (qs = asked t.request os ∧ t.Onward os.dropLast) ∨
      (qs = asked t.request os ++ [(t.after os).request] ∧ t.Onward os) := by
  cases h with
  | checking onward => exact Or.inl ⟨rfl, onward.dropLast⟩
  | calling onward => exact Or.inr ⟨rfl, onward⟩
  | waiting onward delay => exact Or.inl ⟨rfl, onward.dropLast⟩
  | finished onward o result ends =>
    rw [List.dropLast_concat]
    exact Or.inl ⟨rfl, onward⟩
  | cancelled onward qs made disturbance =>
    rcases made with hqs | hqs
    · exact Or.inl ⟨hqs, onward.dropLast⟩
    · exact Or.inr ⟨hqs, onward⟩

/-- The requests of a run are those that the outcomes of its calls lead to, and none but the last of these ends its
traversal. -/
theorem Heard.asks {s : Setup σ α} {r : Run σ α} {os : List (PageOutcome α)} (h : Heard s r os) :
    r.requests = asked s.traversal.request (answers s.fetch s.store r.requests) ∧
      s.traversal.Onward (answers s.fetch s.store r.requests).dropLast := by
  have htold := h.told
  rcases h.stage.made_by with ⟨hqs, hon⟩ | ⟨hqs, hon⟩
  · rw [hqs, htold]
    exact ⟨rfl, hon⟩
  · -- The last call has not come to its outcome, or was given up.
    rw [hqs, answers_append, htold]
    simp only [answers]
    rw [asked_concat, List.dropLast_concat]
    exact ⟨rfl, hon⟩

theorem heard_run (s : Setup σ α) (n : Nat) : ∃ os, Heard s (s.run n) os := by
  obtain ⟨os, _, hos⟩ := (heard_start s).turns n
  exact ⟨os, hos⟩

/-- In every run, however it is cancelled or given up, each call after the first follows a page with a cursor, and asks
for this cursor, or a throttled call, and repeats it. The first asks for the cursor that the listing was given. -/
theorem requests_follow_outcomes (s : Setup σ α) (n : Nat)
    (built : ∀ page, .ok page ∈ answers s.fetch s.store (s.run n).requests → Built page) :
    (∀ q ∈ (s.run n).requests,
      q.pool = s.request.pool ∧ q.group = s.request.group ∧ q.cursor ≠ some "") ∧
    (∀ q, (s.run n).requests[0]? = some q →
      q.cursor = if s.request.cursor = some "" then none else s.request.cursor) ∧
    (∀ i q q', (s.run n).requests[i]? = some q → (s.run n).requests[i + 1]? = some q' →
      (∃ failure, (answers s.fetch s.store (s.run n).requests)[i]? = some (.error failure) ∧
        failure.retryable = true ∧ q'.cursor = q.cursor) ∨
      (∃ items token, (answers s.fetch s.store (s.run n).requests)[i]? =
          some (.ok (.ofItems items (some token))) ∧
        token ≠ "" ∧ q'.cursor = some token)) := by
  obtain ⟨os, hos⟩ := heard_run s n
  obtain ⟨hasks, hon⟩ := hos.asks
  generalize (s.run n).requests = qs at built hasks hon ⊢
  generalize answers s.fetch s.store qs = os at built hasks hon ⊢
  have hstart : s.traversal.request = { s.request with cursor := properCursor s.request.cursor } :=
    rfl
  rw [hasks]
  refine ⟨?_, ?_, ?_⟩
  · intro q hq
    obtain ⟨hpool, hgroup⟩ := asked_addressed _ _ q hq
    exact ⟨hpool, hgroup, asked_cursor_ne_empty (properCursor_ne_empty _) built q hq⟩
  · intro q hq
    rw [asked_head hq, hstart]
    exact properCursor_eq_ite s.request.cursor
  · intro i q q' hq hq'
    obtain ⟨o, ho, hnext⟩ := asked_succ hq hq'
    have hlater : i < os.length - 1 := by
      obtain ⟨hi, _⟩ := List.getElem?_eq_some_iff.mp hq'
      rw [asked_length] at hi
      omega
    have hlast : o ∈ os.dropLast := by
      refine List.mem_of_getElem? (i := i) ?_
      rw [List.getElem?_dropLast, if_pos hlater, ho]
    have hpage : ∀ page, o = .ok page → Built page := by
      intro page hpage
      rw [hpage] at ho
      exact built page (List.mem_of_getElem? ho)
    rw [ho, hnext]
    rcases nextRequest_cases q (hon.goes_on o hlast) hpage with
      ⟨failure, rfl, hr, hcursor⟩ | ⟨items, token, rfl, hne, hcursor⟩
    · exact Or.inl ⟨failure, rfl, hr, hcursor⟩
    · exact Or.inr ⟨items, token, rfl, hne, hcursor⟩

/-- A listing that is given an empty cursor, with one throttled call. -/
def fromEmptyCursor : Setup Nat Nat :=
  .ofScript [.ok (.ofItems [1] (some "a")), .error (throttledFailure "list_users"),
    .ok (.ofItems [2] (some "b")), .ok (.ofItems [3] (some ""))] ⟨"pool", none, some ""⟩ [5]

theorem fromEmptyCursor_requests :
    (∀ q ∈ (fromEmptyCursor.run 12).requests, q.cursor ≠ some "") ∧
    (∀ q, (fromEmptyCursor.run 12).requests[0]? = some q → q.cursor = none) ∧
    (fromEmptyCursor.run 12).requests.map ListingRequest.cursor = [none, some "a", some "a", some "b"] := by
  have hbuilt : ∀ page, .ok page ∈ answers fromEmptyCursor.fetch fromEmptyCursor.store
      (fromEmptyCursor.run 12).requests → Built page := by
    have hanswers : answers fromEmptyCursor.fetch fromEmptyCursor.store
        (fromEmptyCursor.run 12).requests = [.ok (.ofItems [1] (some "a")),
          .error (throttledFailure "list_users"), .ok (.ofItems [2] (some "b")),
          .ok (.ofItems [3] (some ""))] := rfl
    intro page hpage
    rw [hanswers] at hpage
    simp only [List.mem_cons, Except.ok.injEq, reduceCtorEq, false_or, List.not_mem_nil,
      or_false] at hpage
    rcases hpage with rfl | rfl | rfl
    · exact ⟨_, _, rfl⟩
    · exact ⟨_, _, rfl⟩
    · exact ⟨_, _, rfl⟩
  obtain ⟨hall, hfirst, _⟩ := requests_follow_outcomes fromEmptyCursor 12 hbuilt
  exact ⟨fun q hq => (hall q hq).2.2, hfirst, rfl⟩

end DirectoryGateway.Listing
