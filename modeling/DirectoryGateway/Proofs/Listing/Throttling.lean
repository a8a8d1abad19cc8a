import DirectoryGateway.Proofs.Listing.Completion

/-!
# Throttled calls among the calls of a listing

Throttled calls put between the pages of a listing show in its requests, where each repeats the one it is made with,
and nowhere else, as long as there is a delay for each of them. With fewer delays the listing ends early, at a page
boundary.
-/

namespace DirectoryGateway.Listing

open DirectoryGateway.Provider

variable {σ τ α : Type}

/-! ### Scripts -/

/-- Outcomes with `m` throttled calls put in. -/
inductive Inserted : Nat → List (PageOutcome α) → List (PageOutcome α) → Prop where
  | nil : Inserted 0 [] []
  | keep {m : Nat} {os os' : List (PageOutcome α)} (o : PageOutcome α) (rest : Inserted m os os') :
    Inserted m (o :: os) (o :: os')
  | insert {m : Nat} {os os' : List (PageOutcome α)} (failure : Failure)
      (retryable : failure.retryable = true) (rest : Inserted m os os') :
    Inserted (m + 1) os (.error failure :: os')

/-- Pages that others follow, and the outcome that ends a listing after them, no call being throttled. -/
structure Smooth (before : List (PageOutcome α)) (stop : PageOutcome α) : Prop where
  pages : ∀ o ∈ before, continues o = true
  ends : continues stop = false
  unthrottled : throttled stop = false

/-- Requests in which that of each throttled call is repeated. -/
def stretch : List (PageOutcome α) → List ListingRequest → List ListingRequest
  | o :: os, q :: qs => q :: stretch os (if throttled o then q :: qs else qs)
  | _, _ => []

/-- The records that a result comes with. -/
def gatheredIn : Result α → List α
  | .ok items => items
  | .error i => i.gathered

theorem gatheredIn_of_ends {t : Traversal α} {o : PageOutcome α} {result : Result α}
    (h : t.ends o = some result) : gatheredIn result = (t.advance o).1.items := by
  obtain ⟨r, hr, hadv⟩ := t.advance_cases o
  rw [Traversal.ends, hr] at h
  rw [hr]
  cases hadv with
  | page page cursor next => cases h
  | throttle failure delay rest retryable left => cases h
  | lastPage page next =>
    cases h
    rfl
  | exhausted failure retryable left =>
    cases h
    rfl
  | hard failure retryable =>
    cases h
    rfl

/-- However a listing ends, its result comes with the records of the pages that it has taken in. -/
theorem Stage.gathered {t : Traversal α} {disturbed : Prop} {os : List (PageOutcome α)} {qs : List ListingRequest}
    {result : Result α} (h : Stage t disturbed (.ended result) os qs) : gatheredIn result = (t.after os).items := by
  cases h with
  | finished onward o result ends =>
    rw [gatheredIn_of_ends ends, Traversal.after_concat]
  | cancelled onward qs made disturbance => rfl

namespace Inserted

variable {m : Nat} {os os' : List (PageOutcome α)}

theorem records_eq (h : Inserted m os os') : records os' = records os := by
  induction h with
  | nil => rfl
  | keep o rest ih => simp_all [records]
  | insert failure retryable rest ih => simpa [records, recordsOf] using ih

theorem throttles_eq (h : Inserted m os os') : throttles os' = throttles os + m := by
  induction h with
  | nil => rfl
  | keep o rest ih =>
    simp only [throttles, List.countP_cons] at ih ⊢
    omega
  | insert failure retryable rest ih =>
    simp only [throttles, List.countP_cons, throttled, retryable] at ih ⊢
    simp only [↓reduceIte]
    omega

theorem length_eq (h : Inserted m os os') : os'.length = os.length + m := by
  induction h with
  | nil => rfl
  | keep o rest ih =>
    simp only [List.length_cons]
    omega
  | insert failure retryable rest ih =>
    simp only [List.length_cons]
    omega

theorem continues_or_throttled (h : Inserted m os os') (pages : ∀ o ∈ os, continues o = true) :
    ∀ o ∈ os', continues o = true ∨ throttled o = true := by
  induction h with
  | nil => simp
  | keep o rest ih =>
    simp only [List.mem_cons, forall_eq_or_imp] at pages ⊢
    exact ⟨Or.inl pages.1, ih pages.2⟩
  | insert failure retryable rest ih =>
    simp only [List.mem_cons, forall_eq_or_imp]
    exact ⟨Or.inr retryable, ih pages⟩

/-- A throttled call is repeated as it was made, and the pages lead to the same requests as without it. -/
theorem asked_eq (h : Inserted m os os') (pages : ∀ o ∈ os, continues o = true)
    (q : ListingRequest) (stop : PageOutcome α) :
    asked q (os' ++ [stop]) = stretch (os' ++ [stop]) (asked q (os ++ [stop])) := by
  induction h generalizing q with
  | nil => rfl
  | keep o rest ih =>
    simp only [List.mem_cons, forall_eq_or_imp] at pages
    have hkept := throttled_of_continues pages.1
    simp only [List.cons_append, asked, stretch, hkept, Bool.false_eq_true, ↓reduceIte]
    rw [ih pages.2]
  | @insert _ os os' failure retryable rest ih =>
    obtain ⟨qs, hqs⟩ : ∃ qs, asked q (os ++ [stop]) = q :: qs := by
      cases os <;> exact ⟨_, rfl⟩
    have hrepeat : throttled (.error failure : PageOutcome α) = true := retryable
    have hnext : nextRequest q (.error failure : PageOutcome α) = q := rfl
    -- The throttled call uses up none of the requests of `os`.
    rw [List.cons_append, asked, hnext, ih pages q, hqs, stretch, if_pos hrepeat]

end Inserted

/-! ### Throttled calls and the end of a listing -/

theorem throttles_of_unthrottled {os : List (PageOutcome α)} (h : ∀ o ∈ os, throttled o = false) :
    throttles os = 0 := by
  rw [throttles, List.countP_eq_zero]
  intro o ho
  simp [h o ho]

/-- An outcome that is not throttled ends a listing no matter how many calls before it were. -/
theorem verdict_of_unthrottled {stop : PageOutcome α} (h : throttled stop = false)
    {os os' : List (PageOutcome α)} (same : records os' = records os) (k k' : Nat) :
    verdict k' os' stop = verdict k os stop := by
  cases stop with
  | ok page => simp [verdict, same]
  | error failure =>
    have hr : failure.retryable = false := h
    simp [verdict, hr, same]

theorem verdict_of_smooth {before : List (PageOutcome α)} {stop : PageOutcome α}
    (smooth : Smooth before stop) (k : Nat) :
    ∃ result : Result α, verdict k before stop = some result ∧
      records before <+: gatheredIn result := by
  have hends := smooth.ends
  have hthrottled := smooth.unthrottled
  cases stop with
  | ok page =>
    have hn : page.next = none := by simpa [continues] using hends
    refine ⟨.ok (records before ++ page.items), ?_, List.prefix_append _ _⟩
    simp only [verdict, hn]
  | error failure =>
    have hr : failure.retryable = false := hthrottled
    refine ⟨.error ⟨records before, .provider failure⟩, ?_, List.prefix_rfl⟩
    simp only [verdict, hr, Bool.false_eq_true, ↓reduceIte]

/-- Pages that others follow and throttled calls do not end a listing that has a delay for each of these. -/
theorem onward_of_fits (request : ListingRequest) (schedule : Backoff) (os : List (PageOutcome α))
    (h : ∀ o ∈ os, continues o = true ∨ throttled o = true) (fits : throttles os ≤ schedule.length) :
    (Traversal.start request schedule).Onward os := by
  induction os using List.reverseRecOn with
  | nil => exact Traversal.onward_nil _
  | append_singleton os o ih =>
    rw [throttles_append] at fits
    have hos := ih (fun x hx => h x (List.mem_append_left _ hx)) (by omega)
    rw [Traversal.onward_concat]
    refine ⟨hos, ?_⟩
    rw [Traversal.ends_eq_verdict request schedule os o (by omega)]
    cases o with
    | ok page =>
      have ho : page.next.isSome = true := by
        simpa [continues, throttled] using h _ List.mem_concat_self
      obtain ⟨cursor, hcursor⟩ := Option.isSome_iff_exists.mp ho
      simp only [verdict, hcursor]
    | error failure =>
      have hr : failure.retryable = true := by
        simpa [continues, throttled] using h _ List.mem_concat_self
      have hne : throttles os ≠ schedule.length := by
        simp only [throttles_singleton, throttled, hr, ↓reduceIte] at fits
        omega
      simp only [verdict, hr, hne, ↓reduceIte]

/-- Among more than `k` throttled calls there is one before which there are just `k`. -/
theorem exists_throttle {os : List (PageOutcome α)} {k : Nat} (h : k < throttles os) :
    ∃ before failure after, os = before ++ .error failure :: after ∧
      failure.retryable = true ∧ throttles before = k := by
  induction os using List.reverseRecOn with
  | nil => simp at h
  | append_singleton os o ih =>
    by_cases hk : k < throttles os
    · obtain ⟨before, failure, after, hos, hr, hbefore⟩ := ih hk
      refine ⟨before, failure, after ++ [o], ?_, hr, hbefore⟩
      rw [hos, List.append_assoc, List.cons_append]
    · rw [throttles_append, throttles_singleton] at h
      cases o with
      | ok page =>
        simp only [throttled, Bool.false_eq_true, ↓reduceIte] at h
        omega
      | error failure =>
        cases hr : failure.retryable with
        | false =>
          simp only [throttled, hr, Bool.false_eq_true, ↓reduceIte] at h
          omega
        | true =>
          simp only [throttled, hr, ↓reduceIte] at h
          exact ⟨os, failure, [], rfl, hr, by omega⟩

/-- A listing with fewer delays than throttled calls ends at the first one that there is no delay for. -/
theorem Setup.Plays.exhausted {s : Setup σ α} {os rest : List (PageOutcome α)}
    (plays : s.Plays (os ++ rest)) (goesOn : ∀ o ∈ os, continues o = true ∨ throttled o = true)
    (short : s.schedule.length < throttles os) :
    ∃ begun failure, begun <+: os ∧ failure.retryable = true ∧
      ∀ n, turnsOfCalls (os.length - throttles os + s.schedule.length + 1) ≤ n →
        (s.run n).result? =
          some (.error ⟨records begun, .retriesExhausted s.schedule.length failure⟩) := by
  obtain ⟨begun, failure, after, hsplit, hretryable, hbegun⟩ := exists_throttle short
  have hsub : ∀ o ∈ begun, continues o = true ∨ throttled o = true := by
    intro o ho
    rw [hsplit] at goesOn
    exact goesOn o (List.mem_append_left _ ho)
  have honward : s.traversal.Onward begun := onward_of_fits _ _ _ hsub (by omega)
  have hverdict : verdict s.schedule.length begun (.error failure) =
      some (.error ⟨records begun, .retriesExhausted s.schedule.length failure⟩) := by
    simp only [verdict, hretryable, hbegun, ↓reduceIte]
  -- The calls after the failing one are at least the other throttled ones.
  have hcalls : begun.length + 1 ≤ os.length - throttles os + s.schedule.length + 1 := by
    have hafter : throttles after ≤ after.length := List.countP_le_length
    have hcons : throttles (.error failure :: after) = throttles after + 1 := by
      simp [throttles, throttled, hretryable]
    rw [hsplit, throttles_append, hcons, List.length_append, List.length_cons]
    omega
  refine ⟨begun, failure, ?_, hretryable, ?_⟩
  · rw [hsplit]
    exact List.prefix_append _ _
  · intro n hn
    rw [hsplit, List.append_assoc, List.cons_append] at plays
    simp only [turnsOfCalls] at hn
    have henough : turnsOfCalls (begun.length + 1) ≤ n := by
      simp only [turnsOfCalls]
      omega
    exact (plays.finished honward hverdict henough).1

/-- Throttled calls among the calls of a listing change nothing but its requests, as long as there is a delay for each of
them; else they leave the records of some of its pages. The number of turns is what `gather` makes. -/
theorem throttling_is_transparent (s : Setup σ α) (s' : Setup τ α) (same : s'.request = s.request)
    {before before' rest : List (PageOutcome α)} {stop : PageOutcome α} {m : Nat}
    (smooth : Smooth before stop) (inserted : Inserted m before before')
    (plays : s.Plays (before ++ stop :: rest)) (plays' : s'.Plays (before' ++ stop :: rest)) :
    ∃ result : Result α,
      (∀ n, turnsOfCalls (before.length + s.schedule.length + 1) ≤ n →
        (s.run n).result? = some result) ∧
      (m ≤ s'.schedule.length →
        ∀ n n', turnsOfCalls (before.length + s.schedule.length + 1) ≤ n →
          turnsOfCalls (before.length + s'.schedule.length + 1) ≤ n' →
          (s'.run n').result? = some result ∧
            (s'.run n').requests = stretch (before' ++ [stop]) (s.run n).requests) ∧
      (s'.schedule.length < m →
        ∃ gathered last, gathered <+: gatheredIn result ∧ last.retryable = true ∧
          ∀ n', turnsOfCalls (before.length + s'.schedule.length + 1) ≤ n' →
            (s'.run n').result? =
              some (.error ⟨gathered, .retriesExhausted s'.schedule.length last⟩)) := by
  obtain ⟨result, hverdict, hgathered⟩ := verdict_of_smooth smooth s.schedule.length
  have hnone := throttles_of_unthrottled fun o ho => throttled_of_continues (smooth.pages o ho)
  have hpages := inserted.continues_or_throttled smooth.pages
  have hthrottles := inserted.throttles_eq
  have hlength := inserted.length_eq
  have honward : s.traversal.Onward before :=
    onward_of_fits _ _ _ (fun o ho => Or.inl (smooth.pages o ho)) (by omega)
  have hfinished : ∀ n, turnsOfCalls (before.length + s.schedule.length + 1) ≤ n →
      (s.run n).result? = some result ∧
        (s.run n).requests = asked s.traversal.request (before ++ [stop]) := by
    intro n hn
    refine plays.finished honward hverdict ?_
    simp only [turnsOfCalls] at hn ⊢
    omega
  refine ⟨result, fun n hn => (hfinished n hn).1, ?_, ?_⟩
  · intro hfits n n' hn hn'
    have honward' : s'.traversal.Onward before' := onward_of_fits _ _ _ hpages (by omega)
    have hverdict' := verdict_of_unthrottled smooth.unthrottled inserted.records_eq
      s.schedule.length s'.schedule.length
    rw [hverdict] at hverdict'
    have henough : turnsOfCalls (before'.length + 1) ≤ n' := by
      simp only [turnsOfCalls] at hn' ⊢
      omega
    obtain ⟨hresult, hrequests⟩ := plays'.finished honward' hverdict' henough
    have hrequest : s'.traversal.request = s.traversal.request := by
      simp only [Setup.traversal, Traversal.start, same]
    refine ⟨hresult, ?_⟩
    rw [hrequests, (hfinished n hn).2, hrequest, inserted.asked_eq smooth.pages]
  · intro hshort
    obtain ⟨begun, failure, hbegun, hretryable, hresult⟩ := plays'.exhausted hpages (by omega)
    refine ⟨records begun, failure, ?_, hretryable, ?_⟩
    · obtain ⟨after, hafter⟩ := hbegun
      refine List.IsPrefix.trans ?_ hgathered
      rw [← inserted.records_eq, ← hafter, records_append]
      exact List.prefix_append _ _
    · intro n' hn'
      refine hresult n' ?_
      simp only [turnsOfCalls] at hn' ⊢
      omega

def twoPages : List (PageOutcome Nat) :=
  [.ok (.ofItems [1] (some "a")), .ok (.ofItems [2] (some "b"))]

def throttledTwoPages : List (PageOutcome Nat) :=
  [.error (throttledFailure "list_users"), .ok (.ofItems [1] (some "a")),
    .error (throttledFailure "list_users"), .ok (.ofItems [2] (some "b"))]

def smoothSetup : Setup Nat Nat :=
  .ofScript (twoPages ++ [.ok (.last [3])]) (.ofPool "pool") []

def throttledSetup (schedule : Backoff) : Setup Nat Nat :=
  .ofScript (throttledTwoPages ++ [.ok (.last [3])]) (.ofPool "pool") schedule

theorem two_delays_suffice_and_one_does_not :
    ((throttledSetup [5, 7]).run 15).result? = some (.ok [1, 2, 3]) ∧
    ((throttledSetup [5, 7]).run 15).requests.map ListingRequest.cursor =
      [none, none, some "a", some "a", some "b"] ∧
    ∃ gathered last, gathered <+: [1, 2, 3] ∧
      ((throttledSetup [5]).run 12).result? = some (.error ⟨gathered, .retriesExhausted 1 last⟩) := by
  have hsmooth : Smooth twoPages (.ok (.last [3])) := ⟨by decide, rfl, rfl⟩
  have hinserted : Inserted 2 twoPages throttledTwoPages :=
    .insert _ rfl (.keep _ (.insert _ rfl (.keep _ .nil)))
  have hplays : smoothSetup.Plays (twoPages ++ [.ok (.last [3])]) := plays_ofScript _ _ _
  have hresult : (smoothSetup.run 9).result? = some (.ok [1, 2, 3]) := rfl
  obtain ⟨result, hall, hfits, _⟩ := throttling_is_transparent smoothSetup (throttledSetup [5, 7])
    rfl hsmooth hinserted hplays (plays_ofScript _ _ _)
  obtain ⟨hsame, hrequests⟩ := hfits (by decide) 9 15 (by decide) (by decide)
  refine ⟨?_, ?_, ?_⟩
  · rw [hsame, ← hresult, hall 9 (by decide)]
  · rw [hrequests]
    rfl
  · obtain ⟨result, hall, _, hshort⟩ := throttling_is_transparent smoothSetup (throttledSetup [5])
      rfl hsmooth hinserted hplays (plays_ofScript _ _ _)
    obtain ⟨gathered, last, hprefix, _, hlast⟩ := hshort (by decide)
    have h := hall 9 (by decide)
    rw [hresult, Option.some.injEq] at h
    rw [← h] at hprefix
    exact ⟨gathered, last, hprefix, hlast 12 (by decide)⟩

end DirectoryGateway.Listing
