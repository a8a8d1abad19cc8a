import DirectoryGateway.Proofs.Gateway.Asking
import DirectoryGateway.Proofs.Settings.Acceptance
import DirectoryGateway.Proofs.Telemetry.Counting
import Mathlib.Algebra.BigOperators.Group.List.Basic

/-!
# Listings and the time limit

A request is given up after a limited time. A listing needs the time of its calls and of its waits. If this is less than the
limit, the response is that of the listing as if there were no limit; if not, the request is given up at the limit, and the
listing with it. Schedules that are accepted are shorter than the limit, so waiting alone never brings a listing there.
-/

namespace DirectoryGateway.Gateway

open DirectoryGateway.Provider
open DirectoryGateway.Listing
open DirectoryGateway.Telemetry (Ledger Note Counter Endpoint)

/-! ### Answers -/

theorem status_listingAnswer {α : Type} (item : α → Json) (result : Result α) :
    (listingAnswer item result).status ≠ 408 := by
  cases result with
  | ok items => exact (by decide : (200 : Nat) ≠ 408)
  | error i =>
    obtain ⟨gathered, cause⟩ := i
    have hstatus : ∀ f : Failure, (Problem.ofFailure f).response.status ≠ 408 := by
      intro f
      rw [response_ofFailure, status_refusal]
      cases f.kind <;> decide
    cases cause with
    | retriesExhausted retries last => exact hstatus last
    | provider failure => exact hstatus failure
    | cancelled => exact (by decide : (503 : Nat) ≠ 408)

theorem status_exhausted {α : Type} (item : α → Json) (gathered : List α) (retries : Nat)
    {last : Failure} (retryable : last.retryable = true) :
    (listingAnswer item (.error ⟨gathered, .retriesExhausted retries last⟩)).status = 429 := by
  have hkind : last.kind = .throttled := by
    rw [Failure.retryable] at retryable
    cases hk : last.kind with
    | throttled => rfl
    | _ =>
      rw [hk] at retryable
      cases retryable
  show (Problem.ofFailure last).response.status = 429
  rw [response_ofFailure, status_refusal, hkind]
  rfl

/-- Delays are used up by a failure that is worth one more. -/
theorem retryable_of_exhausted {σ α : Type} (s : Setup σ α) {n : Nat} {gathered : List α} {retries : Nat}
    {last : Failure}
    (h : (s.run n).result? = some (.error ⟨gathered, .retriesExhausted retries last⟩)) :
    last.retryable = true := by
  obtain ⟨os, hos, -⟩ := heard_progress s n
  rcases hos.ended_cases h with ⟨before, stop, -, -, hverdict, -⟩ | ⟨-, gathered', hcancelled⟩
  · cases stop with
    | ok page =>
      have hok := (verdict_ok hverdict).2
      cases hok
    | error failure =>
      rw [verdict] at hverdict
      split at hverdict
      · next retryable =>
        split at hverdict
        · cases hverdict
          exact retryable
        · cases hverdict
      · cases hverdict
  · cases hcancelled

/-! ### Listings -/

/-- The listing that a request is served by, when it is waited for as long as it takes. -/
def Config.untimed (g : Config) (s : Session Script) (kind : Kind) (i : Interrupts) :
    Run Script kind.source.Record :=
  g.listing Script.service s kind (listingPace s i).patient

/-- The time that a listing needs: that of the replies to its calls, the first ones in the queue, and that of its waits. -/
def timeNeeded {c : Source} (store : Script) (r : Run Script c.Record) : Nat :=
  (((store.queue c).take r.calls.length).map Queued.delay).sum + r.waits.sum

section

variable (g : Config) (s : Session Script) (kind : Kind) (i : Interrupts)

def Config.timedSetup : Setup Script kind.source.Record :=
  g.pool.setup kind (listingPace s i) s.store s.now

theorem listing_eq_run :
    g.listing Script.service s kind (listingPace s i) =
      (g.timedSetup s kind i).run (g.pool.allowance s.store) :=
  g.pool.list_eq_run kind (listingPace s i) s.store s.now

theorem untimed_eq_run :
    g.untimed s kind i = (g.timedSetup s kind i).patient.run (g.pool.allowance s.store) :=
  g.pool.list_eq_run kind (listingPace s i).patient s.store s.now

theorem needed_untimed :
    (g.timedSetup s kind i).patient.needed (g.untimed s kind i) =
      timeNeeded s.store (g.untimed s kind i) := by
  have hrest : (g.timedSetup s kind i).patient.pace.rest = id := rfl
  have hdelays := delays_dequeues (dequeues_pages kind.source) s.store (g.untimed s kind i).requests
  rw [Run.requests_length] at hdelays
  rw [Setup.needed, hrest, List.map_id, timeNeeded, ← hdelays]
  rfl

theorem exists_untimed_result : ∃ result, (g.untimed s kind i).result? = some result := by
  have hpages := queue_le_pagesLeft kind.source s.store
  refine result_of_awaited (g.timedSetup s kind i).patient (dequeues_pages kind.source) hpages ?_
  exact Setup.patient_dropped rfl _

/-- The listing takes no longer than it needs, and as long if it is not stopped. -/
theorem untimed_now :
    (g.untimed s kind i).now ≤ s.now + timeNeeded s.store (g.untimed s kind i) ∧
      (s.stopped = false → i.stopAfter = none →
        (g.untimed s kind i).now = s.now + timeNeeded s.store (g.untimed s kind i)) := by
  obtain ⟨result, hresult⟩ := exists_untimed_result g s kind i
  rw [← needed_untimed]
  obtain ⟨hbound, hexact⟩ := Setup.ended_now (s := (g.timedSetup s kind i).patient) rfl hresult
  refine ⟨hbound, ?_⟩
  intro running unstopped
  have huncancelled : (listingPace s i).patient.cancelAt = none := by
    simp [listingPace, Pace.patient, running, unstopped]
  exact hexact (undisturbed_pages kind.source huncancelled rfl)

/-- Waiting alone takes less than the limit. -/
theorem timeNeeded_of_prompt {vars : Settings.Variables}
    (configured : Settings.ofVariables vars = .ok g.settings)
    (prompt : ∀ queued ∈ s.store.queue kind.source, queued.delay = 0) :
    timeNeeded s.store (g.untimed s kind i) < requestLimit := by
  have htotal : g.settings.backoff.sum < 60000 := (Settings.reading_of_ofVariables configured).total
  have hwaits : (g.untimed s kind i).waits.sum ≤ g.settings.backoff.sum :=
    (g.timedSetup s kind i).patient.waits_sum_le _
  have hdelays : (((s.store.queue kind.source).take (g.untimed s kind i).calls.length).map
      Queued.delay).sum = 0 := by
    refine List.sum_eq_zero ?_
    intro delay hdelay
    obtain ⟨queued, hqueued, rfl⟩ := List.mem_map.mp hdelay
    exact prompt queued (List.mem_of_mem_take hqueued)
  have hlimit : requestLimit = 60000 := rfl
  rw [timeNeeded, hdelays, hlimit]
  omega

theorem listing_in_time (fits : timeNeeded s.store (g.untimed s kind i) < requestLimit) :
    g.listing Script.service s kind (listingPace s i) = g.untimed s kind i := by
  have hnow := (untimed_now g s kind i).1
  have hbefore : (g.untimed s kind i).now < s.now + requestLimit := by omega
  rw [listing_eq_run, untimed_eq_run]
  exact Setup.run_before_deadline rfl hbefore

theorem listing_given_up (running : s.stopped = false) (unstopped : i.stopAfter = none)
    (exceeds : requestLimit ≤ timeNeeded s.store (g.untimed s kind i)) :
    (g.listing Script.service s kind (listingPace s i)).result? = none ∧
      (g.listing Script.service s kind (listingPace s i)).now = s.now + requestLimit ∧
      (∀ call ∈ (g.listing Script.service s kind (listingPace s i)).calls,
        call.1 < s.now + requestLimit) ∧
      (g.listing Script.service s kind (listingPace s i)).store =
        storeAfter (Script.pages kind.source) s.store
          (g.listing Script.service s kind (listingPace s i)).requests := by
  have hnow := (untimed_now g s kind i).2 running unstopped
  have hlate : s.now + requestLimit ≤ (g.untimed s kind i).now := by omega
  have hearly : s.now < s.now + requestLimit := Nat.lt_add_of_pos_right (by decide)
  exact Setup.dropped_at_deadline (s := g.timedSetup s kind i) rfl hearly hlate

end

/-! ### Requests -/

variable {g : Config} {s : Session Script} {q : Request} {i : Interrupts} {kind : Kind}

/-- A request that is given up at the limit: no call is begun then or later, the provider has seen the calls that were begun,
and one response is counted, of this request. -/
structure GivenUp (g : Config) (s : Session Script) (q : Request) (i : Interrupts) (kind : Kind) : Prop where
  response : (serve g Script.service q i s).1 = .ofStatus 408
  clock : (serve g Script.service q i s).2.now = s.now + requestLimit
  calls : ∀ call ∈ (g.listing Script.service s kind (listingPace s i)).calls,
    call.1 < s.now + requestLimit
  provider : (serve g Script.service q i s).2.store =
    storeAfter (Script.pages kind.source) s.store
      (g.listing Script.service s kind (listingPace s i)).requests
  counted : ∀ method endpoint status,
    (serve g Script.service q i s).2.ledger.value (.requests method endpoint status) =
      s.ledger.value (.requests method endpoint status) +
        if Counter.requests method endpoint status = .requests q.method (.ofPath q.path) 408 then 1 else 0

theorem serve_listing (service : Service Script) (i : Interrupts) (asks : Asks g s q kind) {result : Result _}
    (h : (g.listing service s kind (listingPace s i)).result? = some result) :
    (serve g service q i s).1 = (listingAnswer kind.source.toJson result).sent q.method := by
  have hanswer := serveListing_result kind.source.toJson h s
  rw [serve, respond_listing service i asks, hanswer]

/-- The counters of responses are raised by the one that is sent, and by nothing that a listing notes. -/
theorem count_listing {c : Source} {r : Run Script c.Record} {operation : String}
    (own : r.NotesOwn operation) (l : Ledger) (note : Note) (method : String) (endpoint : Endpoint)
    (status : Nat) :
    ((l.noteAll r.notes).noteAll [note]).value (.requests method endpoint status) =
      l.value (.requests method endpoint status) +
        if Counter.requests method endpoint status = note.counter then 1 else 0 := by
  have hnone : (r.notes.map Note.counter).count (.requests method endpoint status) = 0 := by
    rw [List.count_eq_zero]
    intro hmem
    obtain ⟨n, hn, hcounter⟩ := List.mem_map.mp hmem
    rcases own n hn with rfl | rfl
    · cases hcounter
    · cases hcounter
  have hone : Ledger.noteAll [note] (l.noteAll r.notes) = (l.noteAll r.notes).note note := rfl
  rw [hone, Ledger.value_note, Ledger.value_noteAll, hnone, Nat.add_zero]

theorem givenUp_of_exceeds (asks : Asks g s q kind) (running : s.stopped = false)
    (unstopped : i.stopAfter = none)
    (exceeds : requestLimit ≤ timeNeeded s.store (g.untimed s kind i)) : GivenUp g s q i kind := by
  obtain ⟨hresult, hnow, hcalls, hstore⟩ := listing_given_up g s kind i running unstopped exceeds
  have hown := (g.timedSetup s kind i).notesOwn_run (pages_unnoted kind.source) (g.pool.allowance s.store)
  rw [← listing_eq_run] at hown
  have hserved : serveListing kind.source.toJson (g.listing Script.service s kind (listingPace s i)) s =
      (.ofStatus 408, { s with
        store := (g.listing Script.service s kind (listingPace s i)).store
        now := (g.listing Script.service s kind (listingPace s i)).now }.observe
          (g.listing Script.service s kind (listingPace s i)).notes) := by
    simp only [serveListing, hresult]
  have hrespond := respond_listing Script.service i asks
  rw [hserved, ofStatus_sent] at hrespond
  refine ⟨?_, ?_, hcalls, ?_, ?_⟩
  · rw [serve, hrespond]
  · rw [serve, hrespond]
    exact hnow
  · rw [serve, hrespond]
    exact hstore
  · intro method endpoint status
    rw [serve, hrespond]
    exact count_listing hown s.ledger _ method endpoint status

/-- An accepted request for a listing that needs less than the limit is answered as if there were none, and with 429 if the
schedule is used up; where the provider answers at once, this is every request. One that needs the limit or more is answered
with 408 at the limit, and its listing begins no call then or later. -/
theorem slow_listings_are_given_up (vars : Settings.Variables) (g : Config)
    (configured : Settings.ofVariables vars = .ok g.settings) (s : Session Script) (i : Interrupts)
    (q : Request) (kind : Kind) (asks : Asks g s q kind) :
    ∃ result, (g.untimed s kind i).result? = some result ∧
      (timeNeeded s.store (g.untimed s kind i) < requestLimit →
        (serve g Script.service q i s).1 = (listingAnswer kind.source.toJson result).sent q.method ∧
        (serve g Script.service q i s).1.status ≠ 408 ∧
        ∀ gathered retries last, result = .error ⟨gathered, .retriesExhausted retries last⟩ →
          (serve g Script.service q i s).1.status = 429) ∧
      ((∀ queued ∈ s.store.queue kind.source, queued.delay = 0) →
        (serve g Script.service q i s).1.status ≠ 408) ∧
      (s.stopped = false → i.stopAfter = none →
        requestLimit ≤ timeNeeded s.store (g.untimed s kind i) → GivenUp g s q i kind) := by
  obtain ⟨result, hresult⟩ := exists_untimed_result g s kind i
  have hfits : timeNeeded s.store (g.untimed s kind i) < requestLimit →
      (serve g Script.service q i s).1 = (listingAnswer kind.source.toJson result).sent q.method := by
    intro fits
    rw [← listing_in_time g s kind i fits] at hresult
    exact serve_listing Script.service i asks hresult
  have hstatus : timeNeeded s.store (g.untimed s kind i) < requestLimit →
      (serve g Script.service q i s).1.status ≠ 408 := by
    intro fits
    rw [hfits fits, status_sent]
    exact status_listingAnswer _ _
  refine ⟨result, hresult, ?_, ?_, fun running unstopped => givenUp_of_exceeds asks running unstopped⟩
  · intro fits
    refine ⟨hfits fits, hstatus fits, ?_⟩
    rintro gathered retries last rfl
    rw [hfits fits, status_sent]
    exact status_exhausted _ _ _ (retryable_of_exhausted (g.timedSetup s kind i).patient hresult)
  · intro prompt
    exact hstatus (timeNeeded_of_prompt g s kind i configured prompt)

/-- A schedule that is a millisecond shorter than the limit. -/
def longestSchedule : Settings.Variables :=
  [("USER_POOL_ID", "pool"), ("BACKOFF_SCHEDULE_MS", "30000,29999")]

/-- A page and a throttled call that together with the first wait take a millisecond more than the limit. -/
def slowScript : Script :=
  { Script.empty with
    users := [⟨30001, .ok (.ofItems [.named "ann"] (some "x"))⟩, ⟨0, .error (throttledFailure "list_users")⟩] }

def throttledScript : Script :=
  { Script.empty with users := List.replicate 3 ⟨0, .error (throttledFailure "list_users")⟩ }

theorem slow_is_given_up_and_throttled_is_told :
    ∃ v settings, Token.Verifier.ofKeyMap Sample.primaryKeyMap Sample.primaryIssuer 60 = .ok v ∧
      Settings.ofVariables longestSchedule = .ok settings ∧
      (serve ⟨settings, v, Token.sampleTime⟩ Script.service (asAdmin "GET" "/api/v1/users") .none
        (.start slowScript .empty)).1 = .ofStatus 408 ∧
      (serve ⟨settings, v, Token.sampleTime⟩ Script.service (asAdmin "GET" "/api/v1/users") .none
        (.start throttledScript .empty)).1.status = 429 := by
  obtain ⟨v, claims, loaded, accepted, -⟩ := Token.adminToken_accepted
  have hsettings : ∃ settings, Settings.ofVariables longestSchedule = .ok settings ∧
      settings.pool = "pool" ∧ settings.backoff = [30000, 29999] := ⟨_, rfl, by decide +kernel⟩
  obtain ⟨settings, configured, pool, backoff⟩ := hsettings
  have asks : ∀ store : Script, Asks ⟨settings, v, Token.sampleTime⟩ (Session.start store .empty)
      (asAdmin "GET" "/api/v1/users") .users := fun store =>
    ⟨Or.inl rfl, (by decide +kernel : (asAdmin "GET" "/api/v1/users").path = "/api/v1/users"),
      authenticated_asAdmin "GET" _ (by simp [Config.clock, Session.start]) accepted⟩
  have untimed : ∀ store, (Config.mk settings v Token.sampleTime).untimed (Session.start store .empty) .users .none =
      Pool.list ⟨"pool", [30000, 29999]⟩ .users Script.service .free store 0 := by
    intro store
    rw [← pool, ← backoff]
    rfl
  refine ⟨v, settings, loaded, configured, ?_, ?_⟩
  · obtain ⟨-, -, -, -, exceeds⟩ := slow_listings_are_given_up longestSchedule ⟨settings, v, Token.sampleTime⟩ configured
      (.start slowScript .empty) .none _ .users (asks _)
    rw [untimed] at exceeds
    exact (exceeds rfl rfl (by decide +kernel)).response
  · obtain ⟨result, hresult, fits, -, -⟩ := slow_listings_are_given_up longestSchedule
      ⟨settings, v, Token.sampleTime⟩ configured (.start throttledScript .empty) .none _ .users (asks _)
    rw [untimed] at hresult fits
    have hexhausted : (Pool.list ⟨"pool", [30000, 29999]⟩ .users Script.service .free throttledScript
        0).result? = some (.error ⟨[], .retriesExhausted 2 (throttledFailure "list_users")⟩) := by
      rfl
    rw [hexhausted] at hresult
    exact (fits (by decide +kernel)).2.2 _ _ _ (Option.some.inj hresult).symm

end DirectoryGateway.Gateway
