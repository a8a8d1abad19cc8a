import DirectoryGateway.Proofs.Gateway.Membership
import DirectoryGateway.Proofs.Gateway.Refusals
import DirectoryGateway.Proofs.Gateway.Routing
import DirectoryGateway.Proofs.Listing.Queues

/-!
# Listings over HTTP

A listing that is left alone is answered with the records of all its pages, or with the refusal that its last failure is
answered with wherever it comes from. Nothing of the records gathered before a failure shows in the response.
-/

namespace DirectoryGateway.Gateway

open DirectoryGateway.Directory
open DirectoryGateway.Provider
open DirectoryGateway.Listing
open DirectoryGateway.Token (Claims)

variable {σ α : Type} {g : Config} {service : Service σ} {s : Session σ} {q : Request} {i : Interrupts}

/-! ### Answers -/

theorem verdict_ok {delays : Nat} {before : List (PageOutcome α)} {page : Page α} {result : Result α}
    (h : verdict delays before (.ok page) = some result) :
    page.next = none ∧ result = .ok (records (before ++ [.ok page])) := by
  rw [verdict] at h
  cases hnext : page.next with
  | some cursor =>
    rw [hnext] at h
    cases h
  | none =>
    rw [hnext] at h
    refine ⟨rfl, ?_⟩
    rw [records_append, records_singleton]
    exact (Option.some.inj h).symm

theorem verdict_error {delays : Nat} {before : List (PageOutcome α)} {failure : Failure}
    {result : Result α} (h : verdict delays before (.error failure) = some result) :
    ∃ incomplete, result = .error incomplete ∧ failureOf? incomplete.cause = some failure := by
  rw [verdict] at h
  split at h
  · split at h
    · cases h
      exact ⟨_, rfl, rfl⟩
    · cases h
  · cases h
    exact ⟨_, rfl, rfl⟩

/-- A response to a listing whose calls come to the outcomes of a stream and that ends at the one with number `j`. -/
structure AnswersAt (item : α → Json) (delays : Nat) (o : Nat → PageOutcome α) (j : Nat) (r : Response) :
    Prop where
  goesOn : ∀ k < j, verdict delays (firsts o k) (o k) = none
  ends : (verdict delays (firsts o j) (o j)).isSome = true
  success : r.status = 200 ↔ ∃ page, o j = .ok page ∧ page.next = none
  complete : ∀ page, o j = .ok page →
    r = .ofJson 200 (.obj [("count", .nat (records (firsts o (j + 1))).length),
      ("items", .list ((records (firsts o (j + 1))).map item))])
  refused : ∀ failure, o j = .error failure →
    r = (Problem.ofFailure failure).response ∧ r.status = statusOfKind failure.kind

theorem answersAt_of_verdict (item : α → Json) {delays : Nat} {o : Nat → PageOutcome α} {j : Nat}
    {result : Result α} (goesOn : ∀ k < j, verdict delays (firsts o k) (o k) = none)
    (stop : verdict delays (firsts o j) (o j) = some result) :
    AnswersAt item delays o j (listingAnswer item result) := by
  have ends : (verdict delays (firsts o j) (o j)).isSome = true := by
    rw [stop]
    rfl
  cases ho : o j with
  | ok page =>
    rw [ho] at stop
    obtain ⟨hlast, hresult⟩ := verdict_ok stop
    rw [← ho, ← firsts_succ] at hresult
    refine ⟨goesOn, ends, ?_, ?_, ?_⟩
    · rw [hresult]
      exact ⟨fun _ => ⟨page, ho, hlast⟩, fun _ => rfl⟩
    · intro page' _
      rw [hresult]
      rfl
    · intro failure hfailure
      rw [ho] at hfailure
      cases hfailure
  | error failure =>
    rw [ho] at stop
    obtain ⟨incomplete, hresult, hcause⟩ := verdict_error stop
    have hresponse : listingAnswer item result = refusal failure.kind := by
      rw [hresult]
      exact response_ofIncomplete hcause
    have hstatus : (listingAnswer item result).status = statusOfKind failure.kind := by
      rw [hresponse, status_refusal]
    refine ⟨goesOn, ends, ?_, ?_, ?_⟩
    · rw [hstatus, ho]
      constructor
      · intro hsuccess
        exact absurd hsuccess (statusOfKind_ne_success _)
      · rintro ⟨page, hpage, -⟩
        cases hpage
    · intro page hpage
      rw [ho] at hpage
      cases hpage
    · intro failure' hfailure
      rw [ho] at hfailure
      cases hfailure
      exact ⟨by rw [hresponse, response_ofFailure], hstatus⟩

/-! ### Requests -/

def Authenticated (g : Config) (s : Session σ) (q : Request) : Prop :=
  ∃ token claims, Bears q token ∧ g.verifier.verify (g.clock s) token = .ok claims

theorem serve_admitted (service : Service σ) (authentic : Authenticated g s q)
    (method : q.method = "GET") {route : Route} (path : Route.ofPath? q.path = some route)
    (guarded : route.isProtected = true) (allowed : "GET" ∈ route.methods) :
    ∃ claims, (serve g service q i s).1 = (serveProtected g service i claims "GET" route s).1 := by
  obtain ⟨token, claims, bears, verified⟩ := authentic
  have accepted : authenticate g.verifier (g.epoch + s.now / 1000) q = .ok claims :=
    authenticate_eq_ok_iff.mpr ⟨token, bears, verified⟩
  have hcontains : route.methods.contains "GET" = true := List.contains_iff_mem.mpr allowed
  have hhead : ¬ ("GET" = "HEAD" ∧ route.methods.contains "HEAD" = true) := by simp
  refine ⟨claims, ?_⟩
  simp only [serve, respond, path, serveRoute, guarded, method, hcontains, accepted, if_true, if_neg hhead]

theorem serveListing_result (item : α → Json) {r : Run σ α} {result : Result α}
    (h : r.result? = some result) (s : Session σ) :
    (serveListing item r s).1 = listingAnswer item result := by
  simp only [serveListing, h]

theorem serveGather_answers (item : α → Json) {fetch : PageCall Script α} {queue : Script → List (Queued α)}
    (dequeues : Dequeues fetch queue) (pace : Pace) (operation : String) (request : ListingRequest)
    (schedule : Backoff) (s : Session Script) {pagesLeft : Nat}
    (pages : (queue s.store).length ≤ pagesLeft)
    (untouched : (gather fetch pace operation pagesLeft request schedule s.store s.now).Untouched) :
    ∃ j, (gather fetch pace operation pagesLeft request schedule s.store s.now).calls.length = j + 1 ∧
      AnswersAt item schedule.length (scripted (queue s.store)) j
        (serveListing item (gather fetch pace operation pagesLeft request schedule s.store s.now) s).1 := by
  obtain ⟨j, result, goesOn, stop, hresult, hcalls⟩ := result_of_untouched
    ⟨fetch, pace, operation, request, schedule, s.store, s.now⟩ dequeues pages untouched
  refine ⟨j, hcalls, ?_⟩
  rw [serveListing_result item hresult]
  exact answersAt_of_verdict item goesOn stop

theorem serveMembers_named {segment group : String} (named : Text.percentText? segment = some group)
    (valid : nameFault? group = none) :
    serveMembers g service i segment s =
      serveListing User.toJson (g.pool.members service (listingPace s i) group s.store s.now) s := by
  have read : Route.readName "group" segment = .ok group := by rw [Route.readName, named]
  have checked : checkName "group" group = .ok () := by rw [checkName, valid]
  rw [serveMembers, read]
  dsimp only
  rw [checked]

/-- If the listing is left alone, the response tells what becomes of it on a queue. -/
def Answers (item : α → Json) (delays : Nat) (queue : List (Queued α)) (r : Run σ α)
    (response : Response) : Prop :=
  r.Untouched → ∃ j, r.calls.length = j + 1 ∧ AnswersAt item delays (scripted queue) j response

/-- A listing that is asked for with an accepted token and left alone is answered with the records of all pages, in order and
counted, or else as the failure that ended it is answered alone. A failure is answered by its kind, wherever it stands and
whatever was gathered before it. -/
theorem listings_are_complete_or_refused (g : Config) (s : Session Script) (i : Interrupts) (q : Request)
    (method : q.method = "GET") (authentic : Authenticated g s q) :
    (q.path = "/api/v1/groups" →
      Answers Group.toJson g.settings.backoff.length s.store.groups
        (g.pool.groups Script.service (listingPace s i) s.store s.now)
        (serve g Script.service q i s).1) ∧
    (q.path = "/api/v1/users" →
      Answers User.toJson g.settings.backoff.length s.store.users
        (g.pool.users Script.service (listingPace s i) s.store s.now)
        (serve g Script.service q i s).1) ∧
    (∀ segment group, q.path = "/api/v1/groups/" ++ segment ++ "/users" → '/' ∉ segment.toList →
      Text.percentText? segment = some group → nameFault? group = none →
      Answers User.toJson g.settings.backoff.length s.store.members
        (g.pool.members Script.service (listingPace s i) group s.store s.now)
        (serve g Script.service q i s).1) ∧
    (∀ (β : Type) (gathered : List β) (retries : Nat) (f : Failure),
      Problem.ofCause (.provider f) = Problem.ofFailure f ∧
      Problem.ofCause (.retriesExhausted retries f) = Problem.ofFailure f ∧
      Problem.ofIncomplete ⟨gathered, .provider f⟩ = Problem.ofFailure f ∧
      Problem.ofIncomplete ⟨gathered, .retriesExhausted retries f⟩ = Problem.ofFailure f) ∧
    ∀ (β : Type) (item : β → Json) (r r' : Run Script β) (t t' : Session Script) (x y : Incomplete β)
      (f f' : Failure), r.result? = some (.error x) → r'.result? = some (.error y) →
        failureOf? x.cause = some f → failureOf? y.cause = some f' → f.kind = f'.kind →
          (serveListing item r t).1 = (serveListing item r' t').1 := by
  obtain ⟨hgroups, husers, hmembers⟩ := queues_le_pagesLeft s.store
  refine ⟨?_, ?_, ?_, ?_, ?_⟩
  · intro path untouched
    have hroute : Route.ofPath? q.path = some .groups := by
      rw [path]
      decide +kernel
    obtain ⟨claims, hserved⟩ := serve_admitted (i := i) Script.service authentic method hroute rfl
      (by decide)
    rw [hserved]
    exact serveGather_answers Group.toJson dequeues_groups _ _ _ _ s hgroups untouched
  · intro path untouched
    have hroute : Route.ofPath? q.path = some .users := by
      rw [path]
      decide +kernel
    obtain ⟨claims, hserved⟩ := serve_admitted (i := i) Script.service authentic method hroute rfl
      (by decide)
    rw [hserved]
    exact serveGather_answers User.toJson dequeues_users _ _ _ _ s husers untouched
  · intro segment group path free named valid untouched
    obtain ⟨claims, hserved⟩ := serve_admitted (i := i) Script.service authentic method
      (Route.ofPath_members path free) rfl (by simp [Route.methods])
    rw [hserved]
    show ∃ j, _ ∧ AnswersAt _ _ _ j (serveMembers g Script.service i segment s).1
    rw [serveMembers_named named valid]
    exact serveGather_answers User.toJson dequeues_members _ _ _ _ s hmembers untouched
  · intro β gathered retries f
    exact ⟨rfl, rfl, rfl, rfl⟩
  · intro β item r r' t t' x y f f' hr hr' hx hy hkind
    rw [serveListing_result item hr, serveListing_result item hr']
    show (Problem.ofIncomplete x).response = (Problem.ofIncomplete y).response
    rw [response_ofIncomplete hx, response_ofIncomplete hy, hkind]

/-- Two pages of groups, and a page of members that a failure follows. -/
def halfScript : Script :=
  { Script.empty with
    groups := [⟨0, .ok (.ofItems [.named "a"] (some "x"))⟩, ⟨0, .ok (.last [.named "b"])⟩]
    members := [⟨0, .ok (.ofItems [.named "ann"] (some "x"))⟩,
      ⟨0, .error ⟨.internal, none, "list_users_in_group", "down"⟩⟩] }

def membersOfStaff (script : Script) : Run Script User :=
  Pool.members ⟨"pool", []⟩ Script.service .free "staff" script 0

theorem half_of_the_listings_complete :
    ∃ v, Token.Verifier.ofKeyMap Sample.primaryKeyMap Sample.primaryIssuer 60 = .ok v ∧
      (serve (administered v) Script.service (asAdmin "GET" "/api/v1/groups") .none
        (.start halfScript .empty)).1 =
          .ofJson 200 (.obj [("count", .nat 2),
            ("items", .list [Group.toJson (.named "a"), Group.toJson (.named "b")])]) ∧
      (serve (administered v) Script.service (asAdmin "GET" "/api/v1/groups/staff/users") .none
        (.start halfScript .empty)).1.status = 503 ∧
      (serveListing User.toJson (membersOfStaff halfScript) (.start halfScript .empty)).1 =
        (serveListing User.toJson (membersOfStaff { halfScript with members := halfScript.members.tail })
          (.start halfScript .empty)).1 := by
  obtain ⟨v, claims, loaded, accepted, -⟩ := Token.adminToken_accepted
  have authentic : ∀ target, Authenticated (administered v) (Session.start halfScript .empty)
      (asAdmin "GET" target) := fun target => ⟨_, claims, bears_adminToken "GET" target, accepted⟩
  have pool : (administered v).pool = ⟨"pool", []⟩ := rfl
  refine ⟨v, loaded, ?_, ?_, ?_⟩
  · obtain ⟨groups, -⟩ := listings_are_complete_or_refused (administered v) (.start halfScript .empty)
      .none (asAdmin "GET" "/api/v1/groups") rfl (authentic _)
    have path : (asAdmin "GET" "/api/v1/groups").path = "/api/v1/groups" := by decide +kernel
    have untouched : ((administered v).pool.groups Script.service
        (listingPace (Session.start halfScript .empty) .none) halfScript 0).Untouched := by
      rw [pool]
      decide +kernel
    obtain ⟨j, hcalls, answers⟩ := groups path untouched
    rw [pool] at hcalls
    have hlast : j = 1 := by
      have calls : (Listing.Pool.groups ⟨"pool", []⟩ Script.service
          (listingPace (Session.start halfScript .empty) .none) halfScript 0).calls.length = 2 := by
        decide +kernel
      exact Nat.succ.inj (hcalls.symm.trans calls)
    subst hlast
    exact answers.complete _ rfl
  · obtain ⟨-, -, members, -⟩ := listings_are_complete_or_refused (administered v)
      (.start halfScript .empty) .none (asAdmin "GET" "/api/v1/groups/staff/users") rfl (authentic _)
    have path : (asAdmin "GET" "/api/v1/groups/staff/users").path =
        "/api/v1/groups/" ++ "staff" ++ "/users" := by decide +kernel
    have untouched : ((administered v).pool.members Script.service
        (listingPace (Session.start halfScript .empty) .none) "staff" halfScript 0).Untouched := by
      rw [pool]
      decide +kernel
    obtain ⟨j, hcalls, answers⟩ := members "staff" "staff" path (by decide) (by decide +kernel)
      (by decide +kernel) untouched
    rw [pool] at hcalls
    have hlast : j = 1 := by
      have calls : (Listing.Pool.members ⟨"pool", []⟩ Script.service
          (listingPace (Session.start halfScript .empty) .none) "staff" halfScript 0).calls.length = 2 := by
        decide +kernel
      exact Nat.succ.inj (hcalls.symm.trans calls)
    subst hlast
    exact (answers.refused _ rfl).2
  · obtain ⟨-, -, -, -, alike⟩ := listings_are_complete_or_refused (administered v)
      (.start halfScript .empty) .none (asAdmin "GET" "/") rfl (authentic _)
    exact alike User User.toJson _ _ _ _ ⟨[.named "ann"], _⟩ ⟨[], _⟩ _ _ rfl rfl rfl rfl rfl

end DirectoryGateway.Gateway
