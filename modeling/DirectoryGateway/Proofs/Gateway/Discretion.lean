import DirectoryGateway.Gateway.History
import DirectoryGateway.Proofs.Gateway.Membership
import DirectoryGateway.Proofs.Gateway.Refusals
import DirectoryGateway.Proofs.Listing.Redaction
import Mathlib.Data.List.Forall2

/-!
# What the vendor says stays inside

Sessions on providers that are alike give the same responses, request by request, and count the same. A response depends on
nothing of a failure but its kind, and what a session does next on nothing of it at all; so sessions that are alike stay so,
whatever happens to them.
-/

namespace DirectoryGateway.Gateway

open DirectoryGateway.Directory
open DirectoryGateway.Provider
open DirectoryGateway.Listing (Run gather redactResult gather_alike)
open DirectoryGateway.Token (Claims)

variable {σ τ α : Type} {R : σ → τ → Prop} {a : Service σ} {b : Service τ} {s : Session σ}
  {t : Session τ} {g : Config} {q : Request} {i : Interrupts}

/-! ### Answers -/

theorem response_redacted (f : Failure) :
    (Problem.ofFailure f.redacted).response = (Problem.ofFailure f).response := by
  rw [response_ofFailure, response_ofFailure, kind_redacted]

theorem listingAnswer_redact (item : α → Json) (result : Listing.Result α) :
    listingAnswer item (redactResult result) = listingAnswer item result := by
  cases result with
  | ok items => rfl
  | error i =>
    obtain ⟨gathered, cause⟩ := i
    cases cause with
    | retriesExhausted retries last => exact response_redacted last
    | provider failure => exact response_redacted failure
    | cancelled => rfl

theorem userAnswer_redact (outcome : Outcome User) : userAnswer (redact outcome) = userAnswer outcome := by
  cases outcome with
  | ok u => rfl
  | error f => exact response_redacted f

theorem changeAnswer_redact (outcome : Outcome Unit) :
    changeAnswer (redact outcome) = changeAnswer outcome := by
  cases outcome with
  | ok u => rfl
  | error f => exact response_redacted f

/-! ### Sessions -/

def Session.on (s : Session σ) (store : τ) : Session τ :=
  ⟨store, s.ledger, s.draining, s.stopped, s.now⟩

/-- Sessions that differ in their providers only, whose states are related. -/
structure Session.Alike (R : σ → τ → Prop) (s : Session σ) (t : Session τ) : Prop where
  same : t = s.on t.store
  store : R s.store t.store

namespace Session.Alike

theorem now (h : s.Alike R t) : t.now = s.now := by
  rw [h.same, Session.on]

theorem observe (h : s.Alike R t) (notes : List Telemetry.Note) :
    (s.observe notes).Alike R (t.observe notes) := by
  have hstore := h.store
  rw [h.same]
  exact ⟨rfl, hstore⟩

theorem interrupted (h : s.Alike R t) (i : Interrupts) (started : Nat) :
    (s.interrupted i started).Alike R (t.interrupted i started) := by
  have hstore := h.store
  rw [h.same]
  exact ⟨rfl, hstore⟩

end Session.Alike

def StepsAlike {ρ : Type} (R : σ → τ → Prop) (x : ρ × Session σ) (y : ρ × Session τ) : Prop :=
  x.1 = y.1 ∧ x.2.Alike R y.2

theorem serveListing_alike (item : α → Json) {r : Run σ α} {r' : Run τ α} (runs : Run.Alike R r r')
    (h : s.Alike R t) : StepsAlike R (serveListing item r s) (serveListing item r' t) := by
  have hresult : r.result?.map redactResult = r'.result?.map redactResult := by
    rw [Run.result?_redacted, Run.result?_redacted, runs.shown]
  have hnow : r.now = r'.now := congrArg (·.now) runs.shown
  have hnotes : r.notes = r'.notes := congrArg (·.notes) runs.shown
  have hafter : ({ s with store := r.store, now := r.now }.observe r.notes).Alike R
      ({ t with store := r'.store, now := r'.now }.observe r'.notes) := by
    rw [h.same, ← hnow, ← hnotes]
    exact ⟨rfl, runs.store⟩
  unfold serveListing
  cases hr : r.result? with
  | none =>
    cases hr' : r'.result? with
    | none => exact ⟨rfl, hafter⟩
    | some result' =>
      rw [hr, hr'] at hresult
      cases hresult
  | some result =>
    cases hr' : r'.result? with
    | none =>
      rw [hr, hr'] at hresult
      cases hresult
    | some result' =>
      rw [hr, hr'] at hresult
      have hredacted : redactResult result = redactResult result' := Option.some.inj hresult
      have hanswer : listingAnswer item result = listingAnswer item result' := by
        rw [← listingAnswer_redact, hredacted, listingAnswer_redact]
      exact ⟨hanswer, hafter⟩

theorem serveCall_alike {answer : Outcome α → Response} (discreet : ∀ o, answer (redact o) = answer o)
    {x : Reply α × σ} {y : Reply α × τ} (calls : CallsAlike R x y) (h : s.Alike R t) :
    StepsAlike R (serveCall answer x s) (serveCall answer y t) := by
  obtain ⟨reply, store⟩ := x
  obtain ⟨reply', store'⟩ := y
  obtain ⟨hreply, hstore⟩ := calls
  have hdelay : reply.delay = reply'.delay := congrArg (·.delay) hreply
  have hnotes : reply.notes = reply'.notes := congrArg (·.notes) hreply
  have houtcome : redact reply.outcome = redact reply'.outcome := congrArg (·.outcome) hreply
  have hanswer : answer reply.outcome = answer reply'.outcome := by
    rw [← discreet, houtcome, discreet]
  simp only [serveCall, ← hdelay, ← hnotes, ← hanswer]
  rw [h.same]
  split
  · exact ⟨rfl, rfl, hstore⟩
  · exact ⟨rfl, rfl, hstore⟩

/-! ### Requests -/

theorem serveGather_alike (item : α → Json) {f : PageCall σ α} {f' : PageCall τ α}
    (calls : PagesAlike R f f') (alike : a.Alike R b) (h : s.Alike R t) (i : Interrupts)
    (operation : String) (request : ListingRequest) (schedule : Listing.Backoff) :
    StepsAlike R
      (serveListing item
        (gather f (listingPace s i) operation (a.pagesLeft s.store) request schedule s.store s.now) s)
      (serveListing item
        (gather f' (listingPace t i) operation (b.pagesLeft t.store) request schedule t.store t.now) t) := by
  refine serveListing_alike item ?_ h
  have hpace : listingPace t i = listingPace s i := by
    rw [h.same]
    rfl
  rw [hpace, h.now, alike.pagesLeft _ _ h.store]
  exact gather_alike calls _ _ _ _ _ h.store _

theorem serveMembers_alike (alike : a.Alike R b) (h : s.Alike R t) (segment : String) :
    StepsAlike R (serveMembers g a i segment s) (serveMembers g b i segment t) := by
  unfold serveMembers
  split
  · exact ⟨rfl, h⟩
  · split
    · exact ⟨rfl, h⟩
    · exact serveGather_alike User.toJson alike.members alike h i _ _ _

theorem serveUser_alike (alike : a.Alike R b) (h : s.Alike R t) (segment : String) :
    StepsAlike R (serveUser g a segment s) (serveUser g b segment t) := by
  unfold serveUser
  split
  · exact ⟨rfl, h⟩
  · split
    · exact ⟨rfl, h⟩
    · exact serveCall_alike userAnswer_redact (alike.user _ _ _ _ h.store) h

theorem serveChange_alike (alike : a.Alike R b) (h : s.Alike R t) (claims : Claims)
    (method group username : String) :
    StepsAlike R (serveChange g a claims method group username s)
      (serveChange g b claims method group username t) := by
  unfold serveChange
  split
  · exact ⟨rfl, h⟩
  · exact ⟨rfl, h⟩
  · split
    · exact ⟨rfl, h⟩
    · dsimp only
      split
      · exact serveCall_alike changeAnswer_redact (alike.addMember _ _ _ _ _ h.store) h
      · exact serveCall_alike changeAnswer_redact (alike.removeMember _ _ _ _ _ h.store) h

theorem serveProtected_alike (alike : a.Alike R b) (h : s.Alike R t) (claims : Claims) (method : String)
    (route : Route) :
    StepsAlike R (serveProtected g a i claims method route s)
      (serveProtected g b i claims method route t) := by
  cases route with
  | groups => exact serveGather_alike Group.toJson alike.groups alike h i _ _ _
  | users => exact serveGather_alike User.toJson alike.users alike h i _ _ _
  | members group => exact serveMembers_alike alike h group
  | user username => exact serveUser_alike alike h username
  | membership group username => exact serveChange_alike alike h claims method group username
  | _ => exact ⟨rfl, h⟩

theorem publicAnswer_alike (h : s.Alike R t) (route : Route) :
    StepsAlike R (publicAnswer g s route, afterPublic route s)
      (publicAnswer g t route, afterPublic route t) := by
  have hstore := h.store
  rw [h.same]
  cases route <;> exact ⟨rfl, rfl, hstore⟩

theorem serveRoute_alike (alike : a.Alike R b) (h : s.Alike R t) (route : Route) :
    StepsAlike R (serveRoute g a q i route s) (serveRoute g b q i route t) := by
  unfold serveRoute
  rw [h.now]
  dsimp only
  split
  · split
    · exact ⟨rfl, h⟩
    · split
      · exact serveProtected_alike alike h _ q.method route
      · exact ⟨rfl, h⟩
  · split
    · exact publicAnswer_alike h route
    · exact ⟨rfl, h⟩

theorem respond_alike (alike : a.Alike R b) (h : s.Alike R t) :
    StepsAlike R (respond g a q i s) (respond g b q i t) := by
  unfold respond
  split
  · exact ⟨rfl, h⟩
  case h_2 route hroute =>
    obtain ⟨hresponse, hafter⟩ := serveRoute_alike (g := g) (q := q) (i := i) alike h route
    refine ⟨?_, hafter⟩
    dsimp only
    rw [hresponse]

theorem serve_alike (alike : a.Alike R b) (h : s.Alike R t) :
    StepsAlike R (serve g a q i s) (serve g b q i t) := by
  obtain ⟨hresponse, hafter⟩ := respond_alike (g := g) (q := q) (i := i) alike h
  unfold serve
  dsimp only
  rw [h.now, hafter.now, ← hresponse]
  exact ⟨rfl, (hafter.observe _).interrupted i s.now⟩

theorem receive_alike (alike : a.Alike R b) (h : s.Alike R t) :
    StepsAlike R (receive g a q i s) (receive g b q i t) := by
  unfold receive
  split
  · exact ⟨rfl, h⟩
  case h_2 q' hq' =>
    obtain ⟨hresponse, hafter⟩ := serve_alike (g := g) (q := q') (i := i) alike h
    refine ⟨?_, hafter⟩
    dsimp only
    rw [hresponse]

/-! ### Histories -/

theorem play_alike (alike : a.Alike R b) (h : s.Alike R t) (m : Moment) :
    StepsAlike R (m.play g a s) (m.play g b t) := by
  cases m with
  | request q i =>
    obtain ⟨hresponse, hafter⟩ := serve_alike (g := g) (q := q) (i := i) alike h
    simp only [Moment.play]
    exact ⟨congrArg some hresponse, hafter⟩
  | message q i =>
    obtain ⟨hresponse, hafter⟩ := receive_alike (g := g) (q := q) (i := i) alike h
    simp only [Moment.play]
    exact ⟨congrArg some hresponse, hafter⟩
  | drain =>
    have hstore := h.store
    rw [h.same]
    exact ⟨rfl, rfl, hstore⟩
  | finish =>
    have hstore := h.store
    rw [h.same]
    exact ⟨rfl, rfl, hstore⟩

theorem trace_alike (alike : a.Alike R b) (h : s.Alike R t) (ms : List Moment) :
    List.Forall₂ (StepsAlike R) (trace g a s ms) (trace g b t ms) := by
  induction ms generalizing s t with
  | nil => exact .nil
  | cons m ms ih =>
    have hstep := play_alike (g := g) alike h m
    exact .cons hstep (ih hstep.2)

/-- The response to a moment, and what a scripted provider has seen when it is over. -/
def observed (step : Option Response × Session Script) :
    Option Response × Nat × List (Option String) × List (String × String) :=
  (step.1, step.2.store.callCount, step.2.store.cursors, step.2.store.memberships)

theorem observed_alike {x y : Option Response × Session Script} (h : StepsAlike Script.Agrees x y) :
    observed x = observed y := by
  have hredacted : x.2.store.redacted = y.2.store.redacted := h.2.store
  have hcalls : x.2.store.callCount = y.2.store.callCount := congrArg (·.callCount) hredacted
  have hcursors : x.2.store.cursors = y.2.store.cursors := congrArg (·.cursors) hredacted
  have hmemberships : x.2.store.memberships = y.2.store.memberships := congrArg (·.memberships) hredacted
  rw [observed, observed, h.1, hcalls, hcursors, hmemberships]

/-- Whatever is asked of two sessions on scripts that differ in vendor detail at most, the responses are the same, and the
scripts have seen the same. Nor can it be told from the responses by which of two providers that are alike they are given. -/
theorem vendor_detail_stays_inside (g : Config) (ms : List Moment) :
    (∀ (s : Session Script) (script : Script), s.store.Agrees script →
      (trace g Script.service s ms).map observed =
        (trace g Script.service (s.on script) ms).map observed) ∧
    ∀ (σ τ : Type) (R : σ → τ → Prop) (a : Service σ) (b : Service τ) (s : Session σ) (t : Session τ),
      a.Alike R b → s.Alike R t →
        (trace g a s ms).map Prod.fst = (trace g b t ms).map Prod.fst := by
  constructor
  · intro s script agrees
    have hsteps := trace_alike (g := g) Script.service_alike (t := s.on script) ⟨rfl, agrees⟩ ms
    rw [← List.forall₂_eq_eq_eq, List.forall₂_map_left_iff, List.forall₂_map_right_iff]
    exact hsteps.imp fun _ _ h => observed_alike h
  · intro σ τ R a b s t alike h
    have hsteps := trace_alike (g := g) alike h ms
    rw [← List.forall₂_eq_eq_eq, List.forall₂_map_left_iff, List.forall₂_map_right_iff]
    exact hsteps.imp fun _ _ h => h.1

/-- A page of groups, then a failure that ends the listing; changes of memberships fail as well. -/
def brokenScript (code : Option String) (message : String) : Script :=
  { Script.empty with
    groups := [⟨0, .ok (.ofItems [] (some "a"))⟩, ⟨0, .error ⟨.internal, code, "list_groups", message⟩⟩]
    mutationFailure := some ⟨.permissionDenied, code, "add_user_to_group", message⟩ }

def refusing (f : Failure) : Service Unit where
  groups _ _ := (.now (.error f), ())
  users _ _ := (.now (.error f), ())
  members _ _ := (.now (.error f), ())
  user _ _ _ := (.now (.error f), ())
  addMember _ _ _ _ := (.now (.error f), ())
  removeMember _ _ _ _ := (.now (.error f), ())
  pagesLeft _ := 0

theorem refusing_alike {f f' : Failure} (h : f.redacted = f'.redacted) :
    (refusing f).Alike (fun _ _ => True) (refusing f') := by
  have hcall : ∀ (α : Type), CallsAlike (α := α) (fun _ _ => True) (.now (.error f), ())
      (.now (.error f'), ()) := by
    intro α
    refine ⟨?_, trivial⟩
    simp only [Reply.now, Reply.redacted, redact, h]
  exact ⟨fun _ _ _ _ => hcall _, fun _ _ _ _ => hcall _, fun _ _ _ _ => hcall _, fun _ _ _ _ _ => hcall _,
    fun _ _ _ _ _ _ => hcall _, fun _ _ _ _ _ _ => hcall _, fun _ _ _ => rfl⟩

def broadRequests : List Moment :=
  [.request (asAdmin "GET" "/api/v1/groups") .none, .request joining .none,
    .request ⟨"GET", "/metrics", []⟩ .none]

theorem broken_providers_look_the_same :
    ∃ v, Token.Verifier.ofKeyMap Sample.primaryKeyMap Sample.primaryIssuer 60 = .ok v ∧
      (trace (administered v) Script.service
          (.start (brokenScript (some "InternalErrorException") "replica 7 is down") .empty)
          broadRequests).map observed =
        (trace (administered v) Script.service (.start (brokenScript none "") .empty)
          broadRequests).map observed ∧
      (trace (administered v) (refusing ⟨.unknown, some "NewException", "get_user", "what now"⟩)
          (.start () .empty) broadRequests).map Prod.fst =
        (trace (administered v) (refusing ⟨.unknown, none, "get_user", ""⟩) (.start () .empty)
          broadRequests).map Prod.fst := by
  obtain ⟨v, claims, loaded, -⟩ := Token.adminToken_accepted
  obtain ⟨scripts, providers⟩ := vendor_detail_stays_inside (administered v) broadRequests
  refine ⟨v, loaded, ?_, ?_⟩
  · exact scripts (.start (brokenScript (some "InternalErrorException") "replica 7 is down") .empty)
      (brokenScript none "") rfl
  · exact providers Unit Unit _ _ _ (.start () .empty) (.start () .empty) (refusing_alike rfl)
      ⟨rfl, trivial⟩

end DirectoryGateway.Gateway
