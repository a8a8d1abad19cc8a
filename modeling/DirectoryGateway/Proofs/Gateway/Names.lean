import DirectoryGateway.Proofs.Gateway.Accounts
import DirectoryGateway.Proofs.Gateway.Endpoints
import Mathlib.Data.List.Forall2

/-!
# Metrics without names

The label of an endpoint is one of eleven texts, and on the paths of the router it is the path of the route. Names do not change it, so
what a text of metrics shows of requests does not depend on the names in their paths. What else it shows does: a listing that the
provider refuses after some pages and one that is refused for its name may have one status, but not as many pages.
-/

namespace DirectoryGateway.Gateway

open DirectoryGateway.Provider
open DirectoryGateway.Telemetry
open Route (segments)

variable {σ : Type}

/-- Exchanges with the same method and status, whose paths differ in the places of names at most. -/
structure Exchange.Alike (x x' : Exchange) : Prop where
  method : x.request.method = x'.request.method
  path : Renamed (segments x.request.path) (segments x'.request.path)
  status : x.response.status = x'.response.status

theorem Exchange.Alike.counter {x x' : Exchange} (h : x.Alike x') : x.counter = x'.counter := by
  rw [Exchange.counter, Exchange.counter, h.method, h.status, endpoint_renamed h.path]

theorem counters_alike {xs xs' : List Exchange} (h : List.Forall₂ Exchange.Alike xs xs') :
    xs.map Exchange.counter = xs'.map Exchange.counter := by
  induction h with
  | nil => rfl
  | cons head tail ih => rw [List.map_cons, List.map_cons, head.counter, ih]

/-- What a text of metrics shows after histories that differ in names at most. -/
structure ShownAlike (l l' : Ledger) : Prop where
  requests : shown [requestFamily] l.lines = shown [requestFamily] l'.lines
  counters : shown otherFamilies l.lines = shown otherFamilies l'.lines →
    shown counterFamilies l.lines = shown counterFamilies l'.lines

/-- Labels of endpoints agree with the router, and reveal no names. -/
theorem endpoints_reveal_no_names (g : Config) (service : Service σ) (modest : service.Modest) (store : σ) :
    (endpointLabels.length = 11 ∧ ∀ path, (Endpoint.ofPath path).label ∈ endpointLabels) ∧
    (∀ path route, Route.ofPath? path = some route →
      (Endpoint.ofPath path).label = String.intercalate "/" (route.generic.parts.map braced)) ∧
    (∀ path path', Renamed (segments path) (segments path') → Endpoint.ofPath path = Endpoint.ofPath path') ∧
    ∀ ms ms' : List Moment,
      (∀ q ∈ (ms ++ ms').filterMap Moment.served?, Text.isToken q.method = true) →
      List.Forall₂ Exchange.Alike (exchanges g service (.start store .empty) ms)
        (exchanges g service (.start store .empty) ms') →
      ShownAlike (after g service (.start store .empty) ms).ledger
        (after g service (.start store .empty) ms').ledger := by
  refine ⟨⟨rfl, fun path => label_mem _⟩, ?_, fun path path' => endpoint_renamed, ?_⟩
  · intro path route found
    rw [endpoint_of_route found, label_endpoint]
  · intro ms ms' tokens alike
    rw [List.filterMap_append, List.forall_mem_append] at tokens
    obtain ⟨samples, accounts⟩ := (counted_once modest g store tokens.1).accounts
    obtain ⟨samples', accounts'⟩ := (counted_once modest g store tokens.2).accounts
    rw [counters_alike alike] at accounts
    have requests := Accounts.shown_eq accounts accounts'
    exact ⟨requests, shown_counters_eq requests⟩

theorem exchanges_single (g : Config) (service : Service σ) (s : Session σ) (q : Request) (i : Interrupts) :
    exchanges g service s [.request q i] =
      [⟨q, (serve g service q i s).1, 1000000 * ((serve g service q i s).2.now - s.now)⟩] := by
  simp only [exchanges, exchange?, Moment.served?, Moment.play]
  rfl

theorem alike_of_single {q q' : Request} {r r' : Response} {nanos nanos' : Nat} (method : q.method = q'.method)
    (path : Renamed (segments q.path) (segments q'.path)) (status : r.status = r'.status) :
    Exchange.Alike ⟨q, r, nanos⟩ ⟨q', r', nanos'⟩ :=
  ⟨method, path, status⟩

def askForUser (username : String) : Request :=
  ⟨"GET", "/api/v1/users/" ++ username, []⟩

theorem ann_and_bob_are_shown_alike :
    (Endpoint.ofPath (askForUser "ann").path).label = "/api/v1/users/\x7busername\x7d" ∧
      shown [requestFamily] (after sampleConfig Script.service emptySession
          [.request (askForUser "ann") .none]).ledger.lines =
        shown [requestFamily] (after sampleConfig Script.service emptySession
          [.request (askForUser "bob") .none]).ledger.lines := by
  obtain ⟨-, labels, -, alike⟩ := endpoints_reveal_no_names sampleConfig Script.service Script.modest .empty
  have hann : segments (askForUser "ann").path = ["", "api", "v1", "users", "ann"] := by decide +kernel
  have hbob : segments (askForUser "bob").path = ["", "api", "v1", "users", "bob"] := by decide +kernel
  constructor
  · rw [labels _ (.user "ann") (by rw [Route.ofPath?, hann]; rfl)]
    decide +kernel
  · have renamed : Renamed (segments (askForUser "ann").path) (segments (askForUser "bob").path) := by
      rw [hann, hbob]
      exact .slash (.user "ann" "bob" [])
    refine (alike _ _ (by decide +kernel) ?_).requests
    rw [exchanges_single, exchanges_single]
    exact .cons (alike_of_single rfl renamed (by decide +kernel)) .nil

/-! ### Blank names -/

/-- A listing of members that is refused after its first page. -/
def refusedAfterPage : Script :=
  { Script.empty with
    members := [⟨0, .ok ⟨[], some "more"⟩⟩, ⟨0, .error (scriptedFailure "list_users_in_group" .invalidParameter)⟩] }

/-- A request for the members of a group. -/
def askForMembers (segment : String) : Request :=
  asAdmin "GET" ("/api/v1/groups/" ++ segment ++ "/users")

section

variable {v : Token.Verifier} {claims : Token.Claims} {segment : String}

theorem respond_members (accepted : v.verify Token.sampleTime Token.adminToken = .ok claims)
    (found : Route.ofPath? (askForMembers segment).path = some (.members segment)) :
    respond (administered v) Script.service (askForMembers segment) .none (.start refusedAfterPage .empty) =
      ((serveMembers sampleConfig Script.service .none segment (.start refusedAfterPage .empty)).1.sent "GET",
        (serveMembers sampleConfig Script.service .none segment (.start refusedAfterPage .empty)).2) := by
  obtain ⟨claims', hrespond⟩ := respond_admitted (g := administered v) (s := .start refusedAfterPage .empty)
    Script.service .none found rfl rfl (Or.inl rfl) (authenticated_asAdmin "GET" _ rfl accepted)
  exact hrespond

/-- The status of the response, and the counters after it. -/
theorem asked_members (segment : String) (counters : List (Counter × Nat))
    (accepted : v.verify Token.sampleTime Token.adminToken = .ok claims)
    (found : Route.ofPath? (askForMembers segment).path = some (.members segment))
    (status : (serveMembers sampleConfig Script.service .none segment
      (.start refusedAfterPage .empty)).1.status = 400)
    (listed : (serveMembers sampleConfig Script.service .none segment
      (.start refusedAfterPage .empty)).2.ledger.counters = counters) :
    (serve (administered v) Script.service (askForMembers segment) .none
      (.start refusedAfterPage .empty)).1.status = 400 ∧
    (serve (administered v) Script.service (askForMembers segment) .none
      (.start refusedAfterPage .empty)).2.ledger.counters =
        Ledger.raise (.requests "GET" .members 400) counters := by
  have hstatus : (serve (administered v) Script.service (askForMembers segment) .none
      (.start refusedAfterPage .empty)).1.status = 400 := by
    rw [serve_response, respond_members accepted found, status_sent, status]
  have hcounter : Counter.requests "GET" (.ofPath (askForMembers segment).path) 400 = .requests "GET" .members 400 := by
    rw [endpoint_of_route found]
    rfl
  refine ⟨hstatus, ?_⟩
  rw [serve_ledger, hstatus, respond_members accepted found, ← listed, ← hcounter]
  rfl

end

theorem length_shown_counters (l : Ledger) : (shown counterFamilies l.lines).length = (joinAll l.counters).length := by
  have hall : l.counters.filter (fun c => counterFamilies.contains c.1.family) = l.counters := by
    rw [List.filter_eq_self]
    intro c hc
    exact List.contains_iff_mem.mpr c.1.family_mem
  rw [Ledger.shown_lines (fun f hf => hf), hall, (perm_sortLines _).length_eq, List.length_map]

theorem after_single (g : Config) (service : Service σ) (s : Session σ) (q : Request) (i : Interrupts) :
    after g service s [.request q i] = (serve g service q i s).2 := by
  simp only [after, List.foldl_cons, List.foldl_nil, Moment.play]

/-- A blank name is refused before the first page, with the status of a name that the provider refuses after it. -/
theorem blank_name_lists_no_page :
    ∃ v, Token.Verifier.ofKeyMap Sample.primaryKeyMap Sample.primaryIssuer 60 = .ok v ∧
      List.Forall₂ Exchange.Alike
        (exchanges (administered v) Script.service (.start refusedAfterPage .empty)
          [.request (askForMembers "staff") .none])
        (exchanges (administered v) Script.service (.start refusedAfterPage .empty)
          [.request (askForMembers "%20") .none]) ∧
      shown counterFamilies (after (administered v) Script.service (.start refusedAfterPage .empty)
          [.request (askForMembers "staff") .none]).ledger.lines ≠
        shown counterFamilies (after (administered v) Script.service (.start refusedAfterPage .empty)
          [.request (askForMembers "%20") .none]).ledger.lines := by
  obtain ⟨v, claims, loaded, accepted, -⟩ := Token.adminToken_accepted
  have hstaff : segments (askForMembers "staff").path = ["", "api", "v1", "groups", "staff", "users"] := by
    decide +kernel
  have hblank : segments (askForMembers "%20").path = ["", "api", "v1", "groups", "%20", "users"] := by
    decide +kernel
  obtain ⟨status, counters⟩ := asked_members "staff" [(.pages "list_users_in_group", 1)] accepted
    (by rw [Route.ofPath?, hstaff]; rfl)
    (by decide +kernel) (by decide +kernel)
  obtain ⟨status', counters'⟩ := asked_members "%20" [] accepted
    (by rw [Route.ofPath?, hblank]; rfl) (by decide +kernel) (by decide +kernel)
  refine ⟨v, loaded, ?_, ?_⟩
  · have renamed : Renamed (segments (askForMembers "staff").path) (segments (askForMembers "%20").path) := by
      rw [hstaff, hblank]
      exact .slash (.group "staff" "%20" ["users"])
    have same : (askForMembers "staff").method = (askForMembers "%20").method := rfl
    rw [exchanges_single, exchanges_single]
    exact .cons (alike_of_single same renamed (status.trans status'.symm)) .nil
  · intro same
    have hlength := congrArg List.length same
    rw [length_shown_counters, length_shown_counters, after_single, after_single, counters, counters'] at hlength
    revert hlength
    decide +kernel

end DirectoryGateway.Gateway
