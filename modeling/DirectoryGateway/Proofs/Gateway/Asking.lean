import DirectoryGateway.Gateway.Floor
import DirectoryGateway.Proofs.Gateway.Listings
import DirectoryGateway.Proofs.Listing.Kinds

/-!
# Asking for a listing

A request asks for a listing if it bears an accepted token, has the path of the listing, with a valid name where there is one,
and a method of reading. Such a request is served by the listing and by nothing else, whatever the token says of its bearer.
-/

namespace DirectoryGateway.Gateway

open DirectoryGateway.Directory
open DirectoryGateway.Provider
open DirectoryGateway.Listing
open DirectoryGateway.Token (Claims)

variable {σ : Type} {g : Config} {service : Service σ} {s : Session σ} {q : Request} {i : Interrupts}
  {kind : Kind}

/-! ### Paths -/

/-- A path that a kind of listing is found at, with the name in it, if there is one, valid. -/
def IsAt (path : String) : Kind → Prop
  | .groups => path = "/api/v1/groups"
  | .users => path = "/api/v1/users"
  | .members group => ∃ segment, path = "/api/v1/groups/" ++ segment ++ "/users" ∧ '/' ∉ segment.toList ∧
      Text.percentText? segment = some group ∧ nameFault? group = none

/-- The request asks the session for a listing, and may have it. -/
structure Asks (g : Config) (s : Session σ) (q : Request) (kind : Kind) : Prop where
  method : q.method = "GET" ∨ q.method = "HEAD"
  path : IsAt q.path kind
  authentic : Authenticated g s q

/-- The listing that serves a request, at a pace. -/
def Config.listing (g : Config) (service : Service σ) (s : Session σ) (kind : Kind) (pace : Pace) :
    Run σ kind.source.Record :=
  g.pool.list kind service pace s.store s.now

/-- A route that a kind of listing is found at. -/
structure ListsAt (g : Config) (kind : Kind) (route : Route) : Prop where
  guarded : route.isProtected = true
  methods : route.methods = ["GET", "HEAD"]
  serves : ∀ {σ : Type} (service : Service σ) (i : Interrupts) (claims : Claims) (method : String)
    (s : Session σ), serveProtected g service i claims method route s =
      serveListing kind.source.toJson (g.listing service s kind (listingPace s i)) s

theorem exists_listsAt (g : Config) {path : String} (h : IsAt path kind) :
    ∃ route, Route.ofPath? path = some route ∧ ListsAt g kind route := by
  cases kind with
  | groups =>
    refine ⟨.groups, ?_, rfl, rfl, fun _ _ _ _ _ => rfl⟩
    have hpath : path = "/api/v1/groups" := h
    rw [hpath]
    decide +kernel
  | users =>
    refine ⟨.users, ?_, rfl, rfl, fun _ _ _ _ _ => rfl⟩
    have hpath : path = "/api/v1/users" := h
    rw [hpath]
    decide +kernel
  | members group =>
    obtain ⟨segment, hpath, free, named, valid⟩ := h
    refine ⟨.members segment, Route.ofPath_members hpath free, rfl, rfl, ?_⟩
    intro τ service i claims method s
    exact serveMembers_named named valid

theorem isAt_iff {path : String} :
    IsAt path kind ↔ ∃ route, Route.ofPath? path = some route ∧ route.kind? = some kind := by
  constructor
  · intro h
    cases kind with
    | groups =>
      refine ⟨.groups, ?_, rfl⟩
      have hpath : path = "/api/v1/groups" := h
      rw [hpath]
      decide +kernel
    | users =>
      refine ⟨.users, ?_, rfl⟩
      have hpath : path = "/api/v1/users" := h
      rw [hpath]
      decide +kernel
    | members group =>
      obtain ⟨segment, hpath, free, named, valid⟩ := h
      refine ⟨.members segment, Route.ofPath_members hpath free, ?_⟩
      rw [Route.kind?, readName_eq_ok_iff.mpr named]
      dsimp only
      rw [(checkName_eq_ok_iff "group").mpr valid]
  · rintro ⟨route, hroute, hkind⟩
    obtain ⟨hpath, hfree⟩ := Route.path_of_route hroute
    unfold Route.kind? at hkind
    split at hkind
    · cases hkind
      rw [IsAt, hpath]
      rfl
    · cases hkind
      rw [IsAt, hpath]
      rfl
    · next segment =>
      split at hkind
      · cases hkind
      · next group hnamed =>
        split at hkind
        · cases hkind
        · next hvalid =>
          cases hkind
          refine ⟨segment, ?_, hfree segment (by simp [Route.parts]), readName_eq_ok_iff.mp hnamed,
            (checkName_eq_ok_iff "group").mp hvalid⟩
          rw [hpath]
          simp [Route.parts, ← String.toList_inj]
    · cases hkind

theorem methods_of_kind {route : Route} (h : route.kind? = some kind) : route.methods = ["GET", "HEAD"] := by
  cases route with
  | membership group username => cases h
  | _ => rfl

theorem listingOf_eq_some_iff : g.listingOf? s.now q = some kind ↔ Asks g s q kind := by
  have hauthentic : Authenticated g s q ↔ ∃ claims, authenticate g.verifier (g.epoch + s.now / 1000) q = .ok claims := by
    constructor
    · rintro ⟨token, claims, bears, verified⟩
      exact ⟨claims, authenticate_eq_ok_iff.mpr ⟨token, bears, verified⟩⟩
    · rintro ⟨claims, accepted⟩
      obtain ⟨token, bears, verified⟩ := authenticate_eq_ok_iff.mp accepted
      exact ⟨token, claims, bears, verified⟩
  unfold Config.listingOf?
  constructor
  · intro h
    split at h
    · next route claims hroute accepted =>
      split at h
      · next allowed =>
        rw [methods_of_kind h] at allowed
        exact ⟨by simpa using allowed, isAt_iff.mpr ⟨route, hroute, h⟩, hauthentic.mpr ⟨claims, accepted⟩⟩
      · cases h
    · cases h
  · intro asks
    obtain ⟨route, hroute, hkind⟩ := isAt_iff.mp asks.path
    obtain ⟨claims, accepted⟩ := hauthentic.mp asks.authentic
    have allowed : route.methods.contains q.method = true := by
      rw [methods_of_kind hkind]
      simpa using asks.method
    rw [hroute, accepted]
    dsimp only
    rw [if_pos allowed, hkind]

theorem authenticated_asAdmin {claims : Claims} (method target : String) (clock : g.clock s = Token.sampleTime)
    (accepted : g.verifier.verify Token.sampleTime Token.adminToken = .ok claims) :
    Authenticated g s (asAdmin method target) := by
  refine ⟨_, claims, bears_adminToken method target, ?_⟩
  rw [clock]
  exact accepted

/-! ### Responses -/

theorem respond_admitted (service : Service σ) (i : Interrupts) {route : Route} (path : Route.ofPath? q.path = some route)
    (guarded : route.isProtected = true) (methods : route.methods = ["GET", "HEAD"])
    (method : q.method = "GET" ∨ q.method = "HEAD") (authentic : Authenticated g s q) :
    ∃ claims, respond g service q i s =
      ((serveProtected g service i claims q.method route s).1.sent q.method,
        (serveProtected g service i claims q.method route s).2) := by
  obtain ⟨token, claims, bears, verified⟩ := authentic
  have accepted : authenticate g.verifier (g.epoch + s.now / 1000) q = .ok claims :=
    authenticate_eq_ok_iff.mpr ⟨token, bears, verified⟩
  have allowed : route.methods.contains q.method = true := by
    rw [methods]
    rcases method with hget | hhead
    · rw [hget]
      rfl
    · rw [hhead]
      rfl
  have headed : route.methods.contains "HEAD" = true := by
    rw [methods]
    rfl
  refine ⟨claims, ?_⟩
  simp only [respond, path, serveRoute, guarded, allowed, accepted, headed, if_true, and_true]
  rfl

theorem respond_listing (service : Service σ) (i : Interrupts) (asks : Asks g s q kind) :
    respond g service q i s =
      ((serveListing kind.source.toJson (g.listing service s kind (listingPace s i)) s).1.sent q.method,
        (serveListing kind.source.toJson (g.listing service s kind (listingPace s i)) s).2) := by
  obtain ⟨route, path, lists⟩ := exists_listsAt g asks.path
  obtain ⟨claims, hrespond⟩ := respond_admitted service i path lists.guarded lists.methods
    asks.method asks.authentic
  rw [hrespond, lists.serves]

end DirectoryGateway.Gateway
