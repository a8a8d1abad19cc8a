import DirectoryGateway.Proofs.Gateway.Discretion
import DirectoryGateway.Proofs.Gateway.Listings
import DirectoryGateway.Proofs.Gateway.Responses
import DirectoryGateway.Proofs.Provider.Journal
import DirectoryGateway.Proofs.Text.Numerals

/-!
# What reaches the provider

Names are taken by three errands: asking for a user, asking for the members of a group, and changing a membership. They stand
percent encoded in the path. An errand is run with its names decoded, and only if all of them are admissible; so the names that
the journal of a provider holds after a request are admissible, and are the names of its path.
-/

namespace DirectoryGateway.Directory

/-- A name that a provider may be asked about. -/
structure Admissible (name : String) : Prop where
  written : ∃ c ∈ name.toList, Text.isBlank c = false
  short : name.length ≤ 128
  plain : ∀ c ∈ name.toList, Text.isControl c = false ∧ c ≠ '/'

theorem nameFault_eq_none_iff {name : String} : nameFault? name = none ↔ Admissible name := by
  have hwritten : Text.blank name = false ↔ ∃ c ∈ name.toList, Text.isBlank c = false := by
    rw [← Bool.not_eq_true, Text.blank_iff]
    simp
  have hplain : (name.toList.any fun c => Text.isControl c || c == '/') = false ↔
      ∀ c ∈ name.toList, Text.isControl c = false ∧ c ≠ '/' := by
    simp [List.any_eq_false]
  unfold nameFault?
  constructor
  · intro h
    split at h
    · cases h
    · next hblank =>
      split at h
      · cases h
      · next hlong =>
        split at h
        · cases h
        · next hbad =>
          refine ⟨hwritten.mp (by simpa using hblank), ?_, hplain.mp (by simpa using hbad)⟩
          unfold maxNameLength at hlong
          omega
  · intro h
    have hshort : ¬ maxNameLength < name.length := by
      have := h.short
      unfold maxNameLength
      omega
    rw [hwritten.mpr h.written, hplain.mpr h.plain, if_neg hshort]
    rfl

end DirectoryGateway.Directory

namespace DirectoryGateway.Gateway

open DirectoryGateway.Directory
open DirectoryGateway.Provider
open DirectoryGateway.Listing
open DirectoryGateway.Token (Claims)

variable {σ : Type} {g : Config} {service : Service σ} {s : Session σ} {q : Request} {i : Interrupts}

/-! ### Errands -/

/-- What takes names, with the names as they stand in a path or as they are decoded. -/
inductive Errand where
  | user (username : String)
  | members (group : String)
  /-- The user joins the group or leaves it. -/
  | change (joins : Bool) (group username : String)
  deriving Repr, DecidableEq

namespace Errand

def group? : Errand → Option String
  | .user _ => none
  | .members group => some group
  | .change _ group _ => some group

def username? : Errand → Option String
  | .user username => some username
  | .members _ => none
  | .change _ _ username => some username

def names (e : Errand) : List String :=
  e.group?.toList ++ e.username?.toList

def methods : Errand → List String
  | .change true _ _ => ["PUT"]
  | .change false _ _ => ["DELETE"]
  | _ => ["GET", "HEAD"]

/-- Whether it is run for members of the group that administers only. -/
def isChange : Errand → Bool
  | .change _ _ _ => true
  | _ => false

def path : Errand → String
  | .user username => "/api/v1/users/" ++ username
  | .members group => "/api/v1/groups/" ++ group ++ "/users"
  | .change _ group username => "/api/v1/groups/" ++ group ++ "/users/" ++ username

def decoded? : Errand → Option Errand
  | .user username => do
    let username ← Text.percentText? username
    return .user username
  | .members group => do
    let group ← Text.percentText? group
    return .members group
  | .change joins group username => do
    let group ← Text.percentText? group
    let username ← Text.percentText? username
    return .change joins group username

/-- The first call that the errand is run with. -/
def call (pool : String) : Errand → Call
  | .user username => .user pool username
  | .members group => .page .members (.ofGroup pool group)
  | .change true group username => .addMember pool username group
  | .change false group username => .removeMember pool username group

def Admissible (e : Errand) : Prop :=
  ∀ name ∈ e.names, Directory.Admissible name

@[simp] theorem admissible_user (username : String) :
    (user username).Admissible ↔ Directory.Admissible username := by
  simp [Admissible, names, group?, username?]

@[simp] theorem admissible_members (group : String) :
    (members group).Admissible ↔ Directory.Admissible group := by
  simp [Admissible, names, group?, username?]

@[simp] theorem admissible_change (joins : Bool) (group username : String) :
    (change joins group username).Admissible ↔
      Directory.Admissible group ∧ Directory.Admissible username := by
  simp [Admissible, names, group?, username?]

/-- The path holds the names of the errand as segments. Its last segment is not empty. -/
structure At (e : Errand) (path : String) : Prop where
  path : path = e.path
  free : ∀ segment ∈ e.names, '/' ∉ segment.toList
  named : e.username? ≠ some ""

end Errand

/-- The request may have the errand run whose names it holds. -/
structure Entitled (g : Config) (s : Session σ) (q : Request) (e : Errand) : Prop where
  method : q.method ∈ e.methods
  path : e.At q.path
  bearer : ∃ token claims, Bears q token ∧ g.verifier.verify (g.clock s) token = .ok claims ∧
    (e.isChange = true → g.settings.adminGroup ∈ claims.groups)

/-! ### Routes -/

namespace Errand

def route : Errand → Route
  | .user username => .user username
  | .members group => .members group
  | .change _ group username => .membership group username

theorem route_isProtected (e : Errand) : e.route.isProtected = true := by
  cases e <;> rfl

theorem methods_subset (e : Errand) : e.methods ⊆ e.route.methods := by
  cases e with
  | change joins group username => cases joins <;> simp [methods, route, Route.methods]
  | _ => simp [methods, route, Route.methods]

theorem eq_of_route {e e' : Errand} (same : e.route = e'.route) {method : String}
    (h : method ∈ e.methods) (h' : method ∈ e'.methods) : e = e' := by
  cases e with
  | user username =>
    cases e' <;> cases same
    rfl
  | members group =>
    cases e' <;> cases same
    rfl
  | change joins group username =>
    cases e' with
    | change joins' group' username' =>
      cases same
      cases joins <;> cases joins' <;> simp_all [methods]
    | _ => cases same

theorem path_eq (e : Errand) : e.path = String.intercalate "/" e.route.parts := by
  cases e with
  | user username =>
    show "/api/v1/users/" ++ username = String.intercalate "/" ["", "api", "v1", "users", username]
    simp [← String.toList_inj]
  | members group =>
    show "/api/v1/groups/" ++ group ++ "/users" =
      String.intercalate "/" ["", "api", "v1", "groups", group, "users"]
    simp [← String.toList_inj]
  | change joins group username =>
    show "/api/v1/groups/" ++ group ++ "/users/" ++ username =
      String.intercalate "/" ["", "api", "v1", "groups", group, "users", username]
    simp [← String.toList_inj]

theorem free_iff (e : Errand) :
    (∀ part ∈ e.route.parts, '/' ∉ part.toList) ↔ ∀ segment ∈ e.names, '/' ∉ segment.toList := by
  cases e <;> simp [route, Route.parts, names, group?, username?]

theorem ofSegments_parts_iff (e : Errand) :
    Route.ofSegments? e.route.parts = some e.route ↔ e.username? ≠ some "" := by
  have hlast : ∀ (username : String) (r : Route),
      (if username = "" then none else some r) = some r ↔ some username ≠ some "" := by
    intro username r
    by_cases h : username = "" <;> simp [h]
  cases e with
  | user username => exact hlast username (.user username)
  | members group => exact iff_of_true rfl nofun
  | change joins group username => exact hlast username (.membership group username)

theorem ofPath_route_iff {e : Errand} {path : String} :
    Route.ofPath? path = some e.route ↔ e.At path := by
  constructor
  · intro h
    obtain ⟨hpath, hfree⟩ := Route.path_of_route h
    have hsegments := (Route.segments_eq_iff e.route.parts_ne_nil).mpr ⟨hpath, hfree⟩
    rw [Route.ofPath?, hsegments] at h
    refine ⟨?_, e.free_iff.mp hfree, e.ofSegments_parts_iff.mp h⟩
    rw [hpath, path_eq]
  · intro h
    have hpath : path = String.intercalate "/" e.route.parts := by rw [h.path, path_eq]
    have hsegments := (Route.segments_eq_iff e.route.parts_ne_nil).mpr ⟨hpath, e.free_iff.mpr h.free⟩
    rw [Route.ofPath?, hsegments]
    exact e.ofSegments_parts_iff.mpr h.named

end Errand

/-- What is asked for at a protected route is an errand, or takes no name. -/
theorem exists_errand {route : Route} {method : String} (guarded : route.isProtected = true)
    (allowed : method ∈ route.methods) :
    (∃ e : Errand, e.route = route ∧ method ∈ e.methods) ∨
      route = .me ∨ route = .groups ∨ route = .users := by
  cases route with
  | user username => exact Or.inl ⟨.user username, rfl, allowed⟩
  | members group => exact Or.inl ⟨.members group, rfl, allowed⟩
  | membership group username =>
    have hmethod : method = "PUT" ∨ method = "DELETE" := by simpa [Route.methods] using allowed
    rcases hmethod with hput | hdelete
    · exact Or.inl ⟨.change true group username, rfl, by simp [hput, Errand.methods]⟩
    · exact Or.inl ⟨.change false group username, rfl, by simp [hdelete, Errand.methods]⟩
  | me => exact Or.inr (Or.inl rfl)
  | groups => exact Or.inr (Or.inr (Or.inl rfl))
  | users => exact Or.inr (Or.inr (Or.inr rfl))
  | _ => cases guarded

/-! ### Serving -/

/-- Runs an errand whose names are decoded. -/
def Errand.run (g : Config) (service : Service σ) (i : Interrupts) (s : Session σ) :
    Errand → Response × Session σ
  | .user username => serveCall userAnswer (service.user g.settings.pool username s.store) s
  | .members group =>
    serveListing User.toJson (g.pool.members service (listingPace s i) group s.store s.now) s
  | .change true group username =>
    serveCall changeAnswer (service.addMember g.settings.pool username group s.store) s
  | .change false group username =>
    serveCall changeAnswer (service.removeMember g.settings.pool username group s.store) s

/-- What a session makes of an errand. -/
inductive Settled (g : Config) (service : Service σ) (i : Interrupts) (claims : Claims) (s : Session σ)
    (e : Errand) : Response × Session σ → Prop where
  | undecoded (text : String) (unreadable : e.decoded? = none) :
    Settled g service i claims s e (.ofText 400 text, s)
  | forbidden (p : Problem) (guarded : e.isChange = true)
      (stranger : g.settings.adminGroup ∉ claims.groups) :
    Settled g service i claims s e (p.response, s)
  | inadmissible (p : Problem) (status : p.status = 400) (d : Errand) (decoded : e.decoded? = some d)
      (unfit : ¬ d.Admissible) :
    Settled g service i claims s e (p.response, s)
  | sent (d : Errand) (decoded : e.decoded? = some d) (fit : d.Admissible) :
    Settled g service i claims s e (d.run g service i s)

theorem undecoded_of_readName {field segment text : String} (h : Route.readName field segment = .error text) :
    Text.percentText? segment = none := by
  unfold Route.readName at h
  split at h
  · cases h
  · assumption

theorem checkName_ok_iff {field name : String} :
    checkName field name = .ok () ↔ Directory.Admissible name :=
  (checkName_eq_ok_iff field).trans nameFault_eq_none_iff

theorem checkName_error {field name : String} {p : Problem} (h : checkName field name = .error p) :
    p.status = 400 ∧ ¬ Directory.Admissible name := by
  constructor
  · unfold checkName at h
    split at h
    · cases h
      rfl
    · cases h
  · intro fit
    rw [checkName_ok_iff.mpr fit] at h
    cases h

theorem admitChange_error {claims : Claims} {group username : String} {p : Problem}
    (h : admitChange g claims group username = .error p) :
    g.settings.adminGroup ∉ claims.groups ∨
      p.status = 400 ∧ ¬ (Directory.Admissible group ∧ Directory.Admissible username) := by
  by_cases member : g.settings.adminGroup ∈ claims.groups
  · refine Or.inr ?_
    simp only [admitChange, requireGroup, Claims.isMember, List.contains_iff_mem, member, if_true, bind,
      Except.bind] at h
    cases hgroup : checkName "group" group with
    | error p' =>
      rw [hgroup] at h
      cases h
      obtain ⟨status, unfit⟩ := checkName_error hgroup
      exact ⟨status, fun fit => unfit fit.1⟩
    | ok done =>
      rw [hgroup] at h
      obtain ⟨status, unfit⟩ := checkName_error h
      exact ⟨status, fun fit => unfit fit.2⟩
  · exact Or.inl member

theorem settled_user (claims : Claims) (segment : String) :
    Settled g service i claims s (.user segment) (serveUser g service segment s) := by
  unfold serveUser
  split
  · next text hread =>
    refine .undecoded text ?_
    simp [Errand.decoded?, undecoded_of_readName hread]
  · next username hread =>
    have decoded : (Errand.user segment).decoded? = some (.user username) := by
      simp [Errand.decoded?, readName_eq_ok_iff.mp hread]
    split
    · next p hcheck =>
      obtain ⟨status, unfit⟩ := checkName_error hcheck
      exact .inadmissible p status _ decoded (by simpa using unfit)
    · next hcheck =>
      exact .sent _ decoded ((Errand.admissible_user username).mpr (checkName_ok_iff.mp hcheck))

theorem settled_members (claims : Claims) (segment : String) :
    Settled g service i claims s (.members segment) (serveMembers g service i segment s) := by
  unfold serveMembers
  split
  · next text hread =>
    refine .undecoded text ?_
    simp [Errand.decoded?, undecoded_of_readName hread]
  · next group hread =>
    have decoded : (Errand.members segment).decoded? = some (.members group) := by
      simp [Errand.decoded?, readName_eq_ok_iff.mp hread]
    split
    · next p hcheck =>
      obtain ⟨status, unfit⟩ := checkName_error hcheck
      exact .inadmissible p status _ decoded (by simpa using unfit)
    · next hcheck =>
      exact .sent _ decoded ((Errand.admissible_members group).mpr (checkName_ok_iff.mp hcheck))

theorem run_change (service : Service σ) (i : Interrupts) {joins : Bool}
    {group username group' username' method : String} (h : method ∈ (Errand.change joins group' username').methods) :
    (Errand.change joins group username).run g service i s =
      serveCall changeAnswer ((if method = "PUT" then service.addMember else service.removeMember)
        g.settings.pool username group s.store) s := by
  cases joins with
  | true =>
    have hput : method = "PUT" := by simpa [Errand.methods] using h
    rw [hput]
    rfl
  | false =>
    have hdelete : method = "DELETE" := by simpa [Errand.methods] using h
    rw [hdelete]
    rfl

theorem settled_change (claims : Claims) {joins : Bool} {a b method : String}
    (h : method ∈ (Errand.change joins a b).methods) :
    Settled g service i claims s (.change joins a b) (serveChange g service claims method a b s) := by
  unfold serveChange
  split
  · next text hread =>
    refine .undecoded text ?_
    simp [Errand.decoded?, undecoded_of_readName hread]
  · next group text hgroup hread =>
    refine .undecoded text ?_
    simp [Errand.decoded?, readName_eq_ok_iff.mp hgroup, undecoded_of_readName hread]
  · next group username hgroup husername =>
    have decoded : (Errand.change joins a b).decoded? = some (.change joins group username) := by
      simp [Errand.decoded?, readName_eq_ok_iff.mp hgroup, readName_eq_ok_iff.mp husername]
    split
    · next p refused =>
      rcases admitChange_error refused with stranger | ⟨status, unfit⟩
      · exact .forbidden p rfl stranger
      · exact .inadmissible p status _ decoded (by rwa [Errand.admissible_change])
    · next passed =>
      obtain ⟨-, hgroup', husername'⟩ := admitChange_eq_ok_iff.mp passed
      rw [← run_change service i h]
      refine .sent _ decoded ?_
      rw [Errand.admissible_change]
      exact ⟨nameFault_eq_none_iff.mp hgroup', nameFault_eq_none_iff.mp husername'⟩

theorem serveProtected_settled (claims : Claims) {e : Errand} {method : String} (h : method ∈ e.methods) :
    Settled g service i claims s e (serveProtected g service i claims method e.route s) := by
  cases e with
  | user segment => exact settled_user claims segment
  | members segment => exact settled_members claims segment
  | change joins a b => exact settled_change claims h

/-! ### Journals -/

variable {t : Session (σ × List Call)}

theorem journal_members (g : Config) (service : Service σ) (i : Interrupts)
    (t : Session (σ × List Call)) (group : String) :
    ∃ made, ((Errand.members group).run g service.journaled i t).2.store.2 = t.store.2 ++ made ∧
      (∀ call ∈ made, call.group? = some group ∧ call.username? = none) ∧
      (t.stopped = false → i.stopAfter ≠ some 0 →
        made.head? = some ((Errand.members group).call g.settings.pool)) := by
  obtain ⟨qs, hjournal, hgroup, hfirst⟩ := g.pool.list_journal (.members group) service (listingPace t i)
    t.store t.now
  refine ⟨qs.map (Call.page .members), ?_, ?_, ?_⟩
  · rw [Errand.run, serveListing_store]
    exact hjournal
  · intro call hcall
    obtain ⟨q, hq, rfl⟩ := List.mem_map.mp hcall
    exact ⟨hgroup q hq, rfl⟩
  · intro running uninterrupted
    have hclear : (listingPace t i).cancelBy t.now = none := by
      cases hstop : i.stopAfter with
      | none => simp [Pace.cancelBy, listingPace, running, hstop]
      | some after =>
        have : after ≠ 0 := by
          rintro rfl
          exact uninterrupted hstop
        simp [Pace.cancelBy, listingPace, running, hstop]
        omega
    rw [List.head?_map, hfirst hclear]
    rfl

/-- What running an errand adds to the journal: calls with its names, and the first of them is its call. -/
theorem journal_run (g : Config) (service : Service σ) (i : Interrupts) (t : Session (σ × List Call))
    (e : Errand) :
    ∃ made, (e.run g service.journaled i t).2.store.2 = t.store.2 ++ made ∧
      (∀ call ∈ made, call.group? = e.group? ∧ call.username? = e.username?) ∧
      (t.stopped = false → i.stopAfter ≠ some 0 → made.head? = some (e.call g.settings.pool)) := by
  cases e with
  | user username =>
    refine ⟨[.user g.settings.pool username], ?_, ?_, fun _ _ => rfl⟩
    · rw [Errand.run, serveCall_store]
      rfl
    · simp [Call.group?, Call.username?, Errand.group?, Errand.username?]
  | members group => exact journal_members g service i t group
  | change joins group username =>
    refine ⟨[(Errand.change joins group username).call g.settings.pool], ?_, ?_, fun _ _ => rfl⟩
    · cases joins <;>
      · rw [Errand.run, serveCall_store]
        rfl
    · cases joins <;> simp [Errand.call, Call.group?, Call.username?, Errand.group?, Errand.username?]

/-! ### Requests -/

/-- What a request may add to the journal, and the status that it may be answered with. -/
structure Fits (g : Config) (t : Session (σ × List Call)) (q : Request) (i : Interrupts) (made : List Call)
    (status : Nat) : Prop where
  named : ∀ call ∈ made, (call.group? ≠ none ∨ call.username? ≠ none) →
    ∃ e d : Errand, q.method ∈ e.methods ∧ e.At q.path ∧ e.decoded? = some d ∧ d.Admissible ∧
      call.group? = d.group? ∧ call.username? = d.username?
  reached : ∀ e d, Entitled g t q e → e.decoded? = some d → d.Admissible → t.stopped = false →
    i.stopAfter ≠ some 0 → made.head? = some (d.call g.settings.pool)
  refused : ∀ e, Entitled g t q e → (∀ d, e.decoded? = some d → ¬ d.Admissible) →
    made = [] ∧ status = 400

theorem Entitled.route {e : Errand} (h : Entitled g s q e) : Route.ofPath? q.path = some e.route :=
  Errand.ofPath_route_iff.mpr h.path

theorem fits_of_unentitled {made : List Call} (status : Nat)
    (nameless : ∀ call ∈ made, call.group? = none ∧ call.username? = none)
    (unentitled : ∀ e, ¬ Entitled g t q e) : Fits g t q i made status where
  named := by
    intro call hcall hnamed
    obtain ⟨hgroup, husername⟩ := nameless call hcall
    rcases hnamed with h | h
    · exact absurd hgroup h
    · exact absurd husername h
  reached e _ h := absurd h (unentitled e)
  refused e h := absurd h (unentitled e)

theorem journal_nameless (g : Config) (service : Service σ) (t : Session (σ × List Call)) (kind : Kind)
    (unnamed : (kind.request g.pool.id).group = none) (pace : Pace) :
    ∃ made, (g.pool.list kind service.journaled pace t.store t.now).store.2 = t.store.2 ++ made ∧
      ∀ call ∈ made, call.group? = none ∧ call.username? = none := by
  obtain ⟨qs, hjournal, hgroup, -⟩ := g.pool.list_journal kind service pace t.store t.now
  refine ⟨_, hjournal, ?_⟩
  intro call hcall
  obtain ⟨q, hq, rfl⟩ := List.mem_map.mp hcall
  exact ⟨(hgroup q hq).trans unnamed, rfl⟩

/-- Serving what takes no name makes calls that are given none. -/
theorem journal_unnamed (g : Config) (service : Service σ) (i : Interrupts)
    (t : Session (σ × List Call)) (claims : Claims) {route : Route} (method : String)
    (h : route = .me ∨ route = .groups ∨ route = .users) :
    ∃ made, (serveProtected g service.journaled i claims method route t).2.store.2 = t.store.2 ++ made ∧
      ∀ call ∈ made, call.group? = none ∧ call.username? = none := by
  rcases h with rfl | rfl | rfl
  · exact ⟨[], (List.append_nil _).symm, by simp⟩
  · rw [serveProtected, serveListing_store]
    exact journal_nameless g service t .groups rfl _
  · rw [serveProtected, serveListing_store]
    exact journal_nameless g service t .users rfl _

theorem settled_fits {claims : Claims} {e : Errand} {x : Response × Session (σ × List Call)}
    (settled : Settled g service.journaled i claims t e x) (path : Route.ofPath? q.path = some e.route)
    (method : q.method ∈ e.methods) (accepted : authenticate g.verifier (g.clock t) q = .ok claims) :
    ∃ made, x.2.store.2 = t.store.2 ++ made ∧ Fits g t q i made x.1.status := by
  have same : ∀ {e'}, Entitled g t q e' → e' = e := by
    intro e' h
    have hroute := h.route
    rw [path] at hroute
    exact Errand.eq_of_route (Option.some.inj hroute).symm h.method method
  cases settled with
  | undecoded text unreadable =>
    refine ⟨[], (List.append_nil _).symm, by simp, ?_, fun _ _ _ => ⟨rfl, rfl⟩⟩
    intro e' d h decoded
    rw [same h, unreadable] at decoded
    cases decoded
  | forbidden p guarded stranger =>
    refine ⟨[], (List.append_nil _).symm, fits_of_unentitled _ (by simp) ?_⟩
    intro e' h
    obtain ⟨token, claims', bears, verified, member⟩ := h.bearer
    have accepted' := authenticate_eq_ok_iff.mpr ⟨token, bears, verified⟩
    rw [accepted] at accepted'
    cases accepted'
    exact stranger (member (by rw [same h, guarded]))
  | inadmissible p status d decoded unfit =>
    refine ⟨[], (List.append_nil _).symm, by simp, ?_, ?_⟩
    · intro e' d' h decoded' fit
      rw [same h, decoded] at decoded'
      cases decoded'
      exact absurd fit unfit
    · intro e' h all
      exact ⟨rfl, by rw [Problem.status_response, status]⟩
  | sent d decoded fit =>
    obtain ⟨made, hjournal, hnames, hfirst⟩ := journal_run g service i t d
    refine ⟨made, hjournal, ?_, ?_, ?_⟩
    · intro call hcall _
      obtain ⟨hgroup, husername⟩ := hnames call hcall
      exact ⟨e, d, method, Errand.ofPath_route_iff.mp path, decoded, fit, hgroup, husername⟩
    · intro e' d' h decoded' _
      rw [same h, decoded] at decoded'
      cases decoded'
      exact hfirst
    · intro e' h all
      rw [same h] at all
      exact absurd fit (all d decoded)

theorem respond_fits (g : Config) (service : Service σ) (t : Session (σ × List Call)) (q : Request)
    (i : Interrupts) :
    ∃ made, (respond g service.journaled q i t).2.store.2 = t.store.2 ++ made ∧
      Fits g t q i made (respond g service.journaled q i t).1.status := by
  obtain ⟨r, served, hhead⟩ := respond_cases g service.journaled q i t
  have hstatus : (respond g service.journaled q i t).1.status = r.status := congrArg Prod.fst hhead
  rw [hstatus]
  generalize (respond g service.journaled q i t).2 = t' at served
  have silent : t'.store = t.store → (∀ e, ¬ Entitled g t q e) →
      ∃ made, t'.store.2 = t.store.2 ++ made ∧ Fits g t q i made r.status := by
    intro hstore unentitled
    refine ⟨[], ?_, fits_of_unentitled _ (by simp) unentitled⟩
    rw [hstore, List.append_nil]
  cases served with
  | unknown path =>
    refine silent rfl ?_
    intro e h
    have hroute := h.route
    rw [path] at hroute
    cases hroute
  | refused route p path guarded fault =>
    refine silent rfl ?_
    intro e h
    obtain ⟨token, claims, bears, verified, -⟩ := h.bearer
    have accepted := authenticate_eq_ok_iff.mpr ⟨token, bears, verified⟩
    rw [fault] at accepted
    cases accepted
  | admitted route claims path guarded accepted allowed =>
    rcases exists_errand guarded allowed with ⟨e, rfl, method⟩ | unnamed
    · exact settled_fits (serveProtected_settled claims method) path method accepted
    · obtain ⟨made, hjournal, nameless⟩ := journal_unnamed g service i t claims q.method unnamed
      refine ⟨made, hjournal, fits_of_unentitled _ nameless ?_⟩
      intro e h
      have hroute := h.route
      rw [path] at hroute
      cases hroute
      cases e <;> simp [Errand.route] at unnamed
  | open_ route path unguarded allowed =>
    refine silent (afterPublic_store route t) ?_
    intro e h
    have hroute := h.route
    rw [path] at hroute
    cases hroute
    rw [e.route_isProtected] at unguarded
    cases unguarded
  | notAllowed route path accepted method =>
    refine silent rfl ?_
    intro e h
    have hroute := h.route
    rw [path] at hroute
    cases hroute
    exact method (e.methods_subset h.method)

/-! ### Moments -/

/-- Whatever happens to a session, each call that is made and takes a group or a username is given what stands, decoded, in the
place of it in the path, and these names are admissible. A request that may have an errand run has it run if the names that it
holds are admissible, unless the session was stopped; if they are not, or cannot be decoded, the request is refused as it stands.
That the provider keeps a journal changes none of it. -/
theorem provider_sees_admissible_names (g : Config) (service : Service σ) (t : Session (σ × List Call))
    (m : Moment) :
    ∃ made,
      (m.play g service.journaled t).2.store.2 = t.store.2 ++ made ∧
      (m.play g service.journaled t).2.store.1 = (m.play g service (t.on t.store.1)).2.store ∧
      (m.play g service.journaled t).1 = (m.play g service (t.on t.store.1)).1 ∧
      (∀ call ∈ made, (call.group? ≠ none ∨ call.username? ≠ none) →
        ∃ (q : Request) (e d : Errand), m.served? = some q ∧ q.method ∈ e.methods ∧ e.At q.path ∧ e.decoded? = some d ∧
          d.Admissible ∧ call.group? = d.group? ∧ call.username? = d.username?) ∧
      ∀ (q : Request) (e : Errand), m.served? = some q → Entitled g t q e →
        (∀ d, e.decoded? = some d → d.Admissible → t.stopped = false →
          m.interrupts.stopAfter ≠ some 0 → made.head? = some (d.call g.settings.pool)) ∧
        ((∀ d, e.decoded? = some d → ¬ d.Admissible) →
          made = [] ∧ ∃ r, (m.play g service.journaled t).1 = some r ∧ r.status = 400) := by
  obtain ⟨hresponse, hafter⟩ := play_alike (g := g) (journaled_alike service)
    (s := t) (t := t.on t.store.1) ⟨rfl, rfl⟩ m
  cases asked : m.served? with
  | none =>
    refine ⟨[], ?_, hafter.store, hresponse, by simp, by simp⟩
    rw [(play_unserved g service.journaled t asked).1, List.append_nil]
  | some q =>
    obtain ⟨r, hr, hhead, hstore⟩ := play_respond g service.journaled t asked
    obtain ⟨made, hjournal, fits⟩ := respond_fits g service t q m.interrupts
    have hstatus : r.status = (respond g service.journaled q m.interrupts t).1.status :=
      congrArg Prod.fst hhead
    refine ⟨made, ?_, hafter.store, hresponse, ?_, ?_⟩
    · rw [hstore, hjournal]
    · intro call hcall hnamed
      obtain ⟨e, d, h⟩ := fits.named call hcall hnamed
      exact ⟨q, e, d, rfl, h⟩
    · intro q' e same entitled
      cases same
      refine ⟨fun d => fits.reached e d entitled, ?_⟩
      intro unfit
      obtain ⟨hmade, hrefused⟩ := fits.refused e entitled unfit
      exact ⟨hmade, r, hr, hstatus.trans hrefused⟩

theorem fit_of_nameFault {e : Errand} (h : ∀ name ∈ e.names, nameFault? name = none) : e.Admissible :=
  fun name hname => nameFault_eq_none_iff.mp (h name hname)

/-- A session on an empty script with an empty journal. -/
def unwritten : Session (Script × List Call) :=
  .start (.empty, []) .empty

/-- A membership is changed under its names, and no user is asked for whose name hides a slash. -/
theorem hidden_slash_is_refused :
    ∃ v, Token.Verifier.ofKeyMap Sample.primaryKeyMap Sample.primaryIssuer 60 = .ok v ∧
      ((Moment.request (asAdmin "PUT" "/api/v1/groups/st%61ff/users/ann") .none).play (administered v)
        Script.service.journaled unwritten).2.store.2.head? = some (.addMember "pool" "ann" "staff") ∧
      ((Moment.request (asAdmin "GET" "/api/v1/users/a%2Fb") .none).play (administered v)
        Script.service.journaled unwritten).2.store.2 = [] := by
  obtain ⟨v, claims, loaded, accepted, groups⟩ := Token.adminToken_accepted
  refine ⟨v, loaded, ?_, ?_⟩
  · obtain ⟨made, hjournal, -, -, -, errands⟩ := provider_sees_admissible_names (administered v)
      Script.service unwritten (.request (asAdmin "PUT" "/api/v1/groups/st%61ff/users/ann") .none)
    have entitled : Entitled (administered v) unwritten (asAdmin "PUT" "/api/v1/groups/st%61ff/users/ann")
        (.change true "st%61ff" "ann") :=
      ⟨by decide +kernel, ⟨by decide +kernel, by decide +kernel, by decide +kernel⟩,
        _, claims, bears_adminToken "PUT" _, accepted, fun _ => by simp [groups, administered]⟩
    have fit : (Errand.change true "staff" "ann").Admissible := fit_of_nameFault (by decide +kernel)
    rw [hjournal]
    exact (errands _ _ rfl entitled).1 _ (by decide +kernel) fit rfl (by decide +kernel)
  · obtain ⟨made, hjournal, -, -, -, errands⟩ := provider_sees_admissible_names (administered v)
      Script.service unwritten (.request (asAdmin "GET" "/api/v1/users/a%2Fb") .none)
    have entitled : Entitled (administered v) unwritten (asAdmin "GET" "/api/v1/users/a%2Fb")
        (.user "a%2Fb") :=
      ⟨by decide +kernel, ⟨by decide +kernel, by decide +kernel, by decide +kernel⟩,
        _, claims, bears_adminToken "GET" _, accepted, nofun⟩
    have unfit : ∀ d, (Errand.user "a%2Fb").decoded? = some d → ¬ d.Admissible := by
      intro d decoded fit
      have hd : (Errand.user "a%2Fb").decoded? = some (.user "a/b") := by decide +kernel
      rw [hd] at decoded
      cases decoded
      have := (fit "a/b" (by decide +kernel)).plain '/' (by decide +kernel)
      exact this.2 rfl
    rw [hjournal, ((errands _ _ rfl entitled).2 unfit).1]
    rfl

end DirectoryGateway.Gateway
