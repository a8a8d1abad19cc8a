import DirectoryGateway.Proofs.Gateway.Routing
import DirectoryGateway.Proofs.Gateway.Serving
import DirectoryGateway.Proofs.Gateway.Unauthenticated
import DirectoryGateway.Proofs.Listing.Turn
import DirectoryGateway.Proofs.Token.Soundness
import DirectoryGateway.Provider.Script

/-!
# How memberships change

A membership changes by admitted requests alone. What one moment makes of the memberships is settled by whether it brings
such a request, and what a history makes of them by the last one for each pair.
-/

namespace DirectoryGateway.Provider.Script

/-! ### Pairs -/

/-- What a change by a method makes of the memberships. -/
def edited (method username group : String) (ms : List (String × String)) : List (String × String) :=
  if method = "PUT" then withMember username group ms else withoutMember username group ms

theorem mem_withMember {pair : String × String} {username group : String} {ms : List (String × String)} :
    pair ∈ withMember username group ms ↔ pair = (group, username) ∨ pair ∈ ms := by
  unfold withMember
  split
  · next h =>
    have present : (group, username) ∈ ms := List.contains_iff_mem.mp h
    constructor
    · exact Or.inr
    · rintro (rfl | hmem)
      · exact present
      · exact hmem
  · rw [List.mem_append, List.mem_singleton, or_comm]

theorem mem_withoutMember {pair : String × String} {username group : String} {ms : List (String × String)} :
    pair ∈ withoutMember username group ms ↔ pair ≠ (group, username) ∧ pair ∈ ms := by
  rw [withoutMember, List.mem_filter, bne_iff_ne, and_comm]

theorem mem_edited_self {method username group : String} {ms : List (String × String)} :
    (group, username) ∈ edited method username group ms ↔ method = "PUT" := by
  unfold edited
  split
  · next h => simp [mem_withMember, h]
  · next h => simp [mem_withoutMember, h]

theorem mem_edited_of_ne {pair : String × String} {method username group : String}
    {ms : List (String × String)} (h : pair ≠ (group, username)) :
    pair ∈ edited method username group ms ↔ pair ∈ ms := by
  unfold edited
  split
  · rw [mem_withMember, or_iff_right h]
  · rw [mem_withoutMember, and_iff_right h]

theorem isMember_iff {username group : String} {st : Script} :
    st.isMember username group = true ↔ (group, username) ∈ st.memberships :=
  List.contains_iff_mem

/-! ### Calls -/

/-- The part of a scripted provider that listings do not touch. -/
def standing (st : Script) : List (String × String) × Option Failure :=
  (st.memberships, st.mutationFailure)

theorem nextGroups_standing (request : ListingRequest) (st : Script) :
    (st.nextGroups request).2.standing = st.standing := rfl

theorem nextUsers_standing (request : ListingRequest) (st : Script) :
    (st.nextUsers request).2.standing = st.standing := rfl

theorem nextMembers_standing (request : ListingRequest) (st : Script) :
    (st.nextMembers request).2.standing = st.standing := rfl

theorem lookUp_standing (username : String) (st : Script) :
    (st.lookUp username).2.standing = st.standing := rfl

theorem change_standing (operation : Operation) (edit : List (String × String) → List (String × String))
    (st : Script) :
    (st.change operation edit).2.standing =
      (if st.mutationFailure = none then edit st.memberships else st.memberships, st.mutationFailure) := by
  unfold change standing
  cases h : st.mutationFailure with
  | none => simp
  | some failure => simp

end DirectoryGateway.Provider.Script

namespace DirectoryGateway.Gateway

open DirectoryGateway.Directory
open DirectoryGateway.Provider
open DirectoryGateway.Token (Claims)

variable {g : Config} {s : Session Script} {q : Request} {i : Interrupts}

/-! ### Admitted changes -/

/-- A request that may change the membership of a user in a group when it comes. -/
structure Admits (g : Config) (s : Session Script) (q : Request) (group username : String) : Prop where
  method : q.method = "PUT" ∨ q.method = "DELETE"
  path : ∃ a b, q.path = "/api/v1/groups/" ++ a ++ "/users/" ++ b ∧
    '/' ∉ a.toList ∧ '/' ∉ b.toList ∧
    Text.percentText? a = some group ∧ Text.percentText? b = some username
  bearer : ∃ token claims, Bears q token ∧ g.verifier.verify (g.clock s) token = .ok claims ∧
    g.settings.adminGroup ∈ claims.groups
  names : nameFault? group = none ∧ nameFault? username = none
  changeable : s.store.mutationFailure = none

theorem readName_eq_ok_iff {field segment name : String} :
    Route.readName field segment = .ok name ↔ Text.percentText? segment = some name := by
  unfold Route.readName
  cases Text.percentText? segment <;> simp

theorem checkName_eq_ok_iff (field : String) {name : String} :
    checkName field name = .ok () ↔ nameFault? name = none := by
  unfold checkName
  cases nameFault? name <;> simp

theorem admitChange_eq_ok_iff {claims : Claims} {group username : String} :
    admitChange g claims group username = .ok () ↔
      g.settings.adminGroup ∈ claims.groups ∧ nameFault? group = none ∧ nameFault? username = none := by
  rw [← checkName_eq_ok_iff "group", ← checkName_eq_ok_iff "username"]
  unfold admitChange requireGroup Claims.isMember
  by_cases member : g.settings.adminGroup ∈ claims.groups
  · cases checkName "group" group with
    | error p => simp [member, bind, Except.bind]
    | ok done => simp [member, bind, Except.bind]
  · simp [member, bind, Except.bind]

theorem nameFault_empty : nameFault? "" = some .blank := by decide +kernel

theorem Admits.route {group username : String} (h : Admits g s q group username) :
    ∃ a b, Route.ofPath? q.path = some (.membership a b) ∧
      Text.percentText? a = some group ∧ Text.percentText? b = some username := by
  obtain ⟨a, b, path, ha, hb, hgroup, husername⟩ := h.path
  have written : b ≠ "" := by
    rintro rfl
    have hempty : Text.percentText? "" = some "" := by decide +kernel
    rw [hempty] at husername
    cases husername
    have := h.names.2
    rw [nameFault_empty] at this
    cases this
  exact ⟨a, b, Route.ofPath_membership_iff.mpr ⟨path, written, ha, hb⟩, hgroup, husername⟩

theorem Admits.unique {group username group' username' : String} (h : Admits g s q group username)
    (h' : Admits g s q group' username') : (group', username') = (group, username) := by
  obtain ⟨a, b, route, hgroup, husername⟩ := h.route
  obtain ⟨a', b', route', hgroup', husername'⟩ := h'.route
  rw [route] at route'
  cases route'
  rw [hgroup] at hgroup'
  rw [husername] at husername'
  cases hgroup'
  cases husername'
  rfl

/-! ### One request -/

/-- What a request makes of the memberships. -/
inductive Effect (g : Config) (s : Session Script) (q : Request) : List (String × String) → Prop where
  | changed (group username : String) (admitted : Admits g s q group username) :
    Effect g s q (Script.edited q.method username group s.store.memberships)
  | kept (unadmitted : ∀ group username, ¬ Admits g s q group username) :
    Effect g s q s.store.memberships

/-- The effect of a request, and that changes go on to fail if they fail. -/
def Affects (g : Config) (s : Session Script) (q : Request) (store : Script) : Prop :=
  Effect g s q store.memberships ∧ store.mutationFailure = s.store.mutationFailure

theorem affects_of_standing {store : Script} (same : store.standing = s.store.standing)
    (unadmitted : ∀ group username, ¬ Admits g s q group username) : Affects g s q store := by
  obtain ⟨hmemberships, hfailure⟩ := Prod.mk.inj same
  refine ⟨?_, hfailure⟩
  rw [hmemberships]
  exact .kept unadmitted

theorem serveListing_store {σ α : Type} (item : α → Json) (run : Listing.Run σ α) (s : Session σ) :
    (serveListing item run s).2.store = run.store := by
  unfold serveListing
  cases run.result? <;> rfl

theorem serveCall_store {σ α : Type} (answer : Outcome α → Response) (called : Reply α × σ)
    (s : Session σ) : (serveCall answer called s).2.store = called.2 := by
  unfold serveCall
  dsimp only
  split <;> rfl

theorem gather_standing {α : Type} {fetch : PageCall Script α}
    (keeps : ∀ request st, (fetch request st).2.standing = st.standing) (pace : Listing.Pace)
    (operation : String) (pages : Nat) (request : ListingRequest) (schedule : Listing.Backoff)
    (st : Script) (now : Nat) :
    (Listing.gather fetch pace operation pages request schedule st now).store.standing =
      st.standing := by
  refine Listing.Run.turns_store (P := fun st' : Script => st'.standing = st.standing) ?_ ?_ _
  · intro request' st' h
    rw [keeps, h]
  · rfl

theorem serveMembers_standing (segment : String) :
    (serveMembers g Script.service i segment s).2.store.standing = s.store.standing := by
  unfold serveMembers
  split
  · rfl
  · split
    · rfl
    · rw [serveListing_store]
      exact gather_standing Script.nextMembers_standing _ _ _ _ _ _ _

theorem serveUser_standing (segment : String) :
    (serveUser g Script.service segment s).2.store.standing = s.store.standing := by
  unfold serveUser
  split
  · rfl
  · split
    · rfl
    · rw [serveCall_store]
      exact Script.lookUp_standing _ _

theorem serveProtected_standing (claims : Claims) (method : String) {route : Route}
    (other : ∀ a b, route ≠ .membership a b) :
    (serveProtected g Script.service i claims method route s).2.store.standing = s.store.standing := by
  cases route with
  | groups =>
    show (serveListing _ _ s).2.store.standing = _
    rw [serveListing_store]
    exact gather_standing Script.nextGroups_standing _ _ _ _ _ _ _
  | users =>
    show (serveListing _ _ s).2.store.standing = _
    rw [serveListing_store]
    exact gather_standing Script.nextUsers_standing _ _ _ _ _ _ _
  | members group => exact serveMembers_standing group
  | user username => exact serveUser_standing username
  | membership a b => exact absurd rfl (other a b)
  | _ => rfl

theorem service_change_standing (method pool username group : String) (st : Script) :
    ((if method = "PUT" then Script.service.addMember else Script.service.removeMember)
      pool username group st).2.standing =
      (if st.mutationFailure = none then Script.edited method username group st.memberships
        else st.memberships, st.mutationFailure) := by
  unfold Script.edited
  split
  · exact Script.change_standing _ _ st
  · exact Script.change_standing _ _ st

theorem serveChange_affects {a b : String} {claims : Claims}
    (path : Route.ofPath? q.path = some (.membership a b))
    (accepted : authenticate g.verifier (g.clock s) q = .ok claims)
    (method : q.method = "PUT" ∨ q.method = "DELETE") :
    Affects g s q (serveChange g Script.service claims q.method a b s).2.store := by
  -- Each check that refuses stands against one field of an admission, the others for all of them.
  have route : ∀ {group username}, Admits g s q group username →
      Text.percentText? a = some group ∧ Text.percentText? b = some username := by
    intro group username h
    obtain ⟨a', b', path', names⟩ := h.route
    rw [path] at path'
    cases path'
    exact names
  have allowed : ∀ {group username}, Admits g s q group username →
      admitChange g claims group username = .ok () := by
    intro group username h
    obtain ⟨token, claims', bears, verified, member⟩ := h.bearer
    have same := authenticate_eq_ok_iff.mpr ⟨token, bears, verified⟩
    rw [accepted] at same
    cases same
    exact admitChange_eq_ok_iff.mpr ⟨member, h.names⟩
  unfold serveChange
  split
  · next text hread =>
    refine affects_of_standing rfl ?_
    intro group username h
    rw [readName_eq_ok_iff.mpr (route h).1] at hread
    cases hread
  · next group text hgroup hread =>
    refine affects_of_standing rfl ?_
    intro group' username h
    rw [readName_eq_ok_iff.mpr (route h).2] at hread
    cases hread
  · next group username hgroup husername =>
    have names : ∀ {group' username'}, Admits g s q group' username' →
        group' = group ∧ username' = username := by
      intro group' username' h
      obtain ⟨h₁, h₂⟩ := route h
      rw [readName_eq_ok_iff.mpr h₁] at hgroup
      rw [readName_eq_ok_iff.mpr h₂] at husername
      exact ⟨Except.ok.inj hgroup, Except.ok.inj husername⟩
    split
    · next p refused =>
      refine affects_of_standing rfl ?_
      intro group' username' h
      obtain ⟨rfl, rfl⟩ := names h
      rw [allowed h] at refused
      cases refused
    · next passed =>
      have store := service_change_standing q.method g.settings.pool username group s.store
      rw [← serveCall_store changeAnswer _ s] at store
      obtain ⟨hmemberships, hfailure⟩ := Prod.mk.inj store
      refine ⟨?_, hfailure⟩
      rw [hmemberships]
      split
      · next changeable =>
        obtain ⟨token, bears, verified⟩ := authenticate_eq_ok_iff.mp accepted
        obtain ⟨member, valid⟩ := admitChange_eq_ok_iff.mp passed
        obtain ⟨written, -, ha, hb⟩ := Route.ofPath_membership_iff.mp path
        exact .changed group username
          ⟨method, ⟨a, b, written, ha, hb, readName_eq_ok_iff.mp hgroup, readName_eq_ok_iff.mp husername⟩,
            ⟨token, claims, bears, verified, member⟩, valid, changeable⟩
      · next failing => exact .kept fun group' username' h => failing h.changeable

theorem respond_affects (g : Config) (s : Session Script) (q : Request) (i : Interrupts) :
    Affects g s q (respond g Script.service q i s).2.store := by
  obtain ⟨r, served, -⟩ := respond_cases g Script.service q i s
  generalize (respond g Script.service q i s).2 = s' at served
  cases served with
  | unknown path =>
    refine affects_of_standing rfl ?_
    intro group username h
    obtain ⟨a, b, path', -⟩ := h.route
    rw [path] at path'
    cases path'
  | refused route p path guarded fault =>
    refine affects_of_standing rfl ?_
    intro group username h
    obtain ⟨token, claims, bears, verified, -⟩ := h.bearer
    have accepted := authenticate_eq_ok_iff.mpr ⟨token, bears, verified⟩
    rw [fault] at accepted
    cases accepted
  | admitted route claims path guarded accepted allowed =>
    by_cases other : ∀ a b, route ≠ .membership a b
    · refine affects_of_standing (serveProtected_standing claims q.method other) ?_
      intro group username h
      obtain ⟨a, b, path', -⟩ := h.route
      rw [path] at path'
      cases path'
      exact other a b rfl
    · simp only [ne_eq, not_forall, not_not] at other
      obtain ⟨a, b, rfl⟩ := other
      exact serveChange_affects path accepted (by simpa [Route.methods] using allowed)
  | open_ route path unguarded allowed =>
    refine affects_of_standing (congrArg Script.standing (afterPublic_store route s)) ?_
    intro group username h
    obtain ⟨a, b, path', -⟩ := h.route
    rw [path] at path'
    cases path'
    cases unguarded
  | notAllowed route path accepted method =>
    refine affects_of_standing rfl ?_
    intro group username h
    obtain ⟨a, b, path', -⟩ := h.route
    rw [path] at path'
    cases path'
    have := h.method
    simp [Route.methods] at method
    rcases this with hput | hdelete
    · exact method.1 hput
    · exact method.2 hdelete

/-! ### One moment -/

/-- A moment brings an admitted change of a membership. -/
def Moment.Changes (g : Config) (s : Session Script) (m : Moment) (method group username : String) : Prop :=
  ∃ q, m.served? = some q ∧ q.method = method ∧ Admits g s q group username

theorem Moment.Changes.unique {m : Moment} {method group username method' group' username' : String}
    (h : m.Changes g s method group username) (h' : m.Changes g s method' group' username') :
    method' = method ∧ (group', username') = (group, username) := by
  obtain ⟨q, asked, rfl, admitted⟩ := h
  obtain ⟨q', asked', rfl, admitted'⟩ := h'
  rw [asked] at asked'
  cases asked'
  exact ⟨rfl, admitted.unique admitted'⟩

theorem play_changes {m : Moment} {method group username : String}
    (h : m.Changes g s method group username) :
    (m.play g Script.service s).2.store.memberships =
      Script.edited method username group s.store.memberships := by
  obtain ⟨q, asked, rfl, admitted⟩ := h
  obtain ⟨i, -, -, -, store⟩ := play_served g Script.service s asked
  obtain ⟨effect, -⟩ := respond_affects g s q i
  rw [store]
  generalize (respond g Script.service q i s).2.store.memberships = ms at effect
  cases effect with
  | changed group' username' admitted' =>
    obtain ⟨rfl, rfl⟩ := Prod.mk.inj (admitted.unique admitted')
    rfl
  | kept unadmitted => exact absurd admitted (unadmitted group username)

theorem play_unchanging {m : Moment}
    (h : ∀ method group username, ¬ m.Changes g s method group username) :
    (m.play g Script.service s).2.store.memberships = s.store.memberships := by
  cases asked : m.served? with
  | none => rw [(play_unserved g Script.service s asked).1]
  | some q =>
    obtain ⟨i, -, -, -, store⟩ := play_served g Script.service s asked
    obtain ⟨effect, -⟩ := respond_affects g s q i
    rw [store]
    generalize (respond g Script.service q i s).2.store.memberships = ms at effect
    cases effect with
    | changed group username admitted =>
      exact absurd ⟨q, asked, rfl, admitted⟩ (h q.method group username)
    | kept unadmitted => rfl

theorem mem_play_self {m : Moment} {method group username : String}
    (h : m.Changes g s method group username) :
    (group, username) ∈ (m.play g Script.service s).2.store.memberships ↔ method = "PUT" := by
  rw [play_changes h, Script.mem_edited_self]

/-- A moment that brings no change of a pair leaves it as it is, whatever else it brings. -/
theorem mem_play_other {m : Moment} {group username : String}
    (h : ∀ method, ¬ m.Changes g s method group username) :
    (group, username) ∈ (m.play g Script.service s).2.store.memberships ↔
      (group, username) ∈ s.store.memberships := by
  by_cases some_ : ∃ method group' username', m.Changes g s method group' username'
  · obtain ⟨method, group', username', changes⟩ := some_
    have hne : (group, username) ≠ (group', username') := by
      rintro same
      obtain ⟨rfl, rfl⟩ := Prod.mk.inj same
      exact h method changes
    rw [play_changes changes, Script.mem_edited_of_ne hne]
  · simp only [not_exists] at some_
    rw [play_unchanging some_]

/-! ### Histories -/

theorem after_concat {σ : Type} (g : Config) (service : Service σ) (s : Session σ) (ms : List Moment)
    (m : Moment) : after g service s (ms ++ [m]) = (m.play g service (after g service s ms)).2 := by
  rw [after, List.foldl_append]
  rfl

/-- The last admitted change of a pair in a history, if there is one, makes it a membership. -/
def LastJoins (g : Config) (s : Session Script) (ms : List Moment) (group username : String) : Prop :=
  ∃ before m later, ms = before ++ m :: later ∧
    m.Changes g (after g Script.service s before) "PUT" group username ∧
    ∀ between m' rest, later = between ++ m' :: rest → ∀ method,
      ¬ m'.Changes g (after g Script.service s (before ++ m :: between)) method group username

/-- Where a list with one more item can be split: at this item, or before it. -/
theorem concat_eq_split_iff {α : Type} {xs ys zs : List α} {x y : α} :
    xs ++ [x] = ys ++ y :: zs ↔
      (xs = ys ∧ x = y ∧ zs = []) ∨ ∃ zs', zs = zs' ++ [x] ∧ xs = ys ++ y :: zs' := by
  constructor
  · intro h
    rcases List.eq_nil_or_concat zs with rfl | ⟨zs', z, rfl⟩
    · obtain ⟨rfl, hx⟩ := List.append_inj' h rfl
      exact Or.inl ⟨rfl, List.head_eq_of_cons_eq hx, rfl⟩
    · have h' : xs ++ [x] = (ys ++ y :: zs') ++ [z] := by simpa using h
      obtain ⟨rfl, hx⟩ := List.append_inj' h' rfl
      cases hx
      exact Or.inr ⟨zs', by simp, rfl⟩
  · rintro (⟨rfl, rfl, rfl⟩ | ⟨zs', rfl, rfl⟩)
    · rfl
    · simp

theorem lastJoins_of_changes {ms : List Moment} {m : Moment} {method group username : String}
    (h : m.Changes g (after g Script.service s ms) method group username) :
    LastJoins g s (ms ++ [m]) group username ↔ method = "PUT" := by
  constructor
  · rintro ⟨before, m', later, split, joins, final⟩
    rcases concat_eq_split_iff.mp split with ⟨rfl, rfl, rfl⟩ | ⟨between, rfl, rfl⟩
    · exact (joins.unique h).1
    · exact absurd h (final between m [] rfl method)
  · rintro rfl
    refine ⟨ms, m, [], rfl, h, ?_⟩
    intro between m' rest hnil
    simp at hnil

theorem lastJoins_of_unchanging {ms : List Moment} {m : Moment} {group username : String}
    (h : ∀ method, ¬ m.Changes g (after g Script.service s ms) method group username) :
    LastJoins g s (ms ++ [m]) group username ↔ LastJoins g s ms group username := by
  constructor
  · rintro ⟨before, m', later, split, joins, final⟩
    rcases concat_eq_split_iff.mp split with ⟨rfl, rfl, rfl⟩ | ⟨between, rfl, rfl⟩
    · exact absurd joins (h "PUT")
    · refine ⟨before, m', between, rfl, joins, ?_⟩
      intro between' m₁ rest hbetween
      refine final between' m₁ (rest ++ [m]) ?_
      rw [hbetween, List.append_assoc, List.cons_append]
  · rintro ⟨before, m', later, rfl, joins, final⟩
    refine ⟨before, m', later ++ [m], by simp, joins, ?_⟩
    intro between m₁ rest split method
    rcases concat_eq_split_iff.mp split with ⟨rfl, rfl, rfl⟩ | ⟨rest', rfl, rfl⟩
    · exact h method
    · exact final between m₁ rest' rfl method

theorem mem_after_iff (fresh : s.store.memberships = []) (ms : List Moment) (group username : String) :
    (group, username) ∈ (after g Script.service s ms).store.memberships ↔
      LastJoins g s ms group username := by
  induction ms using List.reverseRecOn with
  | nil =>
    have start : (after g Script.service s []).store.memberships = [] := fresh
    rw [start]
    constructor
    · intro h
      cases h
    · rintro ⟨before, m, later, split, -⟩
      simp at split
  | append_singleton ms m ih =>
    rw [after_concat]
    -- The last moment settles the pair if it changes it; if not, both sides pass over it.
    by_cases changes : ∃ method, m.Changes g (after g Script.service s ms) method group username
    · obtain ⟨method, h⟩ := changes
      rw [mem_play_self h, lastJoins_of_changes h]
    · have h : ∀ method, ¬ m.Changes g (after g Script.service s ms) method group username := by
        intro method hm
        exact changes ⟨method, hm⟩
      rw [mem_play_other h, lastJoins_of_unchanging h, ih]

/-- A user is a member of a group exactly if the last admitted change of this pair was a `PUT`. From any state, an admitted
change leaves all other pairs alone, and everything else leaves all of them alone. -/
theorem memberships_follow_admitted_changes (g : Config) (s : Session Script)
    (fresh : s.store.memberships = []) (ms : List Moment) :
    (∀ group username,
      (after g Script.service s ms).store.isMember username group = true ↔
        LastJoins g s ms group username) ∧
    ∀ (t : Session Script) (m : Moment),
      (∀ method group username, m.Changes g t method group username → ∀ other ≠ (group, username),
        (other ∈ (m.play g Script.service t).2.store.memberships ↔ other ∈ t.store.memberships)) ∧
      ((∀ method group username, ¬ m.Changes g t method group username) →
        (m.play g Script.service t).2.store.memberships = t.store.memberships) := by
  refine ⟨?_, ?_⟩
  · intro group username
    rw [Script.isMember_iff, mem_after_iff fresh]
  · intro t m
    refine ⟨?_, play_unchanging⟩
    intro method group username changes other hne
    rw [play_changes changes, Script.mem_edited_of_ne hne]

def joining : Request :=
  ⟨"PUT", "/api/v1/groups/staff/users/ann",
    [("Authorization", Bytes.ofText "Bearer " ++ Token.adminToken)]⟩

/-- The removal of the same membership, without a token. -/
def unprovenLeaving : Request :=
  ⟨"DELETE", "/api/v1/groups/staff/users/ann", []⟩

/-- A request with the sample token. -/
def asAdmin (method target : String) : Request :=
  ⟨method, target, [("Authorization", bearer ++ Token.adminToken)]⟩

theorem bears_adminToken (method target : String) : Bears (asAdmin method target) Token.adminToken := by
  have marked : ∀ b ∈ bearer, isHeaderText b = true := by decide +kernel
  have written : ∀ b ∈ Token.adminToken, isHeaderText b = true :=
    Token.forall_sign (by decide) (by decide) _ _ _
  exact ⟨rfl, List.all_eq_true.mpr (List.forall_mem_append.mpr ⟨marked, written⟩)⟩

theorem joining_admitted {v : Token.Verifier} {claims : Claims}
    (accepted : v.verify Token.sampleTime Token.adminToken = .ok claims) (groups : claims.groups = ["admins"]) :
    Admits (administered v) (.start .empty .empty) joining "staff" "ann" where
  method := Or.inl rfl
  path := ⟨"staff", "ann", by decide +kernel⟩
  bearer := ⟨_, claims, bears_adminToken "PUT" _, accepted, by simp [groups, administered]⟩
  names := by decide +kernel
  changeable := rfl

theorem unprovenLeaving_unadmitted (g : Config) (s : Session Script) (group username : String) :
    ¬ Admits g s unprovenLeaving group username := by
  intro admitted
  obtain ⟨token, claims, ⟨header, -⟩, -⟩ := admitted.bearer
  cases header

theorem joined_and_not_left :
    ∃ v, Token.Verifier.ofKeyMap Sample.primaryKeyMap Sample.primaryIssuer 60 = .ok v ∧
      (after (administered v) Script.service (.start .empty .empty)
        [.request joining .none, .request unprovenLeaving .none]).store.isMember "ann" "staff" = true := by
  obtain ⟨v, claims, loaded, accepted, groups⟩ := Token.adminToken_accepted
  refine ⟨v, loaded, ?_⟩
  refine ((memberships_follow_admitted_changes (administered v) (.start .empty .empty) rfl _).1
    "staff" "ann").mpr ?_
  refine ⟨[], .request joining .none, [.request unprovenLeaving .none], rfl,
    ⟨joining, rfl, rfl, joining_admitted accepted groups⟩, ?_⟩
  rintro between m rest split method ⟨q, asked, -, admitted⟩
  cases between with
  | nil =>
    cases split
    cases asked
    exact unprovenLeaving_unadmitted _ _ _ _ admitted
  | cons m' between => simp at split

end DirectoryGateway.Gateway
