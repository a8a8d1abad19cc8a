import DirectoryGateway.Proofs.Gateway.Asking

/-!
# Requests for anything but a listing

A request that asks for no listing is answered at once, or by one call for a single record. What it is answered with does not
depend on whether the session drains or was told to stop, the two probes apart that tell about the session, and the call
touches nothing that listings read.
-/

namespace DirectoryGateway.Provider.Script

open DirectoryGateway.Directory

/-- What no call changes. -/
def fixtures (st : Script) : List User × Option Failure × Nat :=
  (st.known, st.mutationFailure, st.otherDelay)

/-- What a listing takes from and adds to. -/
def reel (st : Script) : ((c : Source) → List (Queued c.Record)) × List (Option String) :=
  (st.queue, st.cursors)

inductive Single : {α : Type} → (Script → Reply α × Script) → Prop where
  | lookUp (username : String) : Single (lookUp username)
  | change (operation : Operation) (edit : List (String × String) → List (String × String)) :
    Single (change operation edit)

variable {α : Type} {call : Script → Reply α × Script}

theorem Single.fixtures (h : Single call) (st : Script) : (call st).2.fixtures = st.fixtures := by
  cases h with
  | lookUp username => rfl
  | change operation edit =>
    unfold Script.change Script.fixtures
    cases st.mutationFailure <;> rfl

theorem Single.reel (h : Single call) (st : Script) : (call st).2.reel = st.reel := by
  cases h with
  | lookUp username => exact Prod.ext (funext fun c => by cases c <;> rfl) rfl
  | change operation edit =>
    unfold Script.change
    cases st.mutationFailure <;> exact Prod.ext (funext fun c => by cases c <;> rfl) rfl

theorem Single.reply (h : Single call) {st st' : Script} (same : st.fixtures = st'.fixtures) :
    (call st).1 = (call st').1 := by
  obtain ⟨hknown, hrest⟩ := Prod.mk.inj same
  obtain ⟨hfailure, hdelay⟩ := Prod.mk.inj hrest
  cases h with
  | lookUp username =>
    unfold Script.lookUp find?
    rw [hknown, hdelay]
  | change operation edit =>
    unfold Script.change
    dsimp only
    rw [hfailure, hdelay]
    cases st'.mutationFailure <;> rfl

end DirectoryGateway.Provider.Script

namespace DirectoryGateway.Gateway

open DirectoryGateway.Provider
open DirectoryGateway.Token (Claims)

variable {g : Config} {s s' : Session Script} {q : Request} {now : Nat}

/-! ### Ways of being served -/

/-- The ways in which a request for anything but a listing is served at a time, whatever interrupts it. -/
inductive Direct (g : Config) (path : String) (now : Nat)
    (serve : Interrupts → Session Script → Response × Session Script) : Prop where
  | fixed (r : Response) (same : ∀ i s, s.now = now → serve i s = (r, s))
  | call {α : Type} (answer : Outcome α → Response) (c : Script → Reply α × Script) (single : Script.Single c)
      (same : ∀ i s, s.now = now → serve i s = serveCall answer (c s.store) s)
  | probe (route : Route) (found : Route.ofPath? path = some route) (tells : route = .ready ∨ route = .metrics)
      (send : Response → Response)
      (same : ∀ i s, s.now = now → serve i s = (send (publicAnswer g s route), afterPublic route s))

namespace Direct

variable {path : String} {serve : Interrupts → Session Script → Response × Session Script}

theorem congr {serve' : Interrupts → Session Script → Response × Session Script}
    (h : ∀ i s, s.now = now → serve' i s = serve i s) (direct : Direct g path now serve) :
    Direct g path now serve' := by
  cases direct with
  | fixed r same => exact .fixed r fun i s hs => (h i s hs).trans (same i s hs)
  | call answer c single same => exact .call answer c single fun i s hs => (h i s hs).trans (same i s hs)
  | probe route found tells send same =>
    exact .probe route found tells send fun i s hs => (h i s hs).trans (same i s hs)

/-- What is done to every response alike, and leaves that of a request that takes too long as it is. -/
theorem sent (direct : Direct g path now serve) {send : Response → Response}
    (late : send (.ofStatus 408) = .ofStatus 408) :
    Direct g path now (fun i s => (send (serve i s).1, (serve i s).2)) := by
  cases direct with
  | fixed r same =>
    refine .fixed (send r) ?_
    intro i s hs
    rw [same i s hs]
  | call answer c single same =>
    refine .call (fun o => send (answer o)) c single ?_
    intro i s hs
    rw [same i s hs, serveCall, serveCall]
    split
    · rfl
    · rw [late]
  | probe route found tells send' same =>
    refine .probe route found tells (fun r => send (send' r)) ?_
    intro i s hs
    rw [same i s hs]

end Direct

theorem serveUser_direct (path segment : String) :
    Direct g path now (fun _ s => serveUser g Script.service segment s) := by
  cases read : Route.readName "username" segment with
  | error text =>
    refine .fixed (.ofText 400 text) ?_
    intro i s hs
    rw [serveUser, read]
  | ok username =>
    cases check : checkName "username" username with
    | error p =>
      refine .fixed p.response ?_
      intro i s hs
      rw [serveUser, read]
      dsimp only
      rw [check]
    | ok done =>
      refine .call userAnswer _ (.lookUp username) ?_
      intro i s hs
      rw [serveUser, read]
      dsimp only
      rw [check]
      rfl

theorem serveChange_direct (path : String) (claims : Claims) (method a b : String) :
    Direct g path now (fun _ s => serveChange g Script.service claims method a b s) := by
  cases readGroup : Route.readName "group" a with
  | error text =>
    refine .fixed (.ofText 400 text) ?_
    intro i s hs
    rw [serveChange, readGroup]
  | ok group =>
    cases readUser : Route.readName "username" b with
    | error text =>
      refine .fixed (.ofText 400 text) ?_
      intro i s hs
      rw [serveChange, readGroup, readUser]
    | ok username =>
      cases checked : admitChange g claims group username with
      | error p =>
        refine .fixed p.response ?_
        intro i s hs
        rw [serveChange, readGroup, readUser]
        dsimp only
        rw [checked]
      | ok done =>
        by_cases put : method = "PUT"
        · refine .call changeAnswer _ (.change .addMember (Script.withMember username group)) ?_
          intro i s hs
          rw [serveChange, readGroup, readUser]
          dsimp only
          rw [checked]
          dsimp only
          rw [if_pos put]
          rfl
        · refine .call changeAnswer _ (.change .removeMember (Script.withoutMember username group)) ?_
          intro i s hs
          rw [serveChange, readGroup, readUser]
          dsimp only
          rw [checked]
          dsimp only
          rw [if_neg put]
          rfl

/-- A name that is none is refused before there is a listing. -/
theorem serveMembers_direct (path : String) {segment : String} (unlisted : (Route.members segment).kind? = none) :
    Direct g path now (fun i s => serveMembers g Script.service i segment s) := by
  cases read : Route.readName "group" segment with
  | error text =>
    refine .fixed (.ofText 400 text) ?_
    intro i s hs
    rw [serveMembers, read]
  | ok group =>
    cases check : checkName "group" group with
    | error p =>
      refine .fixed p.response ?_
      intro i s hs
      rw [serveMembers, read]
      dsimp only
      rw [check]
    | ok done =>
      rw [Route.kind?, read] at unlisted
      dsimp only at unlisted
      rw [check] at unlisted
      cases unlisted

theorem serveProtected_direct (path : String) (claims : Claims) (method : String) {route : Route}
    (unlisted : route.kind? = none) :
    Direct g path now (fun i s => serveProtected g Script.service i claims method route s) := by
  cases route with
  | groups => cases unlisted
  | users => cases unlisted
  | members segment => exact serveMembers_direct path unlisted
  | user username => exact serveUser_direct path username
  | membership a b => exact serveChange_direct path claims method a b
  | me => exact .fixed (.ofJson 200 claims.profile) fun _ _ _ => rfl
  | _ => exact .fixed (.ofStatus 404) fun _ _ _ => rfl

theorem publicAnswer_direct {path : String} {route : Route} (found : Route.ofPath? path = some route)
    (unguarded : route.isProtected = false) :
    Direct g path now (fun _ s => (publicAnswer g s route, afterPublic route s)) := by
  cases route with
  | health => exact .fixed (.ofJson 200 (Health.healthy g.settings.region).toJson) fun _ _ _ => rfl
  | ready => exact .probe .ready found (Or.inl rfl) id fun _ _ _ => rfl
  | metrics => exact .probe .metrics found (Or.inr rfl) id fun _ _ _ => rfl
  | _ => cases unguarded

theorem serveRoute_direct {route : Route} (found : Route.ofPath? q.path = some route)
    (unlisted : g.listingOf? now q = none) :
    Direct g q.path now (fun i s => serveRoute g Script.service q i route s) := by
  cases guarded : route.isProtected with
  | false =>
    by_cases allowed : route.methods.contains q.method = true
    · refine (publicAnswer_direct found guarded).congr ?_
      intro i s hs
      simp only [serveRoute, guarded, Bool.false_eq_true, if_false, if_pos allowed]
    · refine .fixed (methodNotAllowed route) ?_
      intro i s hs
      simp only [serveRoute, guarded, Bool.false_eq_true, if_false, if_neg allowed]
  | true =>
    cases accepted : authenticate g.verifier (g.epoch + now / 1000) q with
    | error p =>
      refine .fixed (if route.methods.contains q.method then p.response else p.response.withHeader "allow" route.allow) ?_
      intro i s hs
      simp only [serveRoute, guarded, if_true, hs, accepted]
    | ok claims =>
      by_cases allowed : route.methods.contains q.method = true
      · have other : route.kind? = none := by
          rw [Config.listingOf?, found, accepted] at unlisted
          dsimp only at unlisted
          rw [if_pos allowed] at unlisted
          exact unlisted
        refine (serveProtected_direct q.path claims q.method other).congr ?_
        intro i s hs
        simp only [serveRoute, guarded, if_true, hs, accepted, if_pos allowed]
      · refine .fixed (methodNotAllowed route) ?_
        intro i s hs
        simp only [serveRoute, guarded, if_true, hs, accepted, if_neg allowed]

/-- The only place where the serving of such a request is taken apart. -/
theorem respond_direct (unlisted : g.listingOf? now q = none) :
    Direct g q.path now (fun i s => respond g Script.service q i s) := by
  cases found : Route.ofPath? q.path with
  | none =>
    refine .fixed (.ofStatus 404) ?_
    intro i s hs
    rw [respond, found]
  | some route =>
    let send (r : Response) : Response :=
      if q.method = "HEAD" ∧ route.methods.contains "HEAD" then r.withoutBody else r
    have late : send (.ofStatus 408) = .ofStatus 408 := by
      dsimp only [send]
      split <;> rfl
    refine ((serveRoute_direct found unlisted).sent late).congr ?_
    intro i s hs
    rw [respond, found]

/-! ### What a response depends on -/

section

variable {α : Type} (answer : Outcome α → Response) (called : Reply α × Script) (s : Session Script)

theorem serveCall_response :
    (serveCall answer called s).1 =
      if called.1.delay < requestLimit then answer called.1.outcome else .ofStatus 408 := by
  unfold serveCall
  dsimp only
  split <;> rfl

theorem serveCall_now :
    (serveCall answer called s).2.now = s.now + min called.1.delay requestLimit := by
  unfold serveCall
  dsimp only
  split
  · show s.now + called.1.delay = _
    omega
  · show s.now + requestLimit = _
    omega

theorem serveCall_flags :
    (serveCall answer called s).2.draining = s.draining ∧ (serveCall answer called s).2.stopped = s.stopped := by
  unfold serveCall
  dsimp only
  split <;> exact ⟨rfl, rfl⟩

end

theorem afterPublic_flags (route : Route) (s : Session Script) :
    (afterPublic route s).now = s.now ∧ (afterPublic route s).draining = s.draining ∧
      (afterPublic route s).stopped = s.stopped := by
  unfold afterPublic
  split <;> exact ⟨rfl, rfl, rfl⟩

/-- A probe that tells about the session. -/
def Request.IsProbe (q : Request) : Prop :=
  q.path = "/ready" ∨ q.path = "/metrics"

theorem isProbe_of_tells {route : Route} (found : Route.ofPath? q.path = some route)
    (tells : route = .ready ∨ route = .metrics) : q.IsProbe := by
  have hpath := (Route.path_of_route found).1
  rcases tells with hready | hmetrics
  · rw [hready] at hpath
    exact Or.inl hpath
  · rw [hmetrics] at hpath
    exact Or.inr hpath

namespace Direct

variable {path : String} {serve : Interrupts → Session Script → Response × Session Script}

theorem uninterrupted (direct : Direct g path now serve) {s : Session Script} (hs : s.now = now)
    (i i' : Interrupts) : serve i s = serve i' s := by
  cases direct with
  | fixed r same => rw [same i s hs, same i' s hs]
  | call answer c single same => rw [same i s hs, same i' s hs]
  | probe route found tells send same => rw [same i s hs, same i' s hs]

/-- What such a request leaves as it is. -/
theorem kept (direct : Direct g path now serve) {s : Session Script} (hs : s.now = now) (i : Interrupts) :
    (serve i s).2.draining = s.draining ∧ (serve i s).2.stopped = s.stopped ∧ s.now ≤ (serve i s).2.now ∧
      (serve i s).2.store.fixtures = s.store.fixtures ∧ (serve i s).2.store.reel = s.store.reel := by
  cases direct with
  | fixed r same =>
    rw [same i s hs]
    exact ⟨rfl, rfl, Nat.le_refl _, rfl, rfl⟩
  | call answer c single same =>
    obtain ⟨hdraining, hstopped⟩ := serveCall_flags answer (c s.store) s
    rw [same i s hs, serveCall_store, serveCall_now]
    exact ⟨hdraining, hstopped, Nat.le_add_right _ _, single.fixtures _, single.reel _⟩
  | probe route found tells send same =>
    obtain ⟨hnow, hdraining, hstopped⟩ := afterPublic_flags route s
    rw [same i s hs]
    dsimp only
    rw [afterPublic_store, hnow]
    exact ⟨hdraining, hstopped, Nat.le_refl _, rfl, rfl⟩

/-- Sessions at one time with the same fixtures answer it at one time, and in the same way unless it is a probe. -/
theorem agree (direct : Direct g q.path now serve) {s s' : Session Script} (hs : s.now = now) (hs' : s'.now = now)
    (fixtures : s.store.fixtures = s'.store.fixtures) (i i' : Interrupts) :
    (serve i s).2.now = (serve i' s').2.now ∧ (¬ q.IsProbe → (serve i s).1 = (serve i' s').1) := by
  cases direct with
  | fixed r same =>
    rw [same i s hs, same i' s' hs']
    exact ⟨hs.trans hs'.symm, fun _ => rfl⟩
  | call answer c single same =>
    rw [same i s hs, same i' s' hs', serveCall_now, serveCall_now, serveCall_response, serveCall_response,
      single.reply fixtures, hs, hs']
    exact ⟨rfl, fun _ => rfl⟩
  | probe route found tells send same =>
    rw [same i s hs, same i' s' hs']
    dsimp only
    rw [(afterPublic_flags route s).1, (afterPublic_flags route s').1]
    exact ⟨hs.trans hs'.symm, fun other => absurd (isProbe_of_tells found tells) other⟩

end Direct

section

variable {σ : Type} (service : Service σ) (i : Interrupts) (s : Session σ)

theorem serve_response : (serve g service q i s).1 = (respond g service q i s).1 := by
  simp only [serve]

@[simp] theorem Session.observe_now (notes : List Telemetry.Note) : (s.observe notes).now = s.now := rfl

@[simp] theorem Session.interrupted_now (started : Nat) : (s.interrupted i started).now = s.now := rfl

theorem serve_now : (serve g service q i s).2.now = (respond g service q i s).2.now := by
  simp only [serve, Session.interrupted_now, Session.observe_now]

end

end DirectoryGateway.Gateway
