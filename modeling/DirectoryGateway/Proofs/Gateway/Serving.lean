import DirectoryGateway.Gateway.History

/-!
# How a request is served

What a session makes of a request depends on its route, on the token that it bears and on its method, in this order.
`Served` lists the ways it can go; everything that comes after the response is made leaves its status, its headers and the
provider as they are.
-/

namespace DirectoryGateway.Gateway

open DirectoryGateway.Provider
open DirectoryGateway.Token (Claims Verifier)

variable {σ : Type} {g : Config} {service : Service σ} {s : Session σ} {q : Request} {i : Interrupts}

/-! ### Tokens -/

def Config.clock (g : Config) (s : Session σ) : Nat :=
  g.epoch + s.now / 1000

/-- The first authorization header of a request is text and marks what follows as a token. -/
def Bears (q : Request) (token : List UInt8) : Prop :=
  q.header? "authorization" = some (bearer ++ token) ∧ (bearer ++ token).all isHeaderText = true

theorem bearerToken_eq_ok_iff {token : List UInt8} : bearerToken q = .ok token ↔ Bears q token := by
  unfold bearerToken Bears
  cases hq : q.header? "authorization" with
  | none => simp
  | some value =>
    by_cases readable : value.all isHeaderText = true
    · by_cases marked : bearer.isPrefixOf value = true
      · obtain ⟨rest, hrest⟩ := List.isPrefixOf_iff_prefix.mp marked
        subst hrest
        simp only [readable, marked, if_true, List.drop_left, Except.ok.injEq, Option.some.injEq,
          List.append_cancel_left_eq]
        constructor
        · rintro rfl
          exact ⟨rfl, readable⟩
        · exact And.left
      · simp only [readable, marked, if_true, Bool.false_eq_true, if_false, reduceCtorEq,
          Option.some.injEq, false_iff]
        rintro ⟨rfl, -⟩
        exact marked (List.isPrefixOf_iff_prefix.mpr (List.prefix_append _ _))
    · simp only [readable, Bool.false_eq_true, if_false, reduceCtorEq, Option.some.injEq, false_iff]
      rintro ⟨rfl, h⟩
      exact readable h

theorem bearerToken_error {p : Problem} (h : bearerToken q = .error p) :
    ∃ reason, p = .invalidToken reason := by
  unfold bearerToken at h
  split at h
  · cases h
    exact ⟨_, rfl⟩
  · split at h
    · split at h
      · contradiction
      · cases h
        exact ⟨_, rfl⟩
    · cases h
      exact ⟨_, rfl⟩

theorem authenticate_eq_ok_iff {v : Verifier} {now : Nat} {claims : Claims} :
    authenticate v now q = .ok claims ↔ ∃ token, Bears q token ∧ v.verify now token = .ok claims := by
  unfold authenticate
  cases hq : bearerToken q with
  | error p =>
    simp only [reduceCtorEq, false_iff]
    rintro ⟨token, bears, -⟩
    rw [bearerToken_eq_ok_iff.mpr bears] at hq
    contradiction
  | ok token =>
    have bears : Bears q token := bearerToken_eq_ok_iff.mp hq
    have accepts : acceptToken v now token = .ok claims ↔ v.verify now token = .ok claims := by
      unfold acceptToken
      cases v.verify now token <;> simp
    rw [accepts]
    constructor
    · intro h
      exact ⟨token, bears, h⟩
    · rintro ⟨token', bears', h⟩
      have same : token = token' := by
        have := bearerToken_eq_ok_iff.mpr bears'
        rw [hq] at this
        exact Except.ok.inj this
      rw [same]
      exact h

/-- Whatever is wrong with a token, it is refused as invalid. -/
theorem authenticate_error {v : Verifier} {now : Nat} {p : Problem}
    (h : authenticate v now q = .error p) : ∃ reason, p = .invalidToken reason := by
  unfold authenticate at h
  split at h
  · unfold acceptToken at h
    split at h
    · contradiction
    · cases h
      exact ⟨_, rfl⟩
  · cases h
    exact bearerToken_error (by assumption)

/-! ### Heads -/

namespace Response

/-- What a response says without its body. -/
def head (r : Response) : Nat × List (String × String) :=
  (r.status, r.headers)

@[simp] theorem head_sent (r : Response) (method : String) : (r.sent method).head = r.head := by
  unfold sent
  split <;> rfl

end Response

theorem status_sent (r : Response) (method : String) : (r.sent method).status = r.status :=
  congrArg Prod.fst (r.head_sent method)

theorem ofStatus_sent (status : Nat) (method : String) :
    (Response.ofStatus status).sent method = .ofStatus status := by
  unfold Response.sent
  split <;> rfl

/-! ### Routes -/

/-- The ways in which a request is served: the head of the response, and the session after it. -/
inductive Served (g : Config) (service : Service σ) (q : Request) (i : Interrupts) (s : Session σ) :
    Response → Session σ → Prop where
  | unknown (path : Route.ofPath? q.path = none) : Served g service q i s (.ofStatus 404) s
  | refused (route : Route) (p : Problem) (path : Route.ofPath? q.path = some route)
      (guarded : route.isProtected = true)
      (fault : authenticate g.verifier (g.clock s) q = .error p) :
    Served g service q i s
      (if route.methods.contains q.method then p.response
        else p.response.withHeader "allow" route.allow) s
  | admitted (route : Route) (claims : Claims) (path : Route.ofPath? q.path = some route)
      (guarded : route.isProtected = true)
      (accepted : authenticate g.verifier (g.clock s) q = .ok claims)
      (allowed : q.method ∈ route.methods) :
    Served g service q i s (serveProtected g service i claims q.method route s).1
      (serveProtected g service i claims q.method route s).2
  | open_ (route : Route) (path : Route.ofPath? q.path = some route)
      (unguarded : route.isProtected = false) (allowed : q.method ∈ route.methods) :
    Served g service q i s (publicAnswer g s route) (afterPublic route s)
  | notAllowed (route : Route) (path : Route.ofPath? q.path = some route)
      (accepted : route.isProtected = true →
        ∃ claims, authenticate g.verifier (g.clock s) q = .ok claims)
      (method : q.method ∉ route.methods) :
    Served g service q i s (methodNotAllowed route) s

theorem serveRoute_served {route : Route} (path : Route.ofPath? q.path = some route) :
    Served g service q i s (serveRoute g service q i route s).1 (serveRoute g service q i route s).2 := by
  unfold serveRoute
  cases guarded : route.isProtected with
  | true =>
    cases token : authenticate g.verifier (g.epoch + s.now / 1000) q with
    | error p => exact .refused route p path guarded token
    | ok claims =>
      by_cases allowed : q.method ∈ route.methods
      · simpa [allowed] using Served.admitted route claims path guarded token allowed
      · simpa [allowed] using Served.notAllowed route path (fun _ => ⟨claims, token⟩) allowed
  | false =>
    by_cases allowed : q.method ∈ route.methods
    · simpa [allowed] using Served.open_ route path guarded allowed
    · simpa [allowed] using Served.notAllowed route path (by simp [guarded]) allowed

/-- The only place where the serving of a request is taken apart. -/
theorem respond_cases (g : Config) (service : Service σ) (q : Request) (i : Interrupts) (s : Session σ) :
    ∃ r, Served g service q i s r (respond g service q i s).2 ∧
      (respond g service q i s).1.head = r.head := by
  unfold respond
  cases path : Route.ofPath? q.path with
  | none => exact ⟨_, .unknown path, rfl⟩
  | some route =>
    refine ⟨_, serveRoute_served path, ?_⟩
    dsimp only
    split <;> rfl

theorem afterPublic_store (route : Route) (s : Session σ) : (afterPublic route s).store = s.store := by
  unfold afterPublic
  split <;> rfl

/-! ### Moments -/

/-- The request that a moment puts to a session, as the session reads it. -/
def Moment.served? : Moment → Option Request
  | .request q _ => some q
  | .message q _ => q.received?
  | .drain => none
  | .finish => none

/-- What happens while the request of a moment is served. -/
def Moment.interrupts : Moment → Interrupts
  | .request _ i => i
  | .message _ i => i
  | .drain => .none
  | .finish => .none

@[simp] theorem Session.observe_store (s : Session σ) (notes : List Telemetry.Note) :
    (s.observe notes).store = s.store := rfl

@[simp] theorem Session.interrupted_store (s : Session σ) (i : Interrupts) (started : Nat) :
    (s.interrupted i started).store = s.store := rfl

theorem serve_head : (serve g service q i s).1.head = (respond g service q i s).1.head := by
  simp only [serve]

theorem serve_store : (serve g service q i s).2.store = (respond g service q i s).2.store := by
  simp only [serve, Session.interrupted_store, Session.observe_store]

/-- Counting a response, and sending it, changes neither its head nor the provider. -/
theorem play_respond (g : Config) (service : Service σ) (s : Session σ) {m : Moment}
    (asked : m.served? = some q) :
    ∃ r, (m.play g service s).1 = some r ∧ r.head = (respond g service q m.interrupts s).1.head ∧
      (m.play g service s).2.store = (respond g service q m.interrupts s).2.store := by
  cases m with
  | request q' i =>
    cases asked
    refine ⟨(serve g service q i s).1, ?_, serve_head, ?_⟩
    · simp only [Moment.play]
    · simp only [Moment.play, Moment.interrupts, serve_store]
  | message q' i =>
    have read : q'.received? = some q := asked
    refine ⟨(serve g service q i s).1.sent q.method, ?_, ?_, ?_⟩
    · simp only [Moment.play, receive, read]
    · rw [Response.head_sent, serve_head, Moment.interrupts]
    · simp only [Moment.play, Moment.interrupts, receive, read, serve_store]
  | drain => contradiction
  | finish => contradiction

theorem play_served (g : Config) (service : Service σ) (s : Session σ) {m : Moment}
    (asked : m.served? = some q) :
    ∃ i r, (m.play g service s).1 = some r ∧ r.head = (respond g service q i s).1.head ∧
      (m.play g service s).2.store = (respond g service q i s).2.store :=
  ⟨m.interrupts, play_respond g service s asked⟩

/-- What is no request is refused, if it asks for anything, and does not reach the provider. -/
theorem play_unserved (g : Config) (service : Service σ) (s : Session σ) {m : Moment}
    (unasked : m.served? = none) :
    (m.play g service s).2.store = s.store ∧
      ∀ r, (m.play g service s).1 = some r → r = .ofStatus 400 := by
  cases m with
  | request q' i => contradiction
  | message q' i =>
    have unread : q'.received? = none := unasked
    simp only [Moment.play, receive, unread, Option.some.injEq, true_and]
    intro r hr
    exact hr.symm
  | drain => exact ⟨rfl, by simp [Moment.play]⟩
  | finish => exact ⟨rfl, by simp [Moment.play]⟩

end DirectoryGateway.Gateway
