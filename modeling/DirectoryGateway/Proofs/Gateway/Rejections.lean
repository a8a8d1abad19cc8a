import DirectoryGateway.Proofs.Gateway.Unauthenticated

/-!
# Rejected tokens

A session answers for a rejected token by the route and the method of its request alone. So requests that are the same but for
their tokens, all of them rejected for whatever reasons, cannot be told apart by their responses, nor by anything that the
session says later.
-/

namespace DirectoryGateway.Gateway

open DirectoryGateway.Provider
open DirectoryGateway.Token (Rejection)

variable {σ : Type} {g : Config} {service : Service σ} {s : Session σ} {q q' : Request} {i : Interrupts}

/-! ### What a response depends on -/

/-- Of the headers of a request only what the token check makes of them counts. -/
theorem respond_congr (method : q.method = q'.method) (path : q.path = q'.path)
    (check : authenticate g.verifier (g.clock s) q = authenticate g.verifier (g.clock s) q') :
    respond g service q i s = respond g service q' i s := by
  have hroute : ∀ route, serveRoute g service q i route s = serveRoute g service q' i route s := by
    intro route
    rw [Config.clock] at check
    rw [serveRoute, serveRoute, check, method]
  rw [respond, respond, path, method]
  simp only [hroute]

theorem serve_congr (method : q.method = q'.method) (path : q.path = q'.path)
    (check : authenticate g.verifier (g.clock s) q = authenticate g.verifier (g.clock s) q') :
    serve g service q i s = serve g service q' i s := by
  rw [serve, serve, respond_congr method path check, method, path]

/-! ### Rejected tokens -/

/-- The first authorization header of a request shows a token, and this is rejected when the request comes. -/
def BearsRejected (g : Config) (s : Session σ) (q : Request) : Prop :=
  ∃ token reason, Bears q token ∧ g.verifier.verify (g.clock s) token = .error reason

/-- What is said about a rejected token. -/
def rejection : Problem :=
  .invalidToken "The access token is invalid or expired"

theorem authenticate_rejected (h : BearsRejected g s q) :
    authenticate g.verifier (g.clock s) q = .error rejection := by
  obtain ⟨token, reason, bears, rejected⟩ := h
  rw [authenticate, bearerToken_eq_ok_iff.mpr bears]
  dsimp only
  rw [acceptToken, rejected]
  rfl

/-- The response to a request with a rejected token, by its route and its method. -/
def rejectionFrom (route : Route) (method : String) : Response :=
  let r := if route.methods.contains method then rejection.response
    else rejection.response.withHeader "allow" route.allow
  if method = "HEAD" ∧ route.methods.contains "HEAD" then r.withoutBody else r

theorem serve_rejected {route : Route} (path : Route.ofPath? q.path = some route)
    (guarded : route.isProtected = true) (h : BearsRejected g s q) :
    (serve g service q i s).1 = rejectionFrom route q.method := by
  have hcheck := authenticate_rejected h
  rw [Config.clock] at hcheck
  simp only [serve, respond, path, serveRoute, guarded, if_true, hcheck]
  rfl

theorem rejectionFrom_head (route : Route) (method : String) :
    (rejectionFrom route method).status = 401 ∧
      (rejectionFrom route method).header? "www-authenticate" = some Problem.challenge := by
  unfold rejectionFrom
  dsimp only
  split <;> split <;> exact ⟨rfl, rfl⟩

/-! ### Requests that differ in their tokens -/

/-- Two requests that are the same but for what follows the mark in their first authorization header. -/
inductive SameButToken : Request → Request → Prop where
  | tokens (method target name : String) (before behind : List (String × List UInt8)) (token token' : List UInt8)
      (named : lowerName name = "authorization")
      (first : ∀ h ∈ before, lowerName h.1 ≠ "authorization") :
    SameButToken ⟨method, target, before ++ (name, bearer ++ token) :: behind⟩
      ⟨method, target, before ++ (name, bearer ++ token') :: behind⟩

theorem SameButToken.method (h : SameButToken q q') : q.method = q'.method := by
  cases h
  rfl

theorem SameButToken.path (h : SameButToken q q') : q.path = q'.path := by
  cases h
  rfl

/-- The first authorization header of a request is no text, so that no token is seen in it. -/
def Garbled (q : Request) : Prop :=
  ∃ value, q.header? "authorization" = some value ∧ value.all isHeaderText = false

theorem authenticate_garbled (h : Garbled q) :
    authenticate g.verifier (g.clock s) q = .error (.invalidToken "Missing Authorization header") := by
  obtain ⟨value, header, unreadable⟩ := h
  rw [authenticate, bearerToken, header]
  simp only [unreadable, Bool.false_eq_true, if_false]

/-- Two requests show a rejected token each, or neither of them shows one. -/
inductive RefusedAlike (g : Config) (s : Session σ) (q q' : Request) : Prop where
  | rejected (first : BearsRejected g s q) (second : BearsRejected g s q')
  | garbled (first : Garbled q) (second : Garbled q')

theorem RefusedAlike.check (h : RefusedAlike g s q q') :
    authenticate g.verifier (g.clock s) q = authenticate g.verifier (g.clock s) q' := by
  cases h with
  | rejected first second => rw [authenticate_rejected first, authenticate_rejected second]
  | garbled first second => rw [authenticate_garbled first, authenticate_garbled second]

/-! ### Histories that differ in tokens -/

/-- A moment with a token in place of another one, where both of them are refused. -/
inductive Disguised (g : Config) (s : Session σ) : Moment → Moment → Prop where
  | same (m : Moment) : Disguised g s m m
  | request {q q' : Request} (i : Interrupts) (alike : SameButToken q q') (refused : RefusedAlike g s q q') :
    Disguised g s (.request q i) (.request q' i)
  | message {q q' read read' : Request} (i : Interrupts) (alike : SameButToken q q')
      (first : q.received? = some read) (second : q'.received? = some read')
      (refused : RefusedAlike g s read read') :
    Disguised g s (.message q i) (.message q' i)

theorem received_method {read : Request} (h : q.received? = some read) : read.method = q.method := by
  unfold Request.received? at h
  split at h
  · cases h
    rfl
  · cases h

theorem received_path {read : Request} (h : q.received? = some read) : read.path = q.path := by
  unfold Request.received? at h
  split at h
  · cases h
    rfl
  · cases h

theorem play_disguised {m m' : Moment} (h : Disguised g s m m') : m.play g service s = m'.play g service s := by
  cases h with
  | same => rfl
  | request i alike refused =>
    rw [Moment.play, Moment.play, serve_congr alike.method alike.path refused.check]
  | message i alike first second refused =>
    have hmethod := (received_method first).trans (alike.method.trans (received_method second).symm)
    have hpath := (received_path first).trans (alike.path.trans (received_path second).symm)
    rw [Moment.play, Moment.play, receive, receive, first, second]
    dsimp only
    rw [serve_congr hmethod hpath refused.check, hmethod]

/-- Histories that lead through the same moments, some of them disguised. -/
inductive Retelling (g : Config) (service : Service σ) : Session σ → List Moment → List Moment → Prop where
  | nil (s : Session σ) : Retelling g service s [] []
  | cons {s : Session σ} {m m' : Moment} {ms ms' : List Moment} (alike : Disguised g s m m')
      (rest : Retelling g service (m.play g service s).2 ms ms') :
    Retelling g service s (m :: ms) (m' :: ms')

theorem trace_retelling {ms ms' : List Moment} (h : Retelling g service s ms ms') :
    trace g service s ms = trace g service s ms' := by
  induction h with
  | nil => rfl
  | cons alike rest ih =>
    rw [play_disguised alike] at ih
    rw [trace, trace, play_disguised alike, ih]

/-- Requests for a protected route that are the same but for their tokens, both of them rejected, get one response, also when
they come at different times. Nothing that a session says in a history depends on which tokens were rejected in it, nor on
what stands in headers that are no text. -/
theorem rejected_tokens_look_alike (g : Config) (service : Service σ) :
    (∀ {q q' : Request} {s s' : Session σ} {route : Route}, SameButToken q q' →
      BearsRejected g s q → BearsRejected g s' q' →
      Route.ofPath? q.path = some route → route.isProtected = true →
        ∀ i i', (serve g service q i s).1 = (serve g service q' i' s').1 ∧
          (serve g service q i s).1.status = 401 ∧
          (serve g service q i s).1.header? "www-authenticate" = some Problem.challenge) ∧
    ∀ {s : Session σ} {ms ms' : List Moment}, Retelling g service s ms ms' →
      trace g service s ms = trace g service s ms' := by
  refine ⟨?_, trace_retelling⟩
  intro q q' s s' route alike rejected rejected' path guarded i i'
  have hfirst : (serve g service q i s).1 = rejectionFrom route q.method :=
    serve_rejected path guarded rejected
  rw [alike.path] at path
  have hsecond : (serve g service q' i' s').1 = rejectionFrom route q'.method :=
    serve_rejected path guarded rejected'
  obtain ⟨status, header⟩ := rejectionFrom_head route q.method
  rw [hfirst, hsecond, alike.method]
  rw [alike.method] at status header
  exact ⟨rfl, status, header⟩

/-- A request for the claims of the caller, with a token. -/
def asking (token : List UInt8) : Request :=
  ⟨"GET", "/api/v1/me", [("Authorization", bearer ++ token)]⟩

/-- A token that is too long to be looked at. -/
def oversized : List UInt8 :=
  List.replicate 8193 97

theorem forged_and_oversized_look_alike :
    let forged := asking (Bytes.ofText "forged")
    let long := asking oversized
    (BearsRejected sampleConfig emptySession forged ∧ BearsRejected sampleConfig emptySession long) ∧
      (serve sampleConfig Script.service forged .none emptySession).1 =
        (serve sampleConfig Script.service long .none emptySession).1 ∧
      (serve sampleConfig Script.service forged .none emptySession).1.status = 401 ∧
      trace sampleConfig Script.service emptySession [.request forged .none, .drain] =
        trace sampleConfig Script.service emptySession [.request long .none, .drain] := by
  dsimp only
  have alike : SameButToken (asking (Bytes.ofText "forged")) (asking oversized) :=
    .tokens "GET" "/api/v1/me" "Authorization" [] [] _ _ (by decide +kernel) (by simp)
  have header : ∀ token, (asking token).header? "authorization" = some (bearer ++ token) := by
    intro token
    have named : (lowerName "Authorization" == "authorization") = true := by decide +kernel
    simp [asking, Request.header?, named]
  have short : ¬ Token.maxTokenSize < (Bytes.ofText "forged").length := by decide +kernel
  have uncut : Token.Parts.ofToken? (Bytes.ofText "forged") = none := by decide +kernel
  have malformed : BearsRejected sampleConfig emptySession (asking (Bytes.ofText "forged")) := by
    refine ⟨_, .malformed, ⟨header _, by decide +kernel⟩, ?_⟩
    rw [Token.Verifier.verify, if_neg short, uncut]
  have long : Token.maxTokenSize < oversized.length := by
    rw [oversized, List.length_replicate, Token.maxTokenSize]
    decide
  have readable : (bearer ++ oversized).all isHeaderText = true := by
    rw [List.all_append, oversized, List.all_replicate]
    decide +kernel
  have tooLong : BearsRejected sampleConfig emptySession (asking oversized) := by
    refine ⟨_, .tooLong, ⟨header _, readable⟩, ?_⟩
    rw [Token.Verifier.verify, if_pos long]
  have path : Route.ofPath? (asking (Bytes.ofText "forged")).path = some .me := by decide +kernel
  obtain ⟨responses, histories⟩ := rejected_tokens_look_alike sampleConfig Script.service
  obtain ⟨same, status, -⟩ := responses alike malformed tooLong path rfl .none .none
  have retelling : Retelling sampleConfig Script.service emptySession
      [.request (asking (Bytes.ofText "forged")) .none, .drain] [.request (asking oversized) .none, .drain] :=
    .cons (.request .none alike (.rejected malformed tooLong)) (.cons (.same .drain) (.nil _))
  exact ⟨⟨malformed, tooLong⟩, same, status, histories retelling⟩

end DirectoryGateway.Gateway
