import DirectoryGateway.Proofs.Gateway.Responses
import DirectoryGateway.Proofs.Gateway.Routing
import DirectoryGateway.Proofs.Token.Drafts
import DirectoryGateway.Provider.Script

/-!
# Requests without an accepted token

Such a request is turned away before the provider is asked anything, whatever else it says. Only what turns it away asks
for a token.
-/

namespace DirectoryGateway.Gateway

open DirectoryGateway.Provider
open DirectoryGateway.Token (Claims Verifier Rejection)

variable {σ : Type} {g : Config} {service : Service σ} {s : Session σ} {q : Request} {i : Interrupts}

/-- What a request lacks whose first authorization header shows no token that is accepted when it comes. -/
inductive Unauthenticated (g : Config) (s : Session σ) (q : Request) : Prop where
  | missing (header : q.header? "authorization" = none)
  | unreadable (value : List UInt8) (header : q.header? "authorization" = some value)
      (noText : ¬ ∀ b ∈ value, isHeaderText b = true)
  | unmarked (value : List UInt8) (header : q.header? "authorization" = some value)
      (noBearer : ¬ Bytes.ofText "Bearer " <+: value)
  | rejected (token : List UInt8) (reason : Rejection)
      (header : q.header? "authorization" = some (Bytes.ofText "Bearer " ++ token))
      (verdict : g.verifier.verify (g.clock s) token = .error reason)

theorem Unauthenticated.fault (h : Unauthenticated g s q) :
    ∃ p, authenticate g.verifier (g.clock s) q = .error p := by
  cases ha : authenticate g.verifier (g.clock s) q with
  | error p => exact ⟨p, rfl⟩
  | ok claims =>
    obtain ⟨token, ⟨header, text⟩, verified⟩ := authenticate_eq_ok_iff.mp ha
    cases h with
    | missing header' =>
      rw [header] at header'
      cases header'
    | unreadable value header' noText =>
      rw [header] at header'
      cases header'
      exact absurd (List.all_eq_true.mp text) noText
    | unmarked value header' noBearer =>
      rw [header] at header'
      cases header'
      exact absurd (List.prefix_append _ _) noBearer
    | rejected token' reason header' verdict =>
      rw [header] at header'
      have same : token = token' := List.append_cancel_left (Option.some.inj header')
      rw [same, verdict] at verified
      cases verified

/-! ### Challenges -/

namespace Response

/-- A response that asks for a token has the status that says that there was none. -/
def Candid (r : Response) : Prop :=
  "www-authenticate" ∈ r.headers.map Prod.fst → r.status = 401

theorem candid_of_head {r r' : Response} (h : r.head = r'.head) (hr : r'.Candid) : r.Candid := by
  obtain ⟨hstatus, hheaders⟩ := Prod.mk.inj h
  unfold Candid
  rw [hstatus, hheaders]
  exact hr

theorem candid_ofStatus (status : Nat) : (ofStatus status).Candid := by
  simp [Candid, ofStatus]

end Response

theorem Made.candid {r : Response} (h : Made r) : r.Candid := by
  induction h with
  | problem p =>
    cases p with
    | invalidToken reason => exact fun _ => rfl
    | _ => simp [Response.Candid, Problem.response, Response.ofJson]
  | allow h methods ih => simpa [Response.Candid, Response.withHeader] using ih
  | _ => simp [Response.Candid, Response.ofStatus, Response.ofJson, Response.ofText]

/-! ### Refusals -/

/-- Without an accepted token a request gets nothing but what is open to everyone. -/
theorem Served.of_unauthenticated {r : Response} {s' : Session σ} (h : Served g service q i s r s')
    (lacks : Unauthenticated g s q) :
    s'.store = s.store ∧
      ((∃ route, Route.ofPath? q.path = some route ∧ route.isProtected = true ∧ r.status = 401 ∧
          r.header? "www-authenticate" = some Problem.challenge) ∨
        (∃ route, Route.ofPath? q.path = some route ∧ route.isProtected = false) ∨
        (Route.ofPath? q.path = none ∧ r.status = 404)) := by
  obtain ⟨p, fault⟩ := lacks.fault
  cases h with
  | unknown path => exact ⟨rfl, Or.inr (Or.inr ⟨path, rfl⟩)⟩
  | refused route p' path guarded fault' =>
    obtain ⟨reason, rfl⟩ := authenticate_error fault'
    refine ⟨rfl, Or.inl ⟨route, path, guarded, ?_⟩⟩
    split <;> exact ⟨rfl, rfl⟩
  | admitted route claims path guarded accepted allowed =>
    rw [fault] at accepted
    cases accepted
  | open_ route path unguarded allowed =>
    exact ⟨afterPublic_store route s, Or.inr (Or.inl ⟨route, path, unguarded⟩)⟩
  | notAllowed route path accepted method =>
    refine ⟨rfl, Or.inr (Or.inl ⟨route, path, ?_⟩)⟩
    cases guarded : route.isProtected with
    | false => rfl
    | true =>
      obtain ⟨claims, h⟩ := accepted guarded
      rw [fault] at h
      cases h

/-- Whatever a session is asked without an accepted token, or cannot read as a request, leaves the provider as it was and is
not answered with success, unless it is open to everyone; protected routes then ask for a token, and no other response
does. -/
theorem unauthenticated_is_kept_out (g : Config) (service : Service σ) (s : Session σ) (m : Moment) :
    (∀ q, m.served? = some q → Unauthenticated g s q →
      (m.play g service s).2.store = s.store ∧
      ∃ r, (m.play g service s).1 = some r ∧
        (q.path ∉ ["/health", "/ready", "/metrics"] → ¬ (200 ≤ r.status ∧ r.status < 300)) ∧
        ∀ route, Route.ofPath? q.path = some route → route.isProtected = true →
          r.status = 401 ∧ r.header? "www-authenticate" = some Problem.challenge) ∧
    (m.served? = none →
      (m.play g service s).2.store = s.store ∧
      ∀ r, (m.play g service s).1 = some r → r.status = 400) ∧
    ∀ r, (m.play g service s).1 = some r →
      "www-authenticate" ∈ r.headers.map Prod.fst → r.status = 401 := by
  refine ⟨?_, ?_, ?_⟩
  · intro q asked lacks
    obtain ⟨i, r, hr, hhead, hstore⟩ := play_served g service s asked
    obtain ⟨r', served, hhead'⟩ := respond_cases g service q i s
    obtain ⟨kept, outcome⟩ := served.of_unauthenticated lacks
    obtain ⟨hstatus, hheaders⟩ := Prod.mk.inj (hhead.trans hhead')
    refine ⟨hstore.trans kept, r, hr, ?_, ?_⟩
    · intro closed
      rcases outcome with ⟨route, path, guarded, status, -⟩ | ⟨route, path, unguarded⟩ | ⟨path, status⟩
      · omega
      · exact absurd (Route.path_of_public path unguarded) closed
      · omega
    · intro route path guarded
      rcases outcome with ⟨route', path', -, status, header⟩ | ⟨route', path', unguarded⟩ | ⟨path', -⟩
      · rw [Response.header?, hheaders, hstatus]
        exact ⟨status, header⟩
      · rw [path] at path'
        cases path'
        rw [guarded] at unguarded
        cases unguarded
      · rw [path] at path'
        cases path'
  · intro unasked
    obtain ⟨kept, refused⟩ := play_unserved g service s unasked
    refine ⟨kept, ?_⟩
    intro r hr
    rw [refused r hr]
    rfl
  · intro r hr
    cases asked : m.served? with
    | some q =>
      obtain ⟨i, r', hr', hhead, -⟩ := play_served g service s asked
      obtain ⟨r'', served, hhead'⟩ := respond_cases g service q i s
      rw [hr] at hr'
      cases hr'
      exact Response.candid_of_head (hhead.trans hhead') served.made.candid
    | none =>
      rw [(play_unserved g service s asked).2 r hr]
      exact Response.candid_ofStatus 400

/-- A gateway with the keys of a verifier, which the members of the group `admins` administer. -/
def administered (v : Token.Verifier) : Config where
  settings := ⟨"pool", "region", "127.0.0.1:0", "", Sample.primaryIssuer, [], 60, 10, none, 60, "admins", 30⟩
  verifier := v
  epoch := Token.sampleTime

/-- The one that trusts the published key. -/
def sampleConfig : Config :=
  administered (Token.primaryVerifier Sample.primaryIssuer 60)

theorem sampleConfig_built :
    Token.Verifier.ofKeyMap Sample.primaryKeyMap sampleConfig.settings.issuer sampleConfig.settings.clockSkew =
      .ok sampleConfig.verifier :=
  Token.ofKeyMap_primary _ _

def emptySession : Session Script :=
  .start .empty .empty

/-- A change of a membership with a forged token. -/
def forgery : Request :=
  ⟨"PUT", "/api/v1/groups/staff/users/ann", [("Authorization", Bytes.ofText "Bearer forged")]⟩

theorem forgery_is_kept_out :
    Unauthenticated sampleConfig emptySession forgery ∧
      ((Moment.request forgery .none).play sampleConfig Script.service emptySession).2.store =
        Script.empty ∧
      ∃ r, ((Moment.request forgery .none).play sampleConfig Script.service emptySession).1 = some r ∧
        r.status = 401 := by
  have header : forgery.header? "authorization" =
      some (Bytes.ofText "Bearer " ++ Bytes.ofText "forged") := by decide +kernel
  have short : ¬ Token.maxTokenSize < (Bytes.ofText "forged").length := by decide +kernel
  have uncut : Token.Parts.ofToken? (Bytes.ofText "forged") = none := by decide +kernel
  have lacks : Unauthenticated sampleConfig emptySession forgery := by
    refine .rejected (Bytes.ofText "forged") .malformed header ?_
    rw [Verifier.verify, if_neg short, uncut]
  have path : Route.ofPath? forgery.path = some (.membership "staff" "ann") := by decide +kernel
  obtain ⟨kept, r, response, -, refused⟩ :=
    (unauthenticated_is_kept_out sampleConfig Script.service emptySession
      (.request forgery .none)).1 forgery rfl lacks
  exact ⟨lacks, kept, r, response, (refused _ path rfl).1⟩

end DirectoryGateway.Gateway
