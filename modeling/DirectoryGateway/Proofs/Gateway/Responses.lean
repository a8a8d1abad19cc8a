import DirectoryGateway.Proofs.Gateway.Serving

/-!
# How responses are made

Whatever a session is asked, its response is made in one of a few ways. What holds of the responses that are made in these ways
holds of them all.
-/

namespace DirectoryGateway.Gateway

open DirectoryGateway.Provider
open DirectoryGateway.Token (Claims)

variable {σ : Type} {g : Config} {service : Service σ} {s : Session σ} {q : Request} {i : Interrupts}

inductive Made : Response → Prop where
  | bare (status : Nat) (h : status ∈ [204, 404, 405, 408]) : Made (.ofStatus status)
  | json (status : Nat) (h : status ∈ [200, 503]) (value : Json) : Made (.ofJson status value)
  | text (status : Nat) (h : status ∈ [200, 400]) (content : String) : Made (.ofText status content)
  | problem (p : Problem) : Made p.response
  | allow {r : Response} (h : Made r) (methods : String) : Made (r.withHeader "allow" methods)

/-! ### What is served -/

theorem made_serveListing {α : Type} (item : α → Json) (run : Listing.Run σ α) (s : Session σ) :
    Made (serveListing item run s).1 := by
  unfold serveListing
  cases run.result? with
  | none => exact .bare 408 (by decide)
  | some result =>
    cases result with
    | ok items => exact .json 200 (by decide) _
    | error incomplete => exact .problem _

theorem made_serveCall {α : Type} {answer : Outcome α → Response} (made : ∀ o, Made (answer o))
    (called : Reply α × σ) (s : Session σ) : Made (serveCall answer called s).1 := by
  unfold serveCall
  dsimp only
  split
  · exact made _
  · exact .bare 408 (by decide)

theorem made_userAnswer (o : Outcome Directory.User) : Made (userAnswer o) := by
  cases o with
  | ok user => exact .json 200 (by decide) _
  | error failure => exact .problem _

theorem made_changeAnswer (o : Outcome Unit) : Made (changeAnswer o) := by
  cases o with
  | ok done => exact .bare 204 (by decide)
  | error failure => exact .problem _

theorem made_serveMembers (segment : String) : Made (serveMembers g service i segment s).1 := by
  unfold serveMembers
  split
  · exact .text 400 (by decide) _
  · split
    · exact .problem _
    · exact made_serveListing _ _ _

theorem made_serveUser (segment : String) : Made (serveUser g service segment s).1 := by
  unfold serveUser
  split
  · exact .text 400 (by decide) _
  · split
    · exact .problem _
    · exact made_serveCall made_userAnswer _ _

theorem made_serveChange (claims : Claims) (method groupSegment userSegment : String) :
    Made (serveChange g service claims method groupSegment userSegment s).1 := by
  unfold serveChange
  split
  · exact .text 400 (by decide) _
  · exact .text 400 (by decide) _
  · split
    · exact .problem _
    · exact made_serveCall made_changeAnswer _ _

theorem made_serveProtected (claims : Claims) (method : String) (route : Route) :
    Made (serveProtected g service i claims method route s).1 := by
  cases route with
  | me => exact .json 200 (by decide) _
  | groups => exact made_serveListing _ _ _
  | users => exact made_serveListing _ _ _
  | members group => exact made_serveMembers group
  | user username => exact made_serveUser username
  | membership group username => exact made_serveChange claims method group username
  | _ => exact .bare 404 (by decide)

theorem made_publicAnswer (route : Route) : Made (publicAnswer g s route) := by
  cases route with
  | health => exact .json 200 (by decide) _
  | ready =>
    refine .json _ ?_ _
    split <;> decide
  | metrics => exact .text 200 (by decide) _
  | _ => exact .bare 404 (by decide)

theorem Served.made {r : Response} {s' : Session σ} (h : Served g service q i s r s') : Made r := by
  cases h with
  | unknown path => exact .bare 404 (by decide)
  | refused route p path guarded fault =>
    split
    · exact .problem p
    · exact .allow (.problem p) _
  | admitted route claims path guarded accepted allowed => exact made_serveProtected claims q.method route
  | open_ route path unguarded allowed => exact made_publicAnswer route
  | notAllowed route path accepted method => exact .allow (.bare 405 (by decide)) _

/-! ### Statuses -/

/-- The statuses that responses have. -/
def statuses : List Nat :=
  [200, 204, 400, 401, 403, 404, 405, 408, 409, 429, 503]

theorem Problem.status_response (p : Problem) : p.response.status = p.status := by
  cases p <;> rfl

theorem Problem.status_mem (p : Problem) : p.status ∈ statuses := by
  cases p <;> simp [Problem.status, statuses]

theorem Made.status_mem {r : Response} (h : Made r) : r.status ∈ statuses := by
  induction h with
  | bare status h =>
    have hall : ∀ status ∈ [204, 404, 405, 408], status ∈ statuses := by decide
    exact hall status h
  | json status h value =>
    have hall : ∀ status ∈ [200, 503], status ∈ statuses := by decide
    exact hall status h
  | text status h content =>
    have hall : ∀ status ∈ [200, 400], status ∈ statuses := by decide
    exact hall status h
  | problem p =>
    rw [p.status_response]
    exact p.status_mem
  | allow h methods ih => exact ih

theorem respond_status_mem (g : Config) (service : Service σ) (q : Request) (i : Interrupts) (s : Session σ) :
    (respond g service q i s).1.status ∈ statuses := by
  obtain ⟨r, served, hhead⟩ := respond_cases g service q i s
  have hstatus : (respond g service q i s).1.status = r.status := congrArg Prod.fst hhead
  rw [hstatus]
  exact served.made.status_mem

end DirectoryGateway.Gateway
