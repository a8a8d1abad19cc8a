import DirectoryGateway.Proofs.Gateway.Unlisted
import DirectoryGateway.Proofs.Listing.Kinds
import DirectoryGateway.Proofs.Telemetry.Tally
import DirectoryGateway.Remote.Service

/-!
# What a history enters into the ledger

A request that is served enters what comes with the provider's replies, and then itself, with the status of its response: one note
of a request for each exchange, in the order in which they were completed, and no other.
-/

namespace DirectoryGateway.Telemetry

def Note.isRequest : Note → Bool
  | .request .. => true
  | _ => false

theorem filter_isRequest_eq_nil {notes : List Note} (h : ∀ n ∈ notes, n.isRequest = false) :
    notes.filter Note.isRequest = [] := by
  rw [List.filter_eq_nil_iff]
  intro n hn
  rw [h n hn]
  exact Bool.false_ne_true

/-- A ledger after some more notes. -/
def Ledger.Gains (l l' : Ledger) (more : List Note) : Prop :=
  ∀ notes, Entered notes l → Entered (notes ++ more) l'

namespace Ledger.Gains

variable {l l' l'' : Ledger} {more more' : List Note}

theorem refl (l : Ledger) : l.Gains l [] := by
  intro notes h
  rw [List.append_nil]
  exact h

theorem settle (l : Ledger) : l.Gains l.settle [] := by
  intro notes h
  rw [List.append_nil]
  exact h.settle

theorem noteAll (l : Ledger) (more : List Note) : l.Gains (l.noteAll more) more :=
  fun _ h => h.noteAll more

theorem trans (h : l.Gains l' more) (h' : l'.Gains l'' more') : l.Gains l'' (more ++ more') := by
  intro notes entered
  rw [← List.append_assoc]
  exact h' _ (h _ entered)

end Ledger.Gains

end DirectoryGateway.Telemetry

namespace DirectoryGateway.Provider

open DirectoryGateway.Telemetry (Note)

variable {σ : Type}

/-- The replies of a provider carry notes of calls and pages, but none of requests to the gateway. -/
structure Service.Modest (service : Service σ) : Prop where
  pages : ∀ c request store, ∀ n ∈ (service.pages c request store).1.notes, Note.isRequest n = false
  user : ∀ pool username store, ∀ n ∈ (service.user pool username store).1.notes, Note.isRequest n = false
  addMember : ∀ pool username group store,
    ∀ n ∈ (service.addMember pool username group store).1.notes, Note.isRequest n = false
  removeMember : ∀ pool username group store,
    ∀ n ∈ (service.removeMember pool username group store).1.notes, Note.isRequest n = false

theorem Script.change_notes (operation : Operation) (edit : List (String × String) → List (String × String))
    (s : Script) : (s.change operation edit).1.notes = [] := by
  unfold Script.change
  dsimp only
  split <;> rfl

theorem Script.modest : Script.service.Modest where
  pages c request store n hn := by
    have hnone := Listing.pages_unnoted c request store
    rw [hnone] at hn
    cases hn
  user pool username store n hn := by cases hn
  addMember pool username group store n hn := by
    have hnone : (Script.service.addMember pool username group store).1.notes = [] :=
      Script.change_notes _ _ _
    rw [hnone] at hn
    cases hn
  removeMember pool username group store n hn := by
    have hnone : (Script.service.removeMember pool username group store).1.notes = [] :=
      Script.change_notes _ _ _
    rw [hnone] at hn
    cases hn

end DirectoryGateway.Provider

namespace DirectoryGateway.Remote

open DirectoryGateway.Telemetry (Note)

theorem callNote_isRequest {α : Type} (operation : Provider.Operation) (result : Except Refusal α) :
    (callNote operation result).isRequest = false := by
  cases result <;> rfl

theorem modest_call {α : Type} (read : Json.Raw → Option α) (request : Sent) (l : Line) :
    ∀ n ∈ (l.call read request).1.notes, Note.isRequest n = false := by
  intro n hn
  rw [List.mem_singleton.mp hn]
  exact callNote_isRequest _ _

theorem modest (pageSize : Int) : (service pageSize).Modest where
  pages c request store := by
    cases c with
    | groups => exact modest_call _ _ store
    | users => exact modest_call _ _ store
    | members => exact modest_call _ _ store
  user _ _ store := modest_call _ _ store
  addMember _ _ _ store := modest_call _ _ store
  removeMember _ _ _ store := modest_call _ _ store

end DirectoryGateway.Remote

namespace DirectoryGateway.Gateway

open DirectoryGateway.Provider
open DirectoryGateway.Telemetry

variable {σ : Type} {g : Config} {service : Service σ} {s s' : Session σ} {q : Request} {i : Interrupts}

/-! ### Answers -/

/-- Between two sessions some notes were entered, but none of requests. -/
def Unrequested (s s' : Session σ) : Prop :=
  ∃ more, (∀ n ∈ more, Note.isRequest n = false) ∧ s.ledger.Gains s'.ledger more

theorem unrequested_of_ledger (h : s'.ledger = s.ledger) : Unrequested s s' := by
  refine ⟨[], by simp, ?_⟩
  rw [h]
  exact .refl _

theorem unrequested_serveListing {α : Type} (item : α → Json) {run : Listing.Run σ α}
    (own : ∀ n ∈ run.notes, Note.isRequest n = false) (s : Session σ) :
    Unrequested s (serveListing item run s).2 := by
  refine ⟨run.notes, own, ?_⟩
  unfold serveListing
  dsimp only
  split <;> exact .noteAll _ _

theorem unrequested_serveCall {α : Type} (answer : Outcome α → Response) {called : Reply α × σ}
    (own : ∀ n ∈ called.1.notes, Note.isRequest n = false) (s : Session σ) :
    Unrequested s (serveCall answer called s).2 := by
  unfold serveCall
  dsimp only
  split
  · exact ⟨called.1.notes, own, .noteAll _ _⟩
  · exact unrequested_of_ledger rfl

theorem notes_gather {α : Type} {fetch : PageCall σ α}
    (replies : ∀ request store, ∀ n ∈ (fetch request store).1.notes, Note.isRequest n = false)
    (pace : Listing.Pace) (operation : String) (pagesLeft : Nat) (request : ListingRequest)
    (schedule : Listing.Backoff) (store : σ) (now : Nat) :
    ∀ n ∈ (Listing.gather fetch pace operation pagesLeft request schedule store now).notes,
      Note.isRequest n = false :=
  Listing.Setup.notes_run ⟨fetch, pace, operation, request, schedule, store, now⟩
    (P := fun n => n.isRequest = false) rfl rfl replies _

theorem unrequested_serveProtected (modest : service.Modest) (claims : Token.Claims) (method : String)
    (route : Route) (s : Session σ) : Unrequested s (serveProtected g service i claims method route s).2 := by
  cases route with
  | groups => exact unrequested_serveListing _ (notes_gather (modest.pages .groups) _ _ _ _ _ _ _) s
  | users => exact unrequested_serveListing _ (notes_gather (modest.pages .users) _ _ _ _ _ _ _) s
  | members segment =>
    rw [serveProtected, serveMembers]
    split
    · exact unrequested_of_ledger rfl
    · split
      · exact unrequested_of_ledger rfl
      · exact unrequested_serveListing _ (notes_gather (modest.pages .members) _ _ _ _ _ _ _) s
  | user segment =>
    rw [serveProtected, serveUser]
    split
    · exact unrequested_of_ledger rfl
    · split
      · exact unrequested_of_ledger rfl
      · exact unrequested_serveCall _ (modest.user _ _ _) s
  | membership group username =>
    rw [serveProtected, serveChange]
    split
    · exact unrequested_of_ledger rfl
    · exact unrequested_of_ledger rfl
    · split
      · exact unrequested_of_ledger rfl
      · dsimp only
        split
        · exact unrequested_serveCall _ (modest.addMember _ _ _ _) s
        · exact unrequested_serveCall _ (modest.removeMember _ _ _ _) s
  | _ => exact unrequested_of_ledger rfl

theorem unrequested_afterPublic (route : Route) (s : Session σ) : Unrequested s (afterPublic route s) := by
  unfold afterPublic
  split
  · exact ⟨[], by simp, .settle _⟩
  · exact unrequested_of_ledger rfl

theorem unrequested_respond (modest : service.Modest) (g : Config) (q : Request) (i : Interrupts) (s : Session σ) :
    Unrequested s (respond g service q i s).2 := by
  obtain ⟨r, served, -⟩ := respond_cases g service q i s
  generalize (respond g service q i s).2 = s' at served
  cases served with
  | admitted route claims path guarded accepted allowed => exact unrequested_serveProtected modest _ _ _ _
  | open_ route path unguarded allowed => exact unrequested_afterPublic route s
  | _ => exact unrequested_of_ledger rfl

/-! ### Exchanges -/

/-- A request with the response that completed it, and the time between them. -/
structure Exchange where
  request : Request
  response : Response
  nanos : Nat

namespace Exchange

def note (x : Exchange) : Note :=
  .request x.request.method x.request.path x.response.status x.nanos

def counter (x : Exchange) : Counter :=
  .requests x.request.method (.ofPath x.request.path) x.response.status

end Exchange

/-- What a moment completes; what cannot be read as a request begins no exchange. -/
def exchange? (g : Config) (service : Service σ) (s : Session σ) (m : Moment) : Option Exchange :=
  match m.served?, m.play g service s with
  | some q, (some r, s') => some ⟨q, r, 1000000 * (s'.now - s.now)⟩
  | _, _ => none

/-- The exchanges of a history, in the order in which they were completed. -/
def exchanges (g : Config) (service : Service σ) (s : Session σ) : List Moment → List Exchange
  | [] => []
  | m :: ms => (exchange? g service s m).toList ++ exchanges g service (m.play g service s).2 ms

theorem serve_ledger (g : Config) (service : Service σ) (q : Request) (i : Interrupts) (s : Session σ) :
    (serve g service q i s).2.ledger = (respond g service q i s).2.ledger.noteAll
      [.request q.method q.path (serve g service q i s).1.status
        (1000000 * ((serve g service q i s).2.now - s.now))] := by
  rw [serve_now, serve_response]
  simp only [serve]
  rfl

theorem serve_gains (modest : service.Modest) (g : Config) (q : Request) (i : Interrupts) (s : Session σ) :
    ∃ more, (∀ n ∈ more, Note.isRequest n = false) ∧
      s.ledger.Gains (serve g service q i s).2.ledger
        (more ++ [.request q.method q.path (serve g service q i s).1.status
          (1000000 * ((serve g service q i s).2.now - s.now))]) := by
  obtain ⟨more, own, gains⟩ := unrequested_respond modest g q i s
  refine ⟨more, own, gains.trans ?_⟩
  rw [serve_ledger]
  apply Ledger.Gains.noteAll

theorem play_exchange (g : Config) (service : Service σ) (s : Session σ) {m : Moment} (asked : m.served? = some q) :
    ∃ i r, m.play g service s = (some r, (serve g service q i s).2) ∧
      r.status = (serve g service q i s).1.status := by
  cases m with
  | request q' i =>
    cases asked
    refine ⟨i, (serve g service q i s).1, ?_, rfl⟩
    simp only [Moment.play]
  | message q' i =>
    have read : q'.received? = some q := asked
    refine ⟨i, (serve g service q i s).1.sent q.method, ?_, status_sent _ _⟩
    simp only [Moment.play, receive, read]
  | drain => cases asked
  | finish => cases asked

theorem ledger_unserved (g : Config) (service : Service σ) (s : Session σ) {m : Moment} (unasked : m.served? = none) :
    (m.play g service s).2.ledger = s.ledger := by
  cases m with
  | request q' i => cases unasked
  | message q' i =>
    have unread : q'.received? = none := unasked
    simp only [Moment.play, receive, unread]
  | drain => rfl
  | finish => rfl

/-- A moment enters the exchange that it completes, and what comes with it. -/
theorem play_gains (modest : service.Modest) (g : Config) (s : Session σ) (m : Moment) :
    ∃ more, s.ledger.Gains (m.play g service s).2.ledger more ∧
      more.filter Note.isRequest = (exchange? g service s m).toList.map Exchange.note := by
  cases asked : m.served? with
  | some q =>
    obtain ⟨i, r, hplay, hstatus⟩ := play_exchange g service s asked
    obtain ⟨more, own, gains⟩ := serve_gains modest g q i s
    refine ⟨_, by rw [hplay]; exact gains, ?_⟩
    · have hexchange : exchange? g service s m =
          some ⟨q, r, 1000000 * ((serve g service q i s).2.now - s.now)⟩ := by
        rw [exchange?, asked, hplay]
      rw [List.filter_append, filter_isRequest_eq_nil own, hexchange, List.nil_append, ← hstatus]
      rfl
  | none =>
    have hexchange : exchange? g service s m = none := by
      rw [exchange?, asked]
    refine ⟨[], ?_, ?_⟩
    · rw [ledger_unserved g service s asked]
      exact .refl _
    · rw [hexchange]
      rfl

theorem after_cons (g : Config) (service : Service σ) (s : Session σ) (m : Moment) (ms : List Moment) :
    after g service s (m :: ms) = after g service (m.play g service s).2 ms := rfl

/-- A history enters its exchanges, and no other requests. -/
theorem after_gains (modest : service.Modest) (g : Config) (s : Session σ) (ms : List Moment) :
    ∃ more, s.ledger.Gains (after g service s ms).ledger more ∧
      more.filter Note.isRequest = (exchanges g service s ms).map Exchange.note := by
  induction ms generalizing s with
  | nil => exact ⟨[], .refl _, rfl⟩
  | cons m ms ih =>
    obtain ⟨first, gains, hfirst⟩ := play_gains modest g s m
    obtain ⟨rest, gains', hrest⟩ := ih (m.play g service s).2
    refine ⟨first ++ rest, ?_, ?_⟩
    · rw [after_cons]
      exact gains.trans gains'
    · rw [List.filter_append, hfirst, hrest, exchanges, List.map_append]

/-- Every request is completed by one response, and nothing else is. -/
theorem exchanges_requests (g : Config) (service : Service σ) (s : Session σ) (ms : List Moment) :
    (exchanges g service s ms).map Exchange.request = ms.filterMap Moment.served? := by
  induction ms generalizing s with
  | nil => rfl
  | cons m ms ih =>
    rw [exchanges, List.map_append, ih, List.filterMap_cons]
    cases asked : m.served? with
    | some q =>
      obtain ⟨i, r, hplay, -⟩ := play_exchange g service s asked
      have hexchange : exchange? g service s m =
          some ⟨q, r, 1000000 * ((serve g service q i s).2.now - s.now)⟩ := by
        rw [exchange?, asked, hplay]
      rw [hexchange]
      rfl
    | none =>
      have hexchange : exchange? g service s m = none := by
        rw [exchange?, asked]
      rw [hexchange]
      rfl

end DirectoryGateway.Gateway
