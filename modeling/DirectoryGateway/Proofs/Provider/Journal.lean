import DirectoryGateway.Listing.Kind
import DirectoryGateway.Proofs.Listing.Deadline
import DirectoryGateway.Proofs.Listing.Requests
import DirectoryGateway.Proofs.Provider.Redaction

/-!
# Providers that keep a journal

A provider with a journal writes down every call, with all that the call is given, and replies as it does without one. After a
listing the journal goes on with the requests of the listing.
-/

namespace DirectoryGateway.Provider

/-! ### Calls -/

/-- A call, with what the provider is given. -/
inductive Call where
  | page (source : Source) (request : ListingRequest)
  | user (pool username : String)
  | addMember (pool username group : String)
  | removeMember (pool username group : String)
  deriving Repr, DecidableEq

namespace Call

def group? : Call → Option String
  | .page _ request => request.group
  | .user _ _ => none
  | .addMember _ _ group => some group
  | .removeMember _ _ group => some group

def username? : Call → Option String
  | .page _ _ => none
  | .user _ username => some username
  | .addMember _ username _ => some username
  | .removeMember _ username _ => some username

end Call

/-! ### Journals -/

section

variable {σ ρ : Type}

def entered (call : Call) (act : σ → ρ × σ) (s : σ × List Call) : ρ × σ × List Call :=
  ((act s.1).1, (act s.1).2, s.2 ++ [call])

def Service.journaled (service : Service σ) : Service (σ × List Call) where
  groups q := entered (.page .groups q) (service.groups q)
  users q := entered (.page .users q) (service.users q)
  members q := entered (.page .members q) (service.members q)
  user pool username := entered (.user pool username) (service.user pool username)
  addMember pool username group :=
    entered (.addMember pool username group) (service.addMember pool username group)
  removeMember pool username group :=
    entered (.removeMember pool username group) (service.removeMember pool username group)
  pagesLeft s := service.pagesLeft s.1

theorem journaled_pages (service : Service σ) (c : Source) (q : ListingRequest) :
    service.journaled.pages c q = entered (.page c q) (service.pages c q) := by
  cases c <;> rfl

theorem entered_alike {α : Type} (call : Call) (act : σ → Reply α × σ) {s : σ × List Call} {t : σ}
    (h : s.1 = t) : CallsAlike (fun s t => s.1 = t) (entered call act s) (act t) := by
  subst h
  exact ⟨rfl, rfl⟩

/-- A journal changes nothing but itself. -/
theorem journaled_alike (service : Service σ) : service.journaled.Alike (fun s t => s.1 = t) service where
  groups _ _ _ h := entered_alike _ _ h
  users _ _ _ h := entered_alike _ _ h
  members _ _ _ h := entered_alike _ _ h
  user _ _ _ _ h := entered_alike _ _ h
  addMember _ _ _ _ _ h := entered_alike _ _ h
  removeMember _ _ _ _ _ h := entered_alike _ _ h
  pagesLeft _ _ h := congrArg service.pagesLeft h

end

end DirectoryGateway.Provider

namespace DirectoryGateway.Listing

open DirectoryGateway.Provider

variable {σ α : Type}

/-! ### Listings -/

theorem journal_storeAfter (service : Service σ) (c : Source) (st : σ × List Call)
    (qs : List ListingRequest) :
    (storeAfter (service.journaled.pages c) st qs).2 = st.2 ++ qs.map (Call.page c) := by
  induction qs generalizing st with
  | nil => simp [storeAfter]
  | cons q qs ih =>
    have hcons : storeAfter (service.journaled.pages c) st (q :: qs) =
        storeAfter (service.journaled.pages c) (service.journaled.pages c q st).2 qs := rfl
    rw [hcons, ih, journaled_pages]
    simp [entered]

/-- The first turn of a listing that is not cancelled yet makes the first call. -/
theorem requests_run_one (s : Setup σ α) (uncancelled : s.pace.cancelBy s.now = none) :
    (s.run 1).requests = [s.traversal.request] := by
  have hstart : (s.run 0).walk.phase = .checking := rfl
  have hpace : s.pace.cancelBy (s.run 0).now = none := uncancelled
  rw [s.run_succ 0, Run.turn_checking rfl hstart, hpace]
  dsimp only
  rw [Run.move_requests, Walk.step_clear _ hstart]
  rfl

theorem requests_addressed (s : Setup σ α) (n : Nat) :
    ∀ q ∈ (s.run n).requests, q.pool = s.request.pool ∧ q.group = s.request.group := by
  obtain ⟨os, hos⟩ := heard_run s n
  rw [hos.asks.1]
  exact asked_addressed _ _

/-- What a listing of a pool leaves in the journal: its requests, all for the same collection, and the first without a cursor. -/
theorem Pool.list_journal (p : Pool) (kind : Kind) (service : Service σ) (pace : Pace)
    (st : σ × List Call) (now : Nat) :
    ∃ qs : List ListingRequest,
      (p.list kind service.journaled pace st now).store.2 = st.2 ++ qs.map (Call.page kind.source) ∧
      (∀ q ∈ qs, q.group = (kind.request p.id).group) ∧
      (pace.cancelBy now = none → qs.head? = some (kind.request p.id)) := by
  let s : Setup (σ × List Call) kind.source.Record :=
    ⟨service.journaled.pages kind.source, pace, kind.source.operation.label, kind.request p.id, p.backoff, st, now⟩
  obtain ⟨n, hn⟩ : ∃ n, turnsOfCalls (service.pagesLeft st.1 + p.backoff.length + 1) = n + 2 :=
    ⟨3 * (service.pagesLeft st.1 + p.backoff.length) + 1, by rw [turnsOfCalls]; omega⟩
  have hrun : p.list kind service.journaled pace st now = s.run (n + 2) := by
    rw [← hn]
    rfl
  refine ⟨(s.run (n + 1)).requests, ?_, ?_, ?_⟩
  · rw [hrun, s.store_run_succ]
    exact journal_storeAfter service kind.source st _
  · intro q hq
    exact (requests_addressed s (n + 1) q hq).2
  · intro uncancelled
    obtain ⟨more, hmore⟩ := s.requests_run (n := 1) (m := n + 1) (by omega)
    have hfirst : s.traversal.request = kind.request p.id := by
      cases kind <;> rfl
    rw [← hmore, requests_run_one s uncancelled, hfirst]
    rfl

end DirectoryGateway.Listing
