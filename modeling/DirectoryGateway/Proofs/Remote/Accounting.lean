import DirectoryGateway.Proofs.Listing.Counters
import DirectoryGateway.Proofs.Provider.Journal
import DirectoryGateway.Proofs.Telemetry.Durations
import DirectoryGateway.Remote.Service

/-!
# Calls that are accounted for

Every call of the pool service that comes to an end is counted once, under its operation and with what came of it. A failure
names the operation and the code that the service gave, and this code alone decides its kind and whether a listing waits for it.
-/

namespace DirectoryGateway.Provider

open DirectoryGateway.Telemetry (Counter)

/-! ### Outcomes of calls -/

theorem Operation.label_inj {o o' : Operation} (h : o.label = o'.label) : o = o' := by
  revert h
  cases o <;> cases o' <;> decide

theorem FailureKind.label_ne_success (k : FailureKind) : k.label ≠ "success" := by
  cases k <;> decide

/-- The codes of the service that say it was asked too often. -/
def throttlingCodes : List String :=
  ["TooManyRequestsException", "ThrottlingException"]

theorem classify_throttled_iff (code : Option String) :
    classify code = .throttled ↔ ∃ c ∈ throttlingCodes, code = some c := by
  constructor
  · intro h
    cases code with
    | none => cases h
    | some c =>
      refine ⟨c, ?_, rfl⟩
      rw [classify] at h
      cases hlookup : vendorCodes.lookup c with
      | none =>
        rw [hlookup] at h
        cases h
      | some kind =>
        rw [hlookup, Option.getD_some] at h
        subst h
        obtain ⟨before, after, hsplit, -⟩ := List.lookup_eq_some_iff.mp hlookup
        have hmem : (c, FailureKind.throttled) ∈ vendorCodes := by
          rw [hsplit]
          exact List.mem_append_right _ List.mem_cons_self
        simpa [vendorCodes, throttlingCodes] using hmem
  · rintro ⟨c, hc, rfl⟩
    revert c
    decide

/-- What a call is counted as: a success, or the kind of its failure. -/
def outcomeLabel {α : Type} : Outcome α → String
  | .ok _ => "success"
  | .error f => f.kind.label

theorem outcomeLabel_eq_success {α : Type} (o : Outcome α) : outcomeLabel o = "success" ↔ ∃ v, o = .ok v := by
  cases o with
  | ok v => exact ⟨fun _ => ⟨v, rfl⟩, fun _ => rfl⟩
  | error f =>
    constructor
    · intro h
      exact absurd h f.kind.label_ne_success
    · rintro ⟨v, hv⟩
      cases hv

/-- The counters of an operation's calls, whatever came of them. -/
def callsOf (operation : Operation) : Counter → Bool
  | .providerCalls name _ => name = operation.label
  | _ => false

theorem callsOf_together (operation : Operation) (n : Telemetry.Note) :
    callsOf operation n.counter = true ↔ n.timing?.map Prod.fst = some (.providerCalls operation.label) := by
  cases n <;> simp [Telemetry.Note.counter, Telemetry.Note.timing?, callsOf]

/-! ### Calls -/

namespace Call

def operation : Call → Operation
  | .page source _ => source.operation
  | .user _ _ => .getUser
  | .addMember _ _ _ => .addMember
  | .removeMember _ _ _ => .removeMember

end Call

/-- A reply without what it brings. -/
def Reply.bare {α : Type} (r : Reply α) : Reply Unit :=
  { r with outcome := r.outcome.map fun _ => () }

theorem Reply.outcomeLabel_bare {α : Type} (r : Reply α) : outcomeLabel r.bare.outcome = outcomeLabel r.outcome := by
  rw [bare]
  cases r.outcome <;> rfl

def Call.perform {σ : Type} (service : Service σ) : Call → σ → Reply Unit × σ
  | .page source request, s => ((service.pages source request s).1.bare, (service.pages source request s).2)
  | .user pool username, s => ((service.user pool username s).1.bare, (service.user pool username s).2)
  | .addMember pool username group, s => service.addMember pool username group s
  | .removeMember pool username group, s => service.removeMember pool username group s

end DirectoryGateway.Provider

namespace DirectoryGateway.Listing

open DirectoryGateway.Provider

/-- A listing waits after a failure if it is worth a wait and a delay is left. -/
theorem Traversal.advance_backoff_iff {α : Type} (t : Traversal α) (f : Failure) :
    (∃ delay, (t.advance (.error f)).2 = .backoff delay) ↔ f.retryable = true ∧ t.schedule ≠ [] := by
  obtain ⟨r, hr, h⟩ := t.advance_cases (.error f)
  rw [hr]
  cases h with
  | throttle failure delay rest retryable left => simp [retryable, left]
  | exhausted failure retryable left => simp [left]
  | hard failure retryable => simp [retryable]

end DirectoryGateway.Listing

namespace DirectoryGateway.Remote

open DirectoryGateway.Json (Raw)
open DirectoryGateway.Listing (Reticent Traversal)
open DirectoryGateway.Provider
open DirectoryGateway.Telemetry (Counter Ledger Note)

/-! ### One call -/

/-- The code that an answer to an operation gives. -/
def codeOf (operation : Operation) (answer : Option Answer) : Option String :=
  (answer.bind Answer.received?).bind fun a => if a.isSuccess then none else (readRefusal operation a).code

/-- A reply that is observed once, under its operation, and a failure that tells what the answer says. -/
structure Accounted {α : Type} (operation : Operation) (answer : Option Answer) (reply : Reply α) : Prop where
  noted : reply.notes = [.providerCall operation.label (outcomeLabel reply.outcome) 0]
  failed : ∀ f, reply.outcome = .error f →
    f.operation = operation.label ∧ f.code = codeOf operation answer ∧ f.kind = classify f.code

theorem code_readAnswer {α : Type} {operation : Operation} {read : Raw → Option α} {answer : Option Answer}
    {refusal : Refusal} (h : readAnswer operation read answer = .error refusal) :
    refusal.code = codeOf operation answer := by
  rw [codeOf]
  rw [readAnswer] at h
  cases hreceived : answer.bind Answer.received? with
  | none =>
    rw [hreceived] at h
    cases h
    rfl
  | some a =>
    simp only [hreceived, Option.bind_some] at h ⊢
    cases hsuccess : a.isSuccess with
    | true =>
      rw [hsuccess, if_pos rfl] at h
      rw [if_pos rfl]
      split at h
      · cases h
      · cases h
        rfl
    | false =>
      rw [hsuccess, if_neg Bool.false_ne_true] at h
      rw [if_neg Bool.false_ne_true]
      cases h
      rfl

theorem call_accounted {α : Type} (read : Raw → Option α) (request : Sent) (l : Line) :
    Accounted request.operation (l.answers.head?.bind id) (l.call read request).1 := by
  rw [Line.call, Line.exchange]
  cases hread : readAnswer request.operation read (l.answers.head?.bind id) with
  | ok value => exact ⟨rfl, fun f hf => by cases hf⟩
  | error refusal =>
    refine ⟨rfl, ?_⟩
    intro f hf
    cases hf
    exact ⟨rfl, code_readAnswer hread, rfl⟩

/-- Of the pages that the service hands out nothing is observed but the calls. -/
theorem reticent_pages (pageSize : Int) (c : Source) : Reticent ((service pageSize).pages c) := by
  intro q l note hnote
  have hnoted : ((service pageSize).pages c q l).1.notes =
      [.providerCall c.operation.label (outcomeLabel ((service pageSize).pages c q l).1.outcome) 0] := by
    cases c with
    | groups => exact (call_accounted _ (pageRequest pageSize .listGroups q) l).noted
    | users => exact (call_accounted _ (pageRequest pageSize .listUsers q) l).noted
    | members => exact (call_accounted _ (pageRequest pageSize .listMembers q) l).noted
  rw [hnoted] at hnote
  exact ⟨_, _, _, List.mem_singleton.mp hnote⟩

theorem Accounted.bare {α : Type} {operation : Operation} {answer : Option Answer} {reply : Reply α}
    (h : Accounted operation answer reply) : Accounted operation answer reply.bare := by
  refine ⟨?_, ?_⟩
  · rw [Reply.outcomeLabel_bare]
    exact h.noted
  · intro f hf
    apply h.failed f
    rw [Reply.bare] at hf
    cases houtcome : reply.outcome with
    | ok value =>
      rw [houtcome] at hf
      cases hf
    | error f' =>
      rw [houtcome] at hf
      cases hf
      rfl

theorem perform_accounted (pageSize : Int) (call : Call) (l : Line) :
    Accounted call.operation (l.answers.head?.bind id) (call.perform (service pageSize) l).1 := by
  cases call with
  | page source request =>
    cases source with
    | groups => exact (call_accounted _ (pageRequest pageSize .listGroups request) l).bare
    | users => exact (call_accounted _ (pageRequest pageSize .listUsers request) l).bare
    | members => exact (call_accounted _ (pageRequest pageSize .listMembers request) l).bare
  | user pool username => exact (call_accounted _ (userRequest pool username) l).bare
  | addMember pool username group =>
    exact call_accounted _ (changeRequest .addMember pool username group) l
  | removeMember pool username group =>
    exact call_accounted _ (changeRequest .removeMember pool username group) l

/-! ### Many calls -/

/-- A call that came to its end, with the answer to it and the reply. -/
structure Completed where
  call : Call
  answer : Option Answer
  reply : Reply Unit

/-- Calls on the pool service, one after the other. -/
def completed (pageSize : Int) : List Call → Line → List Completed
  | [], _ => []
  | call :: calls, l =>
    ⟨call, l.answers.head?.bind id, (call.perform (service pageSize) l).1⟩ ::
      completed pageSize calls (call.perform (service pageSize) l).2

def observed (done : List Completed) : List Note :=
  done.flatMap fun c => c.reply.notes

variable {pageSize : Int}

theorem calls_completed (calls : List Call) (l : Line) :
    (completed pageSize calls l).map Completed.call = calls := by
  induction calls generalizing l with
  | nil => rfl
  | cons call calls ih => rw [completed, List.map_cons, ih]

theorem accounted_completed (calls : List Call) (l : Line) :
    ∀ c ∈ completed pageSize calls l, Accounted c.call.operation c.answer c.reply := by
  induction calls generalizing l with
  | nil => exact fun c hc => absurd hc List.not_mem_nil
  | cons call calls ih =>
    intro c hc
    rcases List.mem_cons.mp hc with rfl | hc
    · exact perform_accounted pageSize call l
    · exact ih _ c hc

/-- Each call is observed once, so notes are counted call by call. -/
theorem countP_observed {done : List Completed}
    (accounted : ∀ c ∈ done, Accounted c.call.operation c.answer c.reply) (p : Note → Bool) :
    (observed done).countP p =
      done.countP fun c => p (.providerCall c.call.operation.label (outcomeLabel c.reply.outcome) 0) := by
  induction done with
  | nil => rfl
  | cons c done ih =>
    have hfirst := (accounted c List.mem_cons_self).noted
    have hrest := ih fun d hd => accounted d (List.mem_cons_of_mem _ hd)
    rw [observed] at hrest ⊢
    rw [List.flatMap_cons, List.countP_append, hrest, hfirst, List.countP_singleton, List.countP_cons]
    omega

/-- Every call of the pool service that comes to an end is counted once, under its own operation and as what came of it: a
success, or the kind of its failure. Counters and timers go up by the calls. A failure names its operation and the code that
came with the answer, and a listing that has a delay left waits for it exactly if this is one of the two throttling codes. -/
theorem provider_calls_are_accounted (pageSize : Int) (calls : List Call) (l : Line) (before : List Note) :
    let done := completed pageSize calls l
    let earlier := Ledger.empty.noteAll before
    let later := earlier.noteAll (observed done)
    done.map Completed.call = calls ∧
    (∀ operation outcome, later.value (.providerCalls operation outcome) =
      earlier.value (.providerCalls operation outcome) +
        done.countP fun c => c.call.operation.label = operation ∧ outcomeLabel c.reply.outcome = outcome) ∧
    (∀ operation, later.total (callsOf operation) = later.timed (.providerCalls operation.label) ∧
      later.total (callsOf operation) =
        earlier.total (callsOf operation) + done.countP fun c => c.call.operation = operation) ∧
    ∀ c ∈ done,
      (outcomeLabel c.reply.outcome = "success" ↔ ∃ v, c.reply.outcome = .ok v) ∧
      ∀ f, c.reply.outcome = .error f →
        outcomeLabel c.reply.outcome = f.kind.label ∧
        f.operation = c.call.operation.label ∧
        f.code = codeOf c.call.operation c.answer ∧
        f.kind = classify f.code ∧
        ∀ {α : Type} (t : Traversal α), (∃ delay, (t.advance (.error f)).2 = .backoff delay) ↔
          t.schedule ≠ [] ∧ ∃ code ∈ throttlingCodes, f.code = some code := by
  have haccounted : ∀ c ∈ completed pageSize calls l, Accounted c.call.operation c.answer c.reply :=
    accounted_completed calls l
  dsimp only
  refine ⟨calls_completed calls l, ?_, ?_, ?_⟩
  · intro operation outcome
    rw [Ledger.value_noteAll, List.count_eq_countP, List.countP_map, countP_observed haccounted]
    apply congrArg
    apply List.countP_congr
    intro c _
    simp [Note.counter]
  · intro operation
    rw [← Ledger.noteAll_append]
    refine ⟨Ledger.total_eq_timed (callsOf_together operation) _, ?_⟩
    rw [Ledger.total_noteAll, Ledger.total_noteAll, List.countP_append, countP_observed haccounted]
    apply congrArg
    apply List.countP_congr
    intro c _
    simp only [Note.counter, callsOf, decide_eq_true_eq]
    exact ⟨Operation.label_inj, congrArg Operation.label⟩
  · intro c hc
    refine ⟨outcomeLabel_eq_success _, ?_⟩
    intro f hf
    obtain ⟨hoperation, hcode, hkind⟩ := (haccounted c hc).failed f hf
    refine ⟨by rw [hf]; rfl, hoperation, hcode, hkind, ?_⟩
    intro α t
    have hretryable : f.retryable = true ↔ ∃ code ∈ throttlingCodes, f.code = some code := by
      rw [← classify_throttled_iff, ← hkind, Failure.retryable]
      cases f.kind <;> simp [FailureKind.retryable]
    rw [Traversal.advance_backoff_iff, hretryable]
    exact and_comm

def threeCalls : List Call :=
  [.page .users (.ofPool "pool"), .user "pool" "ann", .addMember "pool" "ann" "staff"]

/-- A refusal, no answer, and a success. -/
def threeAnswers : Line :=
  ⟨[some ⟨400, [("x-amzn-ErrorType", "ThrottlingException:")], Bytes.ofText "\x7b\x7d"⟩, none,
    some ⟨200, [], Bytes.ofText "\x7b\x7d"⟩], [], fun _ _ => "service error"⟩

theorem threeCalls_accounted :
    let later := Ledger.empty.noteAll (observed (completed 25 threeCalls threeAnswers))
    later.value (.providerCalls "list_users" "throttled") = 1 ∧
      later.value (.providerCalls "get_user" "unavailable") = 1 ∧
      later.value (.providerCalls "add_user_to_group" "success") = 1 ∧
      later.total (callsOf .listUsers) = 1 ∧
      later.timed (.providerCalls "list_users") = 1 := by
  obtain ⟨-, hvalue, htotal, -⟩ := provider_calls_are_accounted 25 threeCalls threeAnswers []
  have hstart : Ledger.empty.noteAll [] = Ledger.empty := rfl
  rw [hstart] at hvalue htotal
  obtain ⟨htimed, hlisted⟩ := htotal .listUsers
  have hone : Ledger.empty.total (callsOf .listUsers) +
      (completed 25 threeCalls threeAnswers).countP (fun c => c.call.operation = .listUsers) = 1 := by decide +kernel
  rw [hone] at hlisted
  dsimp only at hvalue ⊢
  rw [hvalue, hvalue, hvalue]
  refine ⟨by decide +kernel, by decide +kernel, by decide +kernel, hlisted, ?_⟩
  rw [← hlisted]
  exact htimed.symm

end DirectoryGateway.Remote
