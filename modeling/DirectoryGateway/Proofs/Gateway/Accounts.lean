import DirectoryGateway.Proofs.Gateway.Exchanges
import DirectoryGateway.Proofs.Gateway.Shutdown
import DirectoryGateway.Proofs.Gateway.Unauthenticated
import DirectoryGateway.Proofs.Telemetry.Samples

/-!
# Every response is counted once

The samples of requests that a text of metrics shows are the tally of the responses that were completed by then, whichever part
of the gateway made them: each is counted under its own method, path and status, and the response that holds the text is not yet
among them. Requests that are served side by side are counted in the same way.
-/

namespace DirectoryGateway.Telemetry

/-- The requests among some notes, as they are counted. -/
def counted (notes : List Note) : List Counter :=
  (notes.filter Note.isRequest).map Note.counter

theorem Counter.isRequest_counter (n : Note) : n.counter.isRequest = n.isRequest := by
  cases n <;> rfl

theorem count_counted {c : Counter} (h : c.isRequest = true) (notes : List Note) :
    (notes.map Note.counter).count c = (counted notes).count c := by
  have hfilter : counted notes = (notes.map Note.counter).filter Counter.isRequest := by
    rw [List.filter_map]
    simp only [Function.comp_def, Counter.isRequest_counter]
    rfl
  rw [hfilter, List.count_filter h]

theorem Entered.value_gains {l l' : Ledger} {notes more : List Note} (h : Entered notes l) (gains : l.Gains l' more)
    {c : Counter} (request : c.isRequest = true) : l'.value c = l.value c + (counted more).count c := by
  have before : l.value c = (notes.map Note.counter).count c := h.tally.value c
  have after : l'.value c = ((notes ++ more).map Note.counter).count c := (gains _ h).tally.value c
  rw [after, before, List.map_append, List.count_append, count_counted request more]

/-- The samples of requests in the text of a ledger, and what they count. -/
structure Accounts (l : Ledger) (samples : List (Counter × Nat)) (completed : List Counter) : Prop where
  lines : shown [requestFamily] l.lines = sortLines (samples.map fun c => counterLine c.1 c.2)
  tally : Tally samples completed
  total : (samples.map Prod.snd).sum = completed.length

/-- What is shown of requests depends on what was completed, but not on the order. -/
theorem Accounts.shown_eq {l l' : Ledger} {samples samples' : List (Counter × Nat)} {completed : List Counter}
    (h : Accounts l samples completed) (h' : Accounts l' samples' completed) :
    shown [requestFamily] l.lines = shown [requestFamily] l'.lines := by
  rw [h.lines, h'.lines]
  apply sortLines_eq_of_perm
  exact (h.tally.unique h'.tally).map _

theorem Entered.requests {notes : List Note} {l : Ledger} (h : Entered notes l) :
    Tally (l.counters.filter fun c => c.1.isRequest) (counted notes) := by
  have tally := h.tally.filter Counter.isRequest
  rw [List.filter_map] at tally
  simp only [Function.comp_def, Counter.isRequest_counter] at tally
  exact tally

theorem Entered.accounts {notes : List Note} {l : Ledger} {completed : List Counter} (h : Entered notes l)
    (same : (counted notes).Perm completed)
    (plain : ∀ method e status, .requests method e status ∈ completed → Plain method) :
    Accounts l (l.counters.filter fun c => c.1.isRequest) completed := by
  have tally := h.requests.perm same
  refine ⟨shown_requests h.tally.distinct ?_, tally, tally.total⟩
  intro method e status hkey
  apply plain method e status
  apply tally.mem_keys.mp
  obtain ⟨⟨c, n⟩, hmem, hc⟩ := List.mem_map.mp hkey
  refine List.mem_map.mpr ⟨(c, n), List.mem_filter.mpr ⟨hmem, ?_⟩, hc⟩
  rw [show c = _ from hc]
  rfl

end DirectoryGateway.Telemetry

namespace DirectoryGateway.Gateway

open DirectoryGateway.Listing
open DirectoryGateway.Provider
open DirectoryGateway.Telemetry

/-! ### Requests side by side -/

namespace Task

variable {t : Task} {s : Session Script} {kind : Kind} {seat : Seat kind.source.Record}

/-- What a request that is answered is counted under. -/
def counter? (t : Task) : Option Counter :=
  t.work.answer?.map fun r => .requests t.request.method (.ofPath t.request.path) r.status

theorem WentOn.gains {x : Task × Session Script} (h : WentOn t kind seat s x) :
    ∃ more, s.ledger.Gains x.2.ledger more ∧ counted more = x.1.counter?.toList := by
  cases h with
  | ended r => exact ⟨_, .noteAll _ _, rfl⟩
  | underWay live due later => exact ⟨[], .refl _, rfl⟩

end Task

namespace Floor

variable {g : Config} {f : Floor}

/-- What the requests that are answered are counted under. -/
def completed (f : Floor) : List Counter :=
  f.tasks.filterMap Task.counter?

end Floor

/-! ### Scrapes -/

theorem respond_metrics {σ : Type} {q : Request} (g : Config) (service : Service σ) (i : Interrupts) (s : Session σ)
    (method : q.method = "GET") (path : q.path = "/metrics") :
    respond g service q i s = (.ofText 200 s.ledger.text, { s with ledger := s.ledger.settle }) := by
  have found : Route.ofPath? q.path = some .metrics := by
    rw [path]
    decide +kernel
  simp [respond, found, serveRoute, Route.isProtected, Route.methods, method, publicAnswer, afterPublic]

theorem play_metrics {σ : Type} {q : Request} {m : Moment} (g : Config) (service : Service σ) (s : Session σ)
    (asked : m.served? = some q) (method : q.method = "GET") (path : q.path = "/metrics") :
    (m.play g service s).1 = some (.ofText 200 s.ledger.text) := by
  cases m with
  | request q' i =>
    cases asked
    simp only [Moment.play, serve, respond_metrics g service i s method path]
  | message q' i =>
    have read : q'.received? = some q := asked
    simp only [Moment.play, receive, read, serve, respond_metrics g service i s method path, method]
    rfl
  | drain => cases asked
  | finish => cases asked

section

variable {σ : Type}

/-- What the requests of a history are counted as. The samples are those of all requests, and the next one adds itself. -/
structure CountedOnce (g : Config) (service : Service σ) (start : Session σ) (ms : List Moment) : Prop where
  completed : (exchanges g service start ms).map Exchange.request = ms.filterMap Moment.served?
  accounts : ∃ samples, Accounts (after g service start ms).ledger samples
    ((exchanges g service start ms).map Exchange.counter)
  counted : ∀ (m : Moment) (q : Request), m.served? = some q → ∃ r, (m.play g service (after g service start ms)).1 = some r ∧
    ∀ c, c.isRequest = true →
      (m.play g service (after g service start ms)).2.ledger.value c =
        (after g service start ms).ledger.value c +
          if c = .requests q.method (.ofPath q.path) r.status then 1 else 0
  uncounted : ∀ m : Moment, m.served? = none →
    (m.play g service (after g service start ms)).2.ledger = (after g service start ms).ledger
  /-- Whoever reads the metrics gets the accounts so far, without this request. -/
  scraped : ∀ (m : Moment) (q : Request), m.served? = some q → q.method = "GET" → q.path = "/metrics" →
    (m.play g service (after g service start ms)).1 =
      some (.ofText 200 (after g service start ms).ledger.text)

theorem plain_of_tokens {qs : List Request} (tokens : ∀ q ∈ qs, Text.isToken q.method = true) {cs : List Counter}
    (own : ∀ c ∈ cs, ∃ q ∈ qs, ∃ e status, c = .requests q.method e status) :
    ∀ method e status, .requests method e status ∈ cs → Plain method := by
  intro method e status hmem
  obtain ⟨q, hq, e', status', hc⟩ := own _ hmem
  cases hc
  exact plain_of_isToken (tokens q hq)

theorem counted_once {service : Service σ} (modest : service.Modest) (g : Config) (store : σ) {ms : List Moment}
    (tokens : ∀ q ∈ ms.filterMap Moment.served?, Text.isToken q.method = true) :
    CountedOnce g service (.start store .empty) ms := by
  obtain ⟨more, gains, hmore⟩ := after_gains modest g (.start store .empty) ms
  refine ⟨exchanges_requests .., ?accounts, ?counted, ?uncounted, ?scraped⟩
  case accounts =>
    have entered := gains [] .empty
    have same : Telemetry.counted more = (exchanges g service (.start store .empty) ms).map Exchange.counter := by
      rw [Telemetry.counted, hmore, List.map_map]
      rfl
    refine ⟨_, entered.accounts (same ▸ List.Perm.refl _) (plain_of_tokens tokens ?_)⟩
    intro c hc
    obtain ⟨x, hx, rfl⟩ := List.mem_map.mp hc
    refine ⟨x.request, ?_, _, _, rfl⟩
    rw [← exchanges_requests g service (.start store .empty)]
    exact List.mem_map_of_mem hx
  case counted =>
    intro m q asked
    obtain ⟨i, r, hplay, -⟩ := play_exchange g service (after g service (.start store .empty) ms) asked
    obtain ⟨last, gains', hlast⟩ := play_gains modest g (after g service (.start store .empty) ms) m
    refine ⟨r, by rw [hplay], ?_⟩
    intro c request
    have hexchange : Telemetry.counted last = [.requests q.method (.ofPath q.path) r.status] := by
      rw [Telemetry.counted, hlast, exchange?, asked, hplay]
      rfl
    rw [(gains [] .empty).value_gains gains' request, hexchange, List.count_singleton]
    simp only [beq_iff_eq, eq_comm (a := c)]
  case uncounted =>
    intro m unasked
    exact ledger_unserved g service _ unasked
  case scraped =>
    intro m q asked method path
    exact play_metrics g service _ asked method path

end

end DirectoryGateway.Gateway
