import DirectoryGateway.Proofs.Gateway.Exchanges
import DirectoryGateway.Proofs.Gateway.Responses
import DirectoryGateway.Proofs.Gateway.Unauthenticated
import Mathlib.Data.List.ProdSigma

/-!
# Methods in metrics

A request is counted under its method as the client wrote it. So the series of requests are few while clients keep to the documented
methods, and as many as clients like when they do not.
-/

namespace DirectoryGateway.Telemetry

/-- The values that the metrics document for a method. -/
def documentedMethods : List String :=
  ["GET", "POST", "PATCH", "DELETE", "PUT", "HEAD", "OPTIONS"]

def Counter.method? : Counter → Option String
  | .requests method .. => some method
  | _ => none

def Timer.method? : Timer → Option String
  | .requests method .. => some method
  | _ => none

/-- The counters of requests that a ledger holds. -/
def Ledger.requestSeries (l : Ledger) : List Counter :=
  (l.counters.map Prod.fst).filter fun c => c.method?.isSome

/-- The timers of requests that a ledger holds. -/
def Ledger.durationSeries (l : Ledger) : List Timer :=
  (l.timers.map Prod.fst).filter fun t => t.method?.isSome

theorem Note.method_counter (n : Note) : n.counter.method?.isSome = n.isRequest := by
  cases n <;> rfl

end DirectoryGateway.Telemetry

namespace DirectoryGateway.Gateway

open DirectoryGateway.Provider
open DirectoryGateway.Telemetry

variable {σ : Type} {g : Config} {service : Service σ} {s : Session σ}

/-! ### Series -/

def Exchange.timer (x : Exchange) : Timer :=
  .requests x.request.method (.ofPath x.request.path) (.ofStatus x.response.status)

/-- The series of requests in a ledger are those of some exchanges, each once. -/
structure Series (l : Ledger) (xs : List Exchange) : Prop where
  counters : ∀ c, c ∈ l.requestSeries ↔ c ∈ xs.map Exchange.counter
  timers : ∀ t, t ∈ l.durationSeries ↔ t ∈ xs.map Exchange.timer
  distinct : l.requestSeries.Nodup
  distinctTimers : l.durationSeries.Nodup

theorem series_of_entered {l : Ledger} {notes : List Note} {xs : List Exchange} (h : Entered notes l)
    (requests : notes.filter Note.isRequest = xs.map Exchange.note) : Series l xs := by
  have hnotes : ∀ n, (n ∈ notes ∧ n.isRequest = true) ↔ ∃ x ∈ xs, x.note = n := by
    intro n
    rw [← List.mem_filter, requests, List.mem_map]
  refine ⟨?_, ?_, h.tally.distinct.filter _, h.distinct.filter _⟩
  · intro c
    rw [Ledger.requestSeries, List.mem_filter, h.tally.mem_keys, List.mem_map, List.mem_map]
    constructor
    · rintro ⟨⟨n, hn, rfl⟩, hmethod⟩
      rw [Note.method_counter] at hmethod
      obtain ⟨x, hx, rfl⟩ := (hnotes n).mp ⟨hn, hmethod⟩
      exact ⟨x, hx, rfl⟩
    · rintro ⟨x, hx, rfl⟩
      exact ⟨⟨x.note, ((hnotes _).mpr ⟨x, hx, rfl⟩).1, rfl⟩, rfl⟩
  · intro t
    rw [Ledger.durationSeries, List.mem_filter, h.timed, List.mem_map, List.mem_map]
    constructor
    · rintro ⟨⟨⟨u, nanos⟩, hu, rfl⟩, hmethod⟩
      obtain ⟨n, hn, htiming⟩ := List.mem_filterMap.mp hu
      cases n with
      | request method path status nanos' =>
        obtain ⟨x, hx, hx'⟩ := (hnotes _).mp ⟨hn, rfl⟩
        cases htiming
        cases hx'
        exact ⟨x, hx, rfl⟩
      | providerCall operation outcome nanos' =>
        cases htiming
        cases hmethod
      | _ => cases htiming
    · rintro ⟨x, hx, rfl⟩
      have hn := ((hnotes _).mpr ⟨x, hx, rfl⟩).1
      exact ⟨⟨(x.timer, x.nanos), List.mem_filterMap.mpr ⟨x.note, hn, rfl⟩, rfl⟩, rfl⟩

theorem series_after (modest : service.Modest) (g : Config) (store : σ) (ms : List Moment) :
    Series (after g service (.start store .empty) ms).ledger (exchanges g service (.start store .empty) ms) := by
  obtain ⟨more, gains, hmore⟩ := after_gains modest g (.start store .empty) ms
  exact series_of_entered (gains [] .empty) hmore

/-! ### Methods -/

theorem series_methods {l : Ledger} {xs : List Exchange} (h : Series l xs) (method : String) :
    ((∃ c ∈ l.requestSeries, c.method? = some method) ↔ ∃ q ∈ xs.map Exchange.request, q.method = method) ∧
      ((∃ t ∈ l.durationSeries, t.method? = some method) ↔ ∃ q ∈ xs.map Exchange.request, q.method = method) := by
  constructor
  · constructor
    · rintro ⟨c, hc, hmethod⟩
      obtain ⟨x, hx, rfl⟩ := List.mem_map.mp ((h.counters c).mp hc)
      exact ⟨x.request, List.mem_map_of_mem hx, Option.some.inj hmethod⟩
    · rintro ⟨q, hq, rfl⟩
      obtain ⟨x, hx, rfl⟩ := List.mem_map.mp hq
      exact ⟨x.counter, (h.counters _).mpr (List.mem_map_of_mem hx), rfl⟩
  · constructor
    · rintro ⟨t, ht, hmethod⟩
      obtain ⟨x, hx, rfl⟩ := List.mem_map.mp ((h.timers t).mp ht)
      exact ⟨x.request, List.mem_map_of_mem hx, Option.some.inj hmethod⟩
    · rintro ⟨q, hq, rfl⟩
      obtain ⟨x, hx, rfl⟩ := List.mem_map.mp hq
      exact ⟨x.timer, (h.timers _).mpr (List.mem_map_of_mem hx), rfl⟩

/-! ### Few series -/

def endpoints : List Endpoint :=
  [.root, .health, .ready, .metrics, .me, .groups, .users, .user, .members, .membership, .other]

theorem mem_endpoints (e : Endpoint) : e ∈ endpoints := by
  cases e <;> decide

def statusClasses : List StatusClass :=
  [.success, .timeout, .error]

theorem mem_statusClasses (c : StatusClass) : c ∈ statusClasses := by
  cases c <;> decide

theorem exchange_status_mem {x : Exchange} {ms : List Moment} (h : x ∈ exchanges g service s ms) :
    x.response.status ∈ statuses := by
  induction ms generalizing s with
  | nil => cases h
  | cons m ms ih =>
    rcases List.mem_append.mp h with hfirst | hrest
    · cases asked : m.served? with
      | some q =>
        obtain ⟨i, r, hplay, hstatus⟩ := play_exchange g service s asked
        rw [exchange?, asked, hplay] at hfirst
        rw [List.mem_singleton.mp hfirst]
        show r.status ∈ statuses
        rw [hstatus, serve_response]
        exact respond_status_mem g service q i s
      | none =>
        rw [exchange?, asked] at hfirst
        cases hfirst
    · exact ih hrest

theorem length_le_of_subset {α : Type} [DecidableEq α] {series all : List α} (distinct : series.Nodup)
    (h : ∀ c ∈ series, c ∈ all) : series.length ≤ all.length :=
  (List.subperm_of_subset distinct h).length_le

/-- The counters of requests by documented methods. -/
def documentedCounters : List Counter :=
  (documentedMethods ×ˢ endpoints ×ˢ statuses).map fun p => .requests p.1 p.2.1 p.2.2

/-- The timers of requests by documented methods. -/
def documentedTimers : List Timer :=
  (documentedMethods ×ˢ endpoints ×ˢ statusClasses).map fun p => .requests p.1 p.2.1 p.2.2

theorem series_bounded {l : Ledger} {xs : List Exchange} (h : Series l xs)
    (methods : ∀ x ∈ xs, x.request.method ∈ documentedMethods) (known : ∀ x ∈ xs, x.response.status ∈ statuses) :
    l.requestSeries.length ≤ 7 * (11 * 11) ∧ l.durationSeries.length ≤ 7 * (11 * 3) := by
  have hcounters : documentedCounters.length = 7 * (11 * 11) := by
    rw [documentedCounters, List.length_map, List.length_product, List.length_product]
    rfl
  have htimers : documentedTimers.length = 7 * (11 * 3) := by
    rw [documentedTimers, List.length_map, List.length_product, List.length_product]
    rfl
  rw [← hcounters, ← htimers]
  constructor
  · apply length_le_of_subset h.distinct
    intro c hc
    obtain ⟨x, hx, rfl⟩ := List.mem_map.mp ((h.counters c).mp hc)
    refine List.mem_map.mpr ⟨(x.request.method, .ofPath x.request.path, x.response.status), ?_, rfl⟩
    exact List.pair_mem_product.mpr ⟨methods x hx, List.pair_mem_product.mpr ⟨mem_endpoints _, known x hx⟩⟩
  · apply length_le_of_subset h.distinctTimers
    intro t ht
    obtain ⟨x, hx, rfl⟩ := List.mem_map.mp ((h.timers t).mp ht)
    refine List.mem_map.mpr ⟨(x.request.method, .ofPath x.request.path, .ofStatus x.response.status), ?_, rfl⟩
    exact List.pair_mem_product.mpr ⟨methods x hx, List.pair_mem_product.mpr ⟨mem_endpoints _, mem_statusClasses _⟩⟩

/-! ### Many series -/

/-- As many methods as one likes, all of them tokens. -/
def longMethod (k : Nat) : String :=
  String.ofList (List.replicate (k + 1) 'A')

theorem isToken_longMethod (k : Nat) : Text.isToken (longMethod k) = true := by
  have hchar : Text.isTokenChar 'A' = true := by decide
  rw [Text.isToken, Bool.and_eq_true]
  constructor
  · rw [bne_iff_ne]
    intro h
    have hnil := congrArg String.toList h
    simp [longMethod] at hnil
  · rw [List.all_eq_true]
    intro c hc
    rw [longMethod, String.toList_ofList] at hc
    rw [List.eq_of_mem_replicate hc]
    exact hchar

theorem longMethod_injective {j k : Nat} (h : longMethod j = longMethod k) : j = k := by
  have hlength := congrArg (fun s => s.toList.length) h
  simpa [longMethod] using hlength

def manyMethods (n : Nat) : List Moment :=
  (List.range n).map fun k => .request ⟨longMethod k, "/health", []⟩ .none

theorem served_manyMethods (n : Nat) :
    (manyMethods n).filterMap Moment.served? = (List.range n).map fun k => ⟨longMethod k, "/health", []⟩ := by
  rw [manyMethods, List.filterMap_map, ← List.filterMap_eq_map]
  rfl

/-- Series with different methods are different series. -/
theorem length_le_of_methods {α : Type} {names : List String} (distinct : names.Nodup) {series : List α}
    {method? : α → Option String} (named : ∀ name ∈ names, ∃ c ∈ series, method? c = some name) :
    names.length ≤ series.length := by
  have hsubset : ∀ name ∈ names, name ∈ series.filterMap method? := by
    intro name hname
    obtain ⟨c, hc, hmethod⟩ := named name hname
    exact List.mem_filterMap.mpr ⟨c, hc, hmethod⟩
  exact (length_le_of_subset distinct hsubset).trans (List.length_filterMap_le _ _)

/-- The methods in the series of requests are those of the requests that came: the documented ones make few series, and others
make any number. -/
theorem series_follow_methods (g : Config) (service : Service σ) (modest : service.Modest) (store : σ) :
    (∀ (ms : List Moment) (method : String),
      ((∃ c ∈ (after g service (.start store .empty) ms).ledger.requestSeries, c.method? = some method) ↔
        ∃ q ∈ ms.filterMap Moment.served?, q.method = method) ∧
      ((∃ t ∈ (after g service (.start store .empty) ms).ledger.durationSeries, t.method? = some method) ↔
        ∃ q ∈ ms.filterMap Moment.served?, q.method = method)) ∧
    (∀ ms : List Moment, (∀ q ∈ ms.filterMap Moment.served?, q.method ∈ documentedMethods) →
      (after g service (.start store .empty) ms).ledger.requestSeries.length ≤ 7 * (11 * 11) ∧
      (after g service (.start store .empty) ms).ledger.durationSeries.length ≤ 7 * (11 * 3)) ∧
    ∀ n, ∃ ms : List Moment, (∀ q ∈ ms.filterMap Moment.served?, Text.isToken q.method = true) ∧
      n ≤ (after g service (.start store .empty) ms).ledger.requestSeries.length ∧
      n ≤ (after g service (.start store .empty) ms).ledger.durationSeries.length := by
  refine ⟨?_, ?_, ?_⟩
  · intro ms method
    have methods := series_methods (series_after modest g store ms) method
    rw [exchanges_requests] at methods
    exact methods
  · intro ms documented
    refine series_bounded (series_after modest g store ms) ?_ fun x hx => exchange_status_mem hx
    intro x hx
    apply documented
    rw [← exchanges_requests g service (.start store .empty)]
    exact List.mem_map_of_mem hx
  · intro n
    have distinct : ((List.range n).map longMethod).Nodup :=
      List.nodup_range.map fun _ _ => longMethod_injective
    have named : ∀ name ∈ (List.range n).map longMethod,
        ∃ q ∈ (manyMethods n).filterMap Moment.served?, q.method = name := by
      intro name hname
      obtain ⟨k, hk, rfl⟩ := List.mem_map.mp hname
      rw [served_manyMethods]
      exact ⟨_, List.mem_map_of_mem hk, rfl⟩
    have methods := series_methods (series_after modest g store (manyMethods n))
    rw [exchanges_requests] at methods
    have hlength : n ≤ ((List.range n).map longMethod).length := by simp
    refine ⟨manyMethods n, ?_, ?_, ?_⟩
    · rw [served_manyMethods]
      intro q hq
      obtain ⟨k, -, rfl⟩ := List.mem_map.mp hq
      exact isToken_longMethod k
    · apply hlength.trans
      exact length_le_of_methods distinct fun name hname => (methods name).1.mpr (named name hname)
    · apply hlength.trans
      exact length_le_of_methods distinct fun name hname => (methods name).2.mpr (named name hname)

def putAndGet : List Moment :=
  [.message ⟨"PUT", "/health", []⟩ .none, .message ⟨"GET", "/health", []⟩ .none]

theorem putAndGet_has_few_series :
    (after sampleConfig Script.service emptySession putAndGet).ledger.requestSeries.length ≤ 7 * (11 * 11) ∧
      ∃ c ∈ (after sampleConfig Script.service emptySession putAndGet).ledger.requestSeries,
        c.method? = some "PUT" := by
  obtain ⟨methods, bounded, -⟩ := series_follow_methods sampleConfig Script.service Script.modest .empty
  refine ⟨(bounded putAndGet (by decide +kernel)).1, ?_⟩
  exact (methods putAndGet "PUT").1.mpr (by decide +kernel)

/-- A method that no document knows has a series of its own. -/
theorem brewing_makes_a_series :
    Counter.requests "BREW" .health 405 ∈ (after sampleConfig Script.service emptySession
      [.message ⟨"BREW", "/health", []⟩ .none]).ledger.requestSeries ∧
    Timer.requests "BREW" .health .error ∈ (after sampleConfig Script.service emptySession
      [.message ⟨"BREW", "/health", []⟩ .none]).ledger.durationSeries ∧
    "BREW" ∉ documentedMethods := by
  decide +kernel

end DirectoryGateway.Gateway
