import DirectoryGateway.Proofs.Telemetry.Durations
import DirectoryGateway.Proofs.Telemetry.Samples

/-!
# Requests and their durations

A request is counted under its status code and timed under the class of this code. Series that are written alike are joined before a
ledger is written, and what is written of one shows all durations that were entered under its labels.
-/

namespace DirectoryGateway.Telemetry

/-! ### Status classes -/

namespace StatusClass

/-- The status codes of a class: each is in one of them. -/
def Has : StatusClass → Nat → Prop
  | .success, status => 200 ≤ status ∧ status ≤ 299
  | .timeout, status => status = 408 ∨ status = 504
  | .error, status => ¬ (200 ≤ status ∧ status ≤ 299) ∧ status ≠ 408 ∧ status ≠ 504

instance (c : StatusClass) (status : Nat) : Decidable (c.Has status) := by
  cases c
  · exact inferInstanceAs (Decidable (_ ∧ _))
  · exact inferInstanceAs (Decidable (_ ∨ _))
  · exact inferInstanceAs (Decidable (_ ∧ _))

theorem has_iff (c : StatusClass) (status : Nat) : c.Has status ↔ ofStatus status = c := by
  rw [ofStatus]
  cases c with
  | success =>
    rw [Has]
    split
    · simp [*]
    · split <;> simp [*]
  | timeout =>
    rw [Has]
    split
    · simp only [reduceCtorEq, iff_false]
      omega
    · split <;> simp [*]
  | error =>
    rw [Has]
    split
    · simp [*]
    · split
      · simp only [reduceCtorEq, iff_false]
        omega
      · simp only [iff_true]
        omega

theorem existsUnique_has (status : Nat) : ∃! c : StatusClass, c.Has status := by
  refine ⟨ofStatus status, (has_iff _ _).mpr rfl, ?_⟩
  intro c hc
  exact ((has_iff c status).mp hc).symm

end StatusClass

/-- The counters of requests whose status codes are of a class. -/
def requestsOf (method : String) (endpoint : Endpoint) (c : StatusClass) : Counter → Bool
  | .requests m e status => m = method ∧ e = endpoint ∧ c.Has status
  | _ => false

theorem requestsOf_together (method : String) (endpoint : Endpoint) (c : StatusClass) (n : Note) :
    requestsOf method endpoint c n.counter = true ↔
      n.timing?.map Prod.fst = some (.requests method endpoint c) := by
  cases n with
  | request m path status nanos =>
    simp [Note.counter, Note.timing?, requestsOf, StatusClass.has_iff]
  | _ => simp [Note.counter, Note.timing?, requestsOf]

/-! ### Series -/

namespace Timer

theorem braceless (t : Timer) : '\x7b' ∉ t.family.toList := by
  have hall : ∀ family ∈ ["gw_http_request_duration_seconds", "gw_provider_call_duration_seconds"],
      '\x7b' ∉ family.toList := by decide
  exact hall t.family (by cases t <;> simp [family])

theorem family_of_series {t u : Timer} (h : t.series = u.series) : t.family = u.family :=
  name_of_labelled t.braceless u.braceless h

/-- Timers that are written alike are of one family, so they have the same buckets. -/
theorem bounds_of_series {t u : Timer} (h : t.series = u.series) : t.bounds = u.bounds := by
  have hfamily := family_of_series h
  have hne : "gw_http_request_duration_seconds" ≠ "gw_provider_call_duration_seconds" := by decide
  cases t with
  | requests method endpoint status =>
    cases u with
    | requests method endpoint status => rfl
    | providerCalls operation => exact absurd hfamily hne
  | providerCalls operation =>
    cases u with
    | requests method endpoint status => exact absurd hfamily hne.symm
    | providerCalls operation => rfl

theorem bounds_ascending (t : Timer) : t.bounds.Pairwise (· ≤ ·) := by
  cases t <;> simp only [bounds, limits] <;> decide +kernel

end Timer

def seriesIn (timers : List (Timer × Histogram)) : List String :=
  timers.map fun t => t.1.series

theorem seriesIn_append (timers more : List (Timer × Histogram)) :
    seriesIn (timers ++ more) = seriesIn timers ++ seriesIn more :=
  List.map_append

theorem mem_seriesIn {t : Timer × Histogram} {timers : List (Timer × Histogram)} (h : t ∈ timers) :
    t.1.series ∈ seriesIn timers :=
  List.mem_map_of_mem (f := fun t : Timer × Histogram => t.1.series) h

theorem joinTimer_cases (t : Timer × Histogram) (us : List (Timer × Histogram)) :
    (t.1.series ∉ seriesIn us ∧ joinTimer t us = us ++ [t]) ∨
      ∃ before u after, us = before ++ u :: after ∧ u.1.series = t.1.series ∧
        joinTimer t us = before ++ (u.1, u.2.join t.2) :: after := by
  induction us with
  | nil => exact Or.inl ⟨List.not_mem_nil, rfl⟩
  | cons u us ih =>
    rw [joinTimer]
    by_cases same : u.1.series = t.1.series
    · rw [if_pos same]
      exact Or.inr ⟨[], u, us, rfl, same, rfl⟩
    · rw [if_neg same]
      rcases ih with ⟨fresh, hjoin⟩ | ⟨before, v, after, rfl, hv, hjoin⟩
      · refine Or.inl ⟨?_, by rw [hjoin]; rfl⟩
        intro hin
        rcases List.mem_cons.mp hin with hfirst | hlater
        · exact same hfirst.symm
        · exact fresh hlater
      · exact Or.inr ⟨u :: before, v, after, rfl, hv, by rw [hjoin]; rfl⟩

/-- Timers in which every series of some others occurs once, with all that is held under it. -/
structure Joined (held : Timer → List Nat) (keys : List Timer) (timers : List (Timer × Histogram)) : Prop where
  distinct : (seriesIn timers).Nodup
  complete : ∀ t ∈ keys, t.series ∈ seriesIn timers
  holds : ∀ t ∈ timers, t.2.Holds t.1.bounds ((keys.filter fun u => u.series = t.1.series).flatMap held)

namespace Joined

variable {held : Timer → List Nat} {keys : List Timer} {timers : List (Timer × Histogram)} {t : Timer × Histogram}

theorem gathered_concat (held : Timer → List Nat) (keys : List Timer) (u : Timer) (series : String) :
    ((keys ++ [u]).filter fun v => v.series = series).flatMap held =
      (keys.filter fun v => v.series = series).flatMap held ++ if u.series = series then held u else [] := by
  rw [List.filter_append, List.flatMap_append, List.filter_singleton]
  by_cases same : u.series = series
  · simp [same]
  · simp [same]

theorem complete_concat {timers' : List (Timer × Histogram)} (h : Joined held keys timers)
    (kept : ∀ series ∈ seriesIn timers, series ∈ seriesIn timers') {u : Timer} (hu : u.series ∈ seriesIn timers') :
    ∀ v ∈ keys ++ [u], v.series ∈ seriesIn timers' := by
  intro v hv
  rcases List.mem_append.mp hv with hv | hv
  · exact kept _ (h.complete v hv)
  · rw [List.mem_singleton] at hv
    rw [hv]
    exact hu

theorem fresh (h : Joined held keys timers) (ht : t.2.Holds t.1.bounds (held t.1))
    (new : t.1.series ∉ seriesIn timers) : Joined held (keys ++ [t.1]) (timers ++ [t]) := by
  refine ⟨?_, ?_, ?_⟩
  · rw [seriesIn_append]
    apply List.Nodup.append h.distinct (List.nodup_singleton _)
    simpa [seriesIn] using new
  · apply h.complete_concat
    · intro series hseries
      rw [seriesIn_append]
      exact List.mem_append_left _ hseries
    · exact mem_seriesIn (List.mem_append_right _ (List.mem_singleton_self t))
  · intro u hu
    rw [gathered_concat]
    rcases List.mem_append.mp hu with hu | hu
    · have hother : t.1.series ≠ u.1.series := by
        intro same
        rw [same] at new
        exact new (mem_seriesIn hu)
      rw [if_neg hother, List.append_nil]
      exact h.holds u hu
    · rw [List.mem_singleton] at hu
      subst hu
      -- Nothing was held under a series that no timer has.
      have hnone : (keys.filter fun v => v.series = u.1.series) = [] := by
        rw [List.filter_eq_nil_iff]
        intro v hv same
        rw [decide_eq_true_eq] at same
        rw [← same] at new
        exact new (h.complete v hv)
      rw [hnone, if_pos rfl]
      exact ht

theorem found {before after : List (Timer × Histogram)} {u : Timer × Histogram}
    (h : Joined held keys (before ++ u :: after)) (ht : t.2.Holds t.1.bounds (held t.1))
    (same : u.1.series = t.1.series) :
    Joined held (keys ++ [t.1]) (before ++ (u.1, u.2.join t.2) :: after) := by
  have hseries : seriesIn (before ++ (u.1, u.2.join t.2) :: after) = seriesIn (before ++ u :: after) := by
    simp [seriesIn]
  have hmiddle : u.1.series ∈ seriesIn (before ++ u :: after) :=
    mem_seriesIn (List.mem_append_right _ List.mem_cons_self)
  have hother : ∀ v ∈ before ++ after, v.1.series ≠ u.1.series := by
    have hdistinct := h.distinct
    rw [seriesIn, List.map_append, List.map_cons, List.nodup_middle, ← List.map_append, List.nodup_cons] at hdistinct
    intro v hv hsame
    rw [← hsame] at hdistinct
    exact hdistinct.1 (mem_seriesIn hv)
  refine ⟨?_, ?_, ?_⟩
  · rw [hseries]
    exact h.distinct
  · apply h.complete_concat
    · rw [hseries]
      exact fun series hin => hin
    · rw [hseries, ← same]
      exact hmiddle
  · intro v hv
    rw [gathered_concat]
    rw [List.mem_append, List.mem_cons, or_left_comm, ← List.mem_append] at hv
    rcases hv with rfl | hv
    · rw [if_pos same.symm]
      rw [← Timer.bounds_of_series same] at ht
      exact (h.holds u (List.mem_append_right _ List.mem_cons_self)).join ht
    · rw [if_neg (same ▸ (hother v hv).symm), List.append_nil]
      apply h.holds v
      rw [List.mem_append, List.mem_cons, or_left_comm, ← List.mem_append]
      exact Or.inr hv

theorem join (h : Joined held keys timers) (ht : t.2.Holds t.1.bounds (held t.1)) :
    Joined held (keys ++ [t.1]) (joinTimer t timers) := by
  rcases joinTimer_cases t timers with ⟨new, hjoin⟩ | ⟨before, u, after, split, same, hjoin⟩
  · rw [hjoin]
    exact h.fresh ht new
  · rw [hjoin]
    rw [split] at h
    exact h.found ht same

theorem of_holds (all : ∀ t ∈ timers, t.2.Holds t.1.bounds (held t.1)) :
    Joined held (timers.map Prod.fst) (timers.foldl (fun us t => joinTimer t us) []) := by
  induction timers using List.reverseRecOn with
  | nil => exact ⟨List.nodup_nil, fun t ht => absurd ht List.not_mem_nil, fun t ht => absurd ht List.not_mem_nil⟩
  | append_singleton timers t ih =>
    rw [List.map_append, List.foldl_append]
    have hbefore := ih fun u hu => all u (List.mem_append_left _ hu)
    exact hbefore.join (all t (List.mem_append_right _ (List.mem_singleton_self t)))

end Joined

/-! ### Durations by series -/

theorem durations_congr {p q : Timer → Bool} {notes : List Note}
    (same : ∀ t ∈ (notes.filterMap Note.timing?).map Prod.fst, p t = q t) :
    durations p notes = durations q notes := by
  rw [durations, durations]
  apply congrArg (List.map Prod.snd)
  apply List.filter_congr
  intro entry hentry
  exact same entry.1 (List.mem_map_of_mem hentry)

/-- The durations of several timers are those of each, taken together. -/
theorem perm_durations {keys : List Timer} (distinct : keys.Nodup) (notes : List Note) :
    (keys.flatMap fun t => durations (· = t) notes).Perm (durations (· ∈ keys) notes) := by
  induction keys with
  | nil => simp [durations]
  | cons t keys ih =>
    obtain ⟨hother, hkeys⟩ := List.nodup_cons.mp distinct
    have happart : ∀ entry : Timer × Nat, decide (entry.1 = t) = true → decide (entry.1 ∈ keys) = false := by
      intro entry hentry
      rw [decide_eq_true_eq] at hentry
      rw [hentry, decide_eq_false_iff_not]
      exact hother
    have hsplit : (durations (· ∈ t :: keys) notes).Perm
        (durations (· = t) notes ++ durations (· ∈ keys) notes) := by
      have hperm := (perm_filter_or happart (notes.filterMap Note.timing?)).map Prod.snd
      rw [List.map_append] at hperm
      simpa only [durations, List.mem_cons, Bool.decide_or] using hperm
    rw [List.flatMap_cons]
    exact ((ih hkeys).append_left _).trans hsplit.symm

/-! ### What is written -/

def bucketLine (t : Timer) (bound : String) (n : Nat) : String :=
  sampleLine (t.family ++ "_bucket") (t.labels ++ [⟨"le", bound⟩]) (toString n)

/-- What is written of a timer that durations were entered under. -/
theorem timerLines_of_holds {t : Timer} {h : Histogram} {entered : List Nat} (held : h.Holds t.bounds entered) :
    timerLines t h =
      (t.limits.map fun limit => bucketLine t (boundOf limit).text (entered.countP (seconds · ≤ boundOf limit))) ++
        [bucketLine t "+Inf" entered.length, sampleLine (t.family ++ "_sum") t.labels h.sum.text,
          sampleLine (t.family ++ "_count") t.labels (toString entered.length)] := by
  rw [timerLines, held.within, held.count, List.zipWith_map_right, List.zipWith_self, Timer.bounds, List.map_map]
  rfl

theorem joined_timers (notes : List Note) :
    Joined (fun t => durations (· = t) notes) ((Ledger.empty.noteAll notes).timers.map Prod.fst)
      (Ledger.empty.noteAll notes).settle.joined.timers := by
  rw [← Ledger.keys_settle]
  apply Joined.of_holds
  intro t ht
  obtain ⟨⟨u, h⟩, hu, rfl⟩ := List.mem_map.mp ht
  exact (Ledger.holds_of_mem hu).settle

theorem Ledger.timerLines_subset_lines {l : Ledger} {t : Timer} {h : Histogram}
    (rendered : (t, h) ∈ l.settle.joined.timers) : ∀ line ∈ timerLines t h, line ∈ l.lines := by
  intro line hline
  have hmem : line ∈ l.settle.joined.timers.flatMap fun t => timerLines t.1 t.2 :=
    List.mem_flatMap.mpr ⟨(t, h), rendered, hline⟩
  rw [lines, (perm_sortLines _).mem_iff]
  exact List.mem_append_right _ hmem

/-- The counters of requests and their timers agree in every class of status codes, and what is written of a series is, for each
bound, how many of its durations are not above it, and how many there are in all. Rounding to seconds moves no duration over a
bound. -/
theorem requests_and_durations_agree (notes : List Note) :
    let l := Ledger.empty.noteAll notes
    let rendered := l.settle.joined.timers
    (∀ method endpoint c, l.total (requestsOf method endpoint c) = l.timed (.requests method endpoint c)) ∧
    (∀ status, ∃! c : StatusClass, c.Has status) ∧
    (seriesIn rendered).Nodup ∧
    (∀ t ∈ (notes.filterMap Note.timing?).map Prod.fst, t.series ∈ seriesIn rendered) ∧
    ∀ t h, (t, h) ∈ rendered →
      let entered := durations (fun u => u.series = t.series) notes
      timerLines t h =
          (t.limits.map fun limit => bucketLine t (boundOf limit).text (entered.countP (seconds · ≤ boundOf limit))) ++
            [bucketLine t "+Inf" entered.length, sampleLine (t.family ++ "_sum") t.labels h.sum.text,
              sampleLine (t.family ++ "_count") t.labels (toString entered.length)] ∧
        (∀ line ∈ timerLines t h, line ∈ l.lines) ∧
        (∀ limit ∈ t.limits, ∀ nanos, seconds nanos ≤ boundOf limit ↔ nanos ≤ 1000000 * limit) ∧
        ((t.limits.map fun limit => entered.countP (seconds · ≤ boundOf limit)) ++
          [entered.length]).Pairwise (· ≤ ·) := by
  have hentered : Entered notes (Ledger.empty.noteAll notes) := Entered.empty.noteAll notes
  have hjoined := joined_timers notes
  dsimp only
  refine ⟨?_, StatusClass.existsUnique_has, hjoined.distinct, ?_, ?_⟩
  · intro method endpoint c
    exact Ledger.total_eq_timed (requestsOf_together method endpoint c) notes
  · intro t ht
    exact hjoined.complete t ((hentered.timed t).mpr ht)
  · intro t h ht
    have hheld := hjoined.holds (t, h) ht
    have hperm := perm_durations (hentered.distinct.filter fun u => u.series = t.series) notes
    have hsame : durations (· ∈ ((Ledger.empty.noteAll notes).timers.map Prod.fst).filter
        fun u => u.series = t.series) notes = durations (fun u => u.series = t.series) notes := by
      apply durations_congr
      intro u hu
      have hkey := (hentered.timed u).mpr hu
      simp only [List.mem_filter, hkey, true_and, decide_eq_true_eq]
    rw [hsame] at hperm
    have hrecorded := hheld.perm hperm
    have hascending := hrecorded.ascending t.bounds_ascending
    rw [hrecorded.within, hrecorded.count, Timer.bounds, List.map_map] at hascending
    exact ⟨timerLines_of_holds hrecorded, Ledger.timerLines_subset_lines ht,
      fun limit hlimit nanos => seconds_le_boundOf hlimit nanos, hascending⟩

/-- Requests that take as long as the first bucket allows, but for one, which takes a nanosecond more. -/
def lateRequests : List Note :=
  [.request "GET" "/health" 408 5000000, .request "GET" "/health" 504 5000001, .request "GET" "/health" 204 5000000,
    .request "GET" "/health" 99 5000000]

theorem timeouts_are_timed_together :
    (Ledger.empty.noteAll lateRequests).total (requestsOf "GET" .health .timeout) = 2 ∧
      (Ledger.empty.noteAll lateRequests).timed (.requests "GET" .health .timeout) = 2 ∧
      bucketLine (.requests "GET" .health .timeout) (boundOf 5).text 1 ∈ (Ledger.empty.noteAll lateRequests).lines ∧
      bucketLine (.requests "GET" .health .timeout) "+Inf" 2 ∈ (Ledger.empty.noteAll lateRequests).lines := by
  obtain ⟨hagree, -, -, -, hwritten⟩ := requests_and_durations_agree lateRequests
  have htotal : (Ledger.empty.noteAll lateRequests).total (requestsOf "GET" .health .timeout) = 2 := by decide
  have hkeys : Timer.requests "GET" .health .timeout ∈
      (Ledger.empty.noteAll lateRequests).settle.joined.timers.map Prod.fst := by decide +kernel
  obtain ⟨⟨t, h⟩, ht, rfl⟩ := List.mem_map.mp hkeys
  obtain ⟨hlines, hshown, -⟩ := hwritten _ h ht
  have hentered : durations (fun u => u.series = (Timer.requests "GET" .health .timeout).series) lateRequests =
      [5000000, 5000001] := by decide +kernel
  have hwithin : [5000000, 5000001].countP (seconds · ≤ boundOf 5) = 1 := by decide +kernel
  rw [hentered] at hlines
  refine ⟨htotal, ?_, hshown _ ?_, hshown _ ?_⟩
  · rw [← hagree, htotal]
  · rw [hlines]
    exact List.mem_append_left _ (List.mem_map.mpr ⟨5, by decide, by rw [hwithin]⟩)
  · rw [hlines]
    exact List.mem_append_right _ List.mem_cons_self

end DirectoryGateway.Telemetry
