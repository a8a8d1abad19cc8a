import DirectoryGateway.Proofs.Decimal.Rounding
import DirectoryGateway.Proofs.Telemetry.Tally

/-!
# What timers hold

The histogram of a timer holds the durations that were entered under it: each bucket has those that are not above its bound.
Though both are rounded before they are compared, no duration gets on the other side of a bound. A family of counters and a
timer that the same notes go to agree on how many there were.
-/

namespace DirectoryGateway.Telemetry

open DirectoryGateway.Decimal

/-! ### Seconds -/

/-- What rounding takes from a duration or adds to it. -/
theorem seconds_near (nanos : Nat) :
    |(seconds nanos).value - nanos / 1000000000| ≤ (3 * (nanos / 1000000000) + 4) / 2 ^ 52 := by
  have hwhole := Binary64.ofRatio_near (r := ⟨nanos / 1000000000, 1⟩) Nat.one_pos
  have hrest := Binary64.ofRatio_near (r := ⟨nanos % 1000000000, 1000000000⟩) (Nat.succ_pos _)
  have hsum := Binary64.add_near (.ofRatio ⟨nanos / 1000000000, 1⟩)
    (.ofRatio ⟨nanos % 1000000000, 1000000000⟩)
  have hsplit : (nanos : ℚ) = 1000000000 * (nanos / 1000000000 : Nat) + (nanos % 1000000000 : Nat) := by
    exact_mod_cast (Nat.div_add_mod nanos 1000000000).symm
  have hbelow : ((nanos % 1000000000 : Nat) : ℚ) ≤ 1000000000 := by
    exact_mod_cast (Nat.mod_lt nanos (by decide)).le
  have hnonneg : (0 : ℚ) ≤ (nanos % 1000000000 : Nat) := Nat.cast_nonneg _
  simp only [Ratio.value, Nat.cast_one, div_one, Nat.cast_ofNat] at hwhole hrest
  rw [← seconds] at hsum
  generalize (Binary64.ofRatio ⟨nanos / 1000000000, 1⟩).value = whole at hwhole hsum
  generalize (Binary64.ofRatio ⟨nanos % 1000000000, 1000000000⟩).value = rest at hrest hsum
  rw [abs_le] at hwhole hrest hsum ⊢
  rw [hsplit]
  constructor <;> linarith

theorem boundOf_near (millis : Nat) : |(boundOf millis).value - millis / 1000| ≤ (millis / 1000 + 1) / 2 ^ 52 := by
  simpa only [boundOf, Ratio.value, Nat.cast_ofNat] using Binary64.ofRatio_near (r := ⟨millis, 1000⟩) (Nat.succ_pos _)

/-- A duration of as many milliseconds as a limit is rounded as the limit is. -/
theorem seconds_limit (t : Timer) : ∀ millis ∈ t.limits, seconds (1000000 * millis) = boundOf millis := by
  cases t <;> simp only [Timer.limits] <;> decide +kernel

theorem limits_le (t : Timer) : ∀ millis ∈ t.limits, millis ≤ 15000 := by
  cases t <;> simp only [Timer.limits] <;> decide

/-- A duration is in a bucket exactly if it is not above the limit: a nanosecond is more than rounding can take or add. -/
theorem seconds_le_boundOf {t : Timer} {millis : Nat} (limit : millis ∈ t.limits) (nanos : Nat) :
    seconds nanos ≤ boundOf millis ↔ nanos ≤ 1000000 * millis := by
  have hseconds := abs_le.mp (seconds_near nanos)
  have hbound := abs_le.mp (boundOf_near millis)
  have hlimit : (millis : ℚ) ≤ 15000 := by exact_mod_cast limits_le t millis limit
  have hnonneg : (0 : ℚ) ≤ nanos := Nat.cast_nonneg _
  rw [Binary64.le_iff]
  rcases Nat.lt_trichotomy nanos (1000000 * millis) with below | rfl | above
  · have hbelow : (nanos : ℚ) + 1 ≤ 1000000 * millis := by exact_mod_cast below
    refine iff_of_true ?_ below.le
    linarith
  · rw [seconds_limit t millis limit]
    simp
  · have habove : 1000000 * (millis : ℚ) + 1 ≤ nanos := by exact_mod_cast above
    refine iff_of_false ?_ above.not_ge
    rw [not_le]
    linarith

/-! ### Histograms -/

structure Histogram.Holds (bounds : List Binary64) (durations : List Nat) (h : Histogram) : Prop where
  within : h.within = bounds.map fun bound => durations.countP (seconds · ≤ bound)
  count : h.count = durations.length

namespace Histogram.Holds

variable {bounds : List Binary64} {durations more : List Nat} {h k : Histogram}

theorem empty (bounds : List Binary64) : (Histogram.empty bounds).Holds bounds [] :=
  ⟨rfl, rfl⟩

theorem record (held : h.Holds bounds durations) (nanos : Nat) :
    (h.record bounds nanos).Holds bounds (durations ++ [nanos]) := by
  refine ⟨?_, ?_⟩
  · rw [Histogram.record, held.within]
    dsimp only
    rw [List.zipWith_map_right, List.zipWith_self]
    apply List.map_congr_left
    intro bound _
    rw [List.countP_append, List.countP_singleton]
    by_cases fits : seconds nanos ≤ bound
    · simp [fits]
    · simp [fits]
  · rw [Histogram.record, held.count, List.length_append, List.length_singleton]

theorem settle (held : h.Holds bounds durations) : h.settle.Holds bounds durations :=
  ⟨held.within, held.count⟩

theorem join (held : h.Holds bounds durations) (held' : k.Holds bounds more) :
    (h.join k).Holds bounds (durations ++ more) := by
  refine ⟨?_, ?_⟩
  · rw [Histogram.join, held.within, held'.within]
    dsimp only
    rw [List.zipWith_map, List.zipWith_self]
    apply List.map_congr_left
    intro bound _
    rw [List.countP_append]
  · rw [Histogram.join, held.count, held'.count, List.length_append]

theorem perm (held : h.Holds bounds durations) (same : durations.Perm more) : h.Holds bounds more := by
  refine ⟨?_, ?_⟩
  · rw [held.within]
    apply List.map_congr_left
    intro bound _
    exact same.countP_eq _
  · rw [held.count, same.length_eq]

/-- A higher bound has no fewer durations below it, and there are no more than all. -/
theorem ascending (held : h.Holds bounds durations) (sorted : bounds.Pairwise (· ≤ ·)) :
    (h.within ++ [h.count]).Pairwise (· ≤ ·) := by
  rw [held.within, held.count, List.pairwise_append]
  refine ⟨?_, List.pairwise_singleton _ _, ?_⟩
  · rw [List.pairwise_map]
    apply sorted.imp
    intro bound bound' hle
    apply List.countP_mono_left
    intro nanos _ hnanos
    rw [decide_eq_true_eq] at hnanos ⊢
    exact Binary64.le_trans hnanos hle
  · intro n hn total htotal
    obtain ⟨bound, -, rfl⟩ := List.mem_map.mp hn
    rw [List.mem_singleton] at htotal
    rw [htotal]
    exact List.countP_le_length

end Histogram.Holds

/-! ### Durations among notes -/

/-- The durations that notes enter under some timers, oldest first. -/
def durations (p : Timer → Bool) (notes : List Note) : List Nat :=
  ((notes.filterMap Note.timing?).filter fun entry => p entry.1).map Prod.snd

theorem durations_concat (p : Timer → Bool) (notes : List Note) (n : Note) :
    durations p (notes ++ [n]) = durations p notes ++ durations p [n] := by
  rw [durations, List.filterMap_append, List.filter_append, List.map_append]
  rfl

theorem durations_untimed (p : Timer → Bool) {n : Note} (untimed : n.timing? = none) : durations p [n] = [] := by
  simp [durations, untimed]

theorem durations_timed (p : Timer → Bool) {n : Note} {t : Timer} {nanos : Nat}
    (timed : n.timing? = some (t, nanos)) : durations p [n] = if p t then [nanos] else [] := by
  cases hp : p t <;> simp [durations, timed, hp]

theorem length_durations (t : Timer) (notes : List Note) :
    (durations (· = t) notes).length = notes.countP fun n => n.timing?.map Prod.fst = some t := by
  induction notes using List.reverseRecOn with
  | nil => rfl
  | append_singleton notes n ih =>
    rw [durations_concat, List.length_append, ih, List.countP_append, List.countP_singleton]
    cases timing : n.timing? with
    | none => simp [durations_untimed _ timing]
    | some timed =>
      obtain ⟨u, nanos⟩ := timed
      rw [durations_timed _ timing]
      by_cases same : u = t
      · simp [same]
      · simp [same]

/-! ### Ledgers -/

namespace Ledger

theorem noteAll_concat (l : Ledger) (notes : List Note) (n : Note) :
    l.noteAll (notes ++ [n]) = (l.noteAll notes).note n :=
  l.noteAll_append notes [n]

theorem lookup_time (t u : Timer) (nanos : Nat) (timers : List (Timer × Histogram)) :
    (time u nanos timers).lookup t =
      if t = u then some (((timers.lookup t).getD (.empty t.bounds)).record t.bounds nanos)
      else timers.lookup t := by
  induction timers with
  | nil =>
    rw [time, lookup_cons_eq_ite]
    by_cases same : t = u
    · subst same
      rfl
    · rw [if_neg same, if_neg same]
  | cons entry timers ih =>
    obtain ⟨v, h⟩ := entry
    rw [time]
    by_cases found : v = u
    · subst found
      rw [if_pos rfl, lookup_cons_eq_ite, lookup_cons_eq_ite]
      by_cases same : t = v
      · subst same
        simp
      · simp only [same, ↓reduceIte]
    · rw [if_neg found, lookup_cons_eq_ite, lookup_cons_eq_ite, ih]
      by_cases same : t = v
      · subst same
        simp only [found, ↓reduceIte]
      · simp only [same, ↓reduceIte]

/-- What is looked up under a timer holds what was entered under it. -/
theorem holds_lookup (notes : List Note) (t : Timer) :
    (((empty.noteAll notes).timers.lookup t).getD (.empty t.bounds)).Holds t.bounds (durations (· = t) notes) := by
  induction notes using List.reverseRecOn with
  | nil => exact .empty t.bounds
  | append_singleton notes n ih =>
    rw [noteAll_concat, note, durations_concat]
    cases timing : n.timing? with
    | none =>
      rw [durations_untimed _ timing, List.append_nil]
      exact ih
    | some timed =>
      obtain ⟨u, nanos⟩ := timed
      rw [durations_timed _ timing, lookup_time]
      by_cases same : t = u
      · subst same
        simpa using ih.record nanos
      · simpa [same, Ne.symm same] using ih

theorem lookup_of_mem {timers : List (Timer × Histogram)} (distinct : (timers.map Prod.fst).Nodup) {t : Timer}
    {h : Histogram} (mem : (t, h) ∈ timers) : timers.lookup t = some h := by
  obtain ⟨before, after, rfl⟩ := List.append_of_mem mem
  rw [List.map_append, List.map_cons, List.nodup_middle, List.nodup_cons, ← List.map_append] at distinct
  rw [List.lookup_eq_some_iff]
  refine ⟨before, after, rfl, ?_⟩
  intro entry hentry
  rw [bne_iff_ne]
  intro same
  have hmem : entry.1 ∈ (before ++ after).map Prod.fst := List.mem_map_of_mem (List.mem_append_left _ hentry)
  rw [← same] at hmem
  exact distinct.1 hmem

theorem holds_of_mem {notes : List Note} {t : Timer} {h : Histogram}
    (mem : (t, h) ∈ (empty.noteAll notes).timers) : h.Holds t.bounds (durations (· = t) notes) := by
  have hentered : Entered notes (empty.noteAll notes) := Entered.empty.noteAll notes
  have hholds := holds_lookup notes t
  rw [lookup_of_mem hentered.distinct mem] at hholds
  exact hholds

/-- The sum of some counters. -/
def total (p : Counter → Bool) (l : Ledger) : Nat :=
  ((l.counters.filter fun c => p c.1).map Prod.snd).sum

/-- How many durations were entered under a timer. -/
def timed (t : Timer) (l : Ledger) : Nat :=
  ((l.histogram? t).map Histogram.count).getD 0

theorem total_noteAll (p : Counter → Bool) (notes : List Note) :
    (empty.noteAll notes).total p = notes.countP fun n => p n.counter := by
  have hentered : Entered notes (empty.noteAll notes) := Entered.empty.noteAll notes
  rw [total, (hentered.tally.filter p).total, ← List.countP_eq_length_filter, List.countP_map]
  rfl

theorem timed_noteAll (t : Timer) (notes : List Note) :
    (empty.noteAll notes).timed t = notes.countP fun n => n.timing?.map Prod.fst = some t := by
  have hcount := (holds_lookup notes t).count
  rw [length_durations] at hcount
  rw [← hcount, timed, histogram?]
  cases (empty.noteAll notes).timers.lookup t <;> rfl

/-- Counters that go up with the same notes as a timer have as many observations together. -/
theorem total_eq_timed {p : Counter → Bool} {t : Timer}
    (together : ∀ n : Note, p n.counter = true ↔ n.timing?.map Prod.fst = some t) (notes : List Note) :
    (empty.noteAll notes).total p = (empty.noteAll notes).timed t := by
  rw [total_noteAll, timed_noteAll]
  apply List.countP_congr
  intro n _
  rw [together n, decide_eq_true_eq]

end Ledger

end DirectoryGateway.Telemetry
