import DirectoryGateway.Proofs.Telemetry.Counting
import Mathlib.Algebra.BigOperators.Group.List.Basic
import Mathlib.Algebra.GroupWithZero.Nat
import Mathlib.Data.List.Basic
import Mathlib.Data.List.Induction
import Mathlib.Data.List.Nodup
import Mathlib.Data.List.Perm.Basic

/-!
# Ledgers as tallies

A ledger holds each counter and each timer that was observed once, and a counter with the number of its observations. So it depends
on what was observed, but not on the order.
-/

namespace DirectoryGateway.Telemetry

/-! ### Counters -/

structure Tally (counters : List (Counter × Nat)) (observed : List Counter) : Prop where
  distinct : (counters.map Prod.fst).Nodup
  counted : ∀ c n, (c, n) ∈ counters ↔ 0 < n ∧ n = observed.count c

namespace Ledger

theorem valueIn_of_mem {counters : List (Counter × Nat)} (distinct : (counters.map Prod.fst).Nodup)
    {c : Counter} {n : Nat} (h : (c, n) ∈ counters) : valueIn counters c = n := by
  induction counters with
  | nil => cases h
  | cons entry counters ih =>
    obtain ⟨e, m⟩ := entry
    rw [List.map_cons, List.nodup_cons] at distinct
    rw [valueIn_cons]
    rcases List.mem_cons.mp h with hhead | htail
    · cases hhead
      rw [if_pos rfl]
    · have hne : c ≠ e := by
        rintro rfl
        have hmem : c ∈ counters.map Prod.fst := List.mem_map_of_mem (f := Prod.fst) htail
        exact distinct.1 hmem
      rw [if_neg hne]
      exact ih distinct.2 htail

theorem valueIn_of_not_mem {counters : List (Counter × Nat)} {c : Counter}
    (h : c ∉ counters.map Prod.fst) : valueIn counters c = 0 := by
  induction counters with
  | nil => rfl
  | cons entry counters ih =>
    rw [List.map_cons, List.mem_cons, not_or] at h
    rw [valueIn_cons, if_neg h.1]
    exact ih h.2

theorem raise_of_not_mem {c : Counter} {counters : List (Counter × Nat)}
    (h : c ∉ counters.map Prod.fst) : raise c counters = counters ++ [(c, 1)] := by
  induction counters with
  | nil => rfl
  | cons entry counters ih =>
    rw [List.map_cons, List.mem_cons, not_or] at h
    rw [raise, if_neg (Ne.symm h.1), ih h.2]
    rfl

theorem keys_raise_of_mem {c : Counter} {counters : List (Counter × Nat)}
    (h : c ∈ counters.map Prod.fst) : (raise c counters).map Prod.fst = counters.map Prod.fst := by
  induction counters with
  | nil => cases h
  | cons entry counters ih =>
    obtain ⟨e, n⟩ := entry
    rw [raise]
    by_cases he : e = c
    · rw [if_pos he]
      rfl
    · have htail : c ∈ counters.map Prod.fst := by
        rw [List.map_cons, List.mem_cons] at h
        exact h.resolve_left (Ne.symm he)
      rw [if_neg he, List.map_cons, ih htail]
      rfl

theorem nodup_keys_raise {counters : List (Counter × Nat)} (distinct : (counters.map Prod.fst).Nodup)
    (c : Counter) : ((raise c counters).map Prod.fst).Nodup := by
  by_cases h : c ∈ counters.map Prod.fst
  · rw [keys_raise_of_mem h]
    exact distinct
  · rw [raise_of_not_mem h, List.map_append]
    exact List.Nodup.append distinct (List.nodup_singleton c) (by simpa using h)

theorem mem_keys_raise {c d : Counter} {counters : List (Counter × Nat)} :
    d ∈ (raise c counters).map Prod.fst ↔ d = c ∨ d ∈ counters.map Prod.fst := by
  by_cases h : c ∈ counters.map Prod.fst
  · rw [keys_raise_of_mem h]
    constructor
    · exact Or.inr
    · rintro (rfl | hd)
      · exact h
      · exact hd
  · rw [raise_of_not_mem h, List.map_append, List.mem_append]
    simp [or_comm]

theorem sum_raise (c : Counter) (counters : List (Counter × Nat)) :
    ((raise c counters).map Prod.snd).sum = (counters.map Prod.snd).sum + 1 := by
  induction counters with
  | nil => rfl
  | cons entry counters ih =>
    rw [raise]
    split
    · simp only [List.map_cons, List.sum_cons]
      omega
    · simp only [List.map_cons, List.sum_cons, ih]
      omega

end Ledger

namespace Tally

open Ledger

variable {counters counters' : List (Counter × Nat)} {observed observed' : List Counter}

theorem mem_keys (h : Tally counters observed) {c : Counter} :
    c ∈ counters.map Prod.fst ↔ c ∈ observed := by
  constructor
  · intro hc
    obtain ⟨⟨c, n⟩, hmem, rfl⟩ := List.mem_map.mp hc
    obtain ⟨positive, rfl⟩ := (h.counted c n).mp hmem
    exact List.count_pos_iff.mp positive
  · intro hc
    have hmem := (h.counted c _).mpr ⟨List.count_pos_iff.mpr hc, rfl⟩
    exact List.mem_map_of_mem (f := Prod.fst) hmem

theorem value (h : Tally counters observed) (c : Counter) : valueIn counters c = observed.count c := by
  by_cases hc : c ∈ observed
  · exact valueIn_of_mem h.distinct ((h.counted c _).mpr ⟨List.count_pos_iff.mpr hc, rfl⟩)
  · rw [valueIn_of_not_mem (mt h.mem_keys.mp hc), List.count_eq_zero_of_not_mem hc]

/-- Counters, each of them once, are told by their values. -/
theorem of_value (distinct : (counters.map Prod.fst).Nodup)
    (keys : ∀ c, c ∈ counters.map Prod.fst → c ∈ observed)
    (value : ∀ c, valueIn counters c = observed.count c) : Tally counters observed := by
  refine ⟨distinct, ?_⟩
  intro c n
  constructor
  · intro hmem
    have hn : n = observed.count c := by
      rw [← value c, valueIn_of_mem distinct hmem]
    have hc : c ∈ observed := keys c (List.mem_map_of_mem (f := Prod.fst) hmem)
    refine ⟨?_, hn⟩
    rw [hn]
    exact List.count_pos_iff.mpr hc
  · rintro ⟨positive, rfl⟩
    have hc : c ∈ counters.map Prod.fst := by
      by_contra hc
      rw [← value c, valueIn_of_not_mem hc] at positive
      omega
    obtain ⟨⟨d, n⟩, hmem, rfl⟩ := List.mem_map.mp hc
    rw [← value d, valueIn_of_mem distinct hmem]
    exact hmem

theorem nil : Tally [] [] := by
  refine ⟨List.nodup_nil, ?_⟩
  intro c n
  simp only [List.not_mem_nil, List.count_nil, false_iff]
  omega

theorem raise (h : Tally counters observed) (c : Counter) :
    Tally (Ledger.raise c counters) (observed ++ [c]) := by
  refine of_value (nodup_keys_raise h.distinct c) ?_ ?_
  · intro d hd
    rw [List.mem_append, List.mem_singleton]
    rcases mem_keys_raise.mp hd with rfl | hd
    · exact Or.inr rfl
    · exact Or.inl (h.mem_keys.mp hd)
  · intro d
    rw [valueIn_raise, h.value, List.count_append, List.count_singleton]
    simp only [beq_iff_eq, eq_comm (a := d)]

theorem perm (h : Tally counters observed) (same : observed.Perm observed') : Tally counters observed' := by
  refine ⟨h.distinct, ?_⟩
  intro c n
  rw [← same.count_eq]
  exact h.counted c n

/-- Two tallies of the same observations differ in their order at most. -/
theorem unique (h : Tally counters observed) (h' : Tally counters' observed) : counters.Perm counters' := by
  refine (List.perm_ext_iff_of_nodup h.distinct.of_map h'.distinct.of_map).mpr ?_
  rintro ⟨c, n⟩
  rw [h.counted, h'.counted]

theorem exists_of (observed : List Counter) :
    ∃ counters, Tally counters observed ∧ (counters.map Prod.snd).sum = observed.length := by
  induction observed using List.reverseRecOn with
  | nil => exact ⟨[], nil, rfl⟩
  | append_singleton observed c ih =>
    obtain ⟨counters, tally, total⟩ := ih
    refine ⟨Ledger.raise c counters, tally.raise c, ?_⟩
    rw [sum_raise, total, List.length_append, List.length_singleton]

theorem total (h : Tally counters observed) : (counters.map Prod.snd).sum = observed.length := by
  obtain ⟨counters', tally, total⟩ := exists_of observed
  have hsum : (counters.map Prod.snd).sum = (counters'.map Prod.snd).sum :=
    ((h.unique tally).map Prod.snd).sum_eq
  rw [hsum, total]

theorem filter (h : Tally counters observed) (p : Counter → Bool) :
    Tally (counters.filter fun entry => p entry.1) (observed.filter p) := by
  refine ⟨h.distinct.sublist ((List.filter_sublist).map Prod.fst), ?_⟩
  intro c n
  rw [List.mem_filter, h.counted]
  cases hp : p c with
  | true => simp [List.count_filter hp]
  | false =>
    have hnone : (observed.filter p).count c = 0 := by
      apply List.count_eq_zero_of_not_mem
      simp [List.mem_filter, hp]
    rw [hnone]
    simp only [Bool.false_eq_true, and_false, false_iff, not_and]
    omega

end Tally

/-! ### Ledgers -/

/-- A ledger with exactly these notes in it. -/
structure Entered (notes : List Note) (l : Ledger) : Prop where
  tally : Tally l.counters (notes.map Note.counter)
  distinct : (l.timers.map Prod.fst).Nodup
  timed : ∀ t, t ∈ l.timers.map Prod.fst ↔ t ∈ (notes.filterMap Note.timing?).map Prod.fst

namespace Ledger

theorem keys_time (t : Timer) (nanos : Nat) (timers : List (Timer × Histogram)) :
    (time t nanos timers).map Prod.fst =
      if t ∈ timers.map Prod.fst then timers.map Prod.fst else timers.map Prod.fst ++ [t] := by
  induction timers with
  | nil => rfl
  | cons entry timers ih =>
    obtain ⟨u, h⟩ := entry
    rw [time]
    by_cases hu : u = t
    · subst hu
      simp
    · have hmem : t ∈ ((u, h) :: timers).map Prod.fst ↔ t ∈ timers.map Prod.fst := by
        simp [Ne.symm hu]
      rw [if_neg hu, List.map_cons, ih]
      simp only [hmem]
      split <;> rfl

theorem keys_settle (l : Ledger) : l.settle.timers.map Prod.fst = l.timers.map Prod.fst := by
  simp [settle, Function.comp_def]

end Ledger

namespace Entered

variable {notes more : List Note} {l : Ledger}

theorem empty : Entered [] .empty :=
  ⟨.nil, List.nodup_nil, fun _ => Iff.rfl⟩

theorem note (h : Entered notes l) (n : Note) : Entered (notes ++ [n]) (l.note n) := by
  have tally : Tally (l.note n).counters ((notes ++ [n]).map Note.counter) := by
    rw [List.map_append]
    exact h.tally.raise n.counter
  -- Only a note that takes time touches the timers, and it adds its own unless that is there already.
  cases timing : n.timing? with
  | none =>
    have htimers : (l.note n).timers = l.timers := by
      rw [Ledger.note, timing]
    refine ⟨tally, ?_, ?_⟩
    · rw [htimers]
      exact h.distinct
    · intro t
      rw [htimers, h.timed]
      simp [List.filterMap_append, timing]
  | some timed =>
    obtain ⟨u, nanos⟩ := timed
    have htimers : (l.note n).timers = Ledger.time u nanos l.timers := by
      rw [Ledger.note, timing]
    have hnew : ((notes ++ [n]).filterMap Note.timing?).map Prod.fst =
        (notes.filterMap Note.timing?).map Prod.fst ++ [u] := by
      simp [List.filterMap_append, timing]
    refine ⟨tally, ?_, ?_⟩
    · rw [htimers, Ledger.keys_time]
      split
      · exact h.distinct
      · next fresh =>
        exact List.Nodup.append h.distinct (List.nodup_singleton u) (by simpa using fresh)
    · intro t
      rw [htimers, Ledger.keys_time, hnew, List.mem_append, ← h.timed, List.mem_singleton]
      split
      · next known =>
        constructor
        · exact Or.inl
        · rintro (ht | rfl)
          · exact ht
          · exact known
      · rw [List.mem_append, List.mem_singleton]

theorem noteAll (h : Entered notes l) (more : List Note) : Entered (notes ++ more) (l.noteAll more) := by
  induction more generalizing notes l with
  | nil =>
    rw [List.append_nil]
    exact h
  | cons n more ih =>
    have hrest := ih (h.note n)
    rw [List.append_assoc] at hrest
    exact hrest

theorem settle (h : Entered notes l) : Entered notes l.settle := by
  refine ⟨h.tally, ?_, ?_⟩
  · rw [Ledger.keys_settle]
    exact h.distinct
  · intro t
    rw [Ledger.keys_settle]
    exact h.timed t

end Entered

end DirectoryGateway.Telemetry
