import DirectoryGateway.Telemetry.Ledger

/-!
# What counters count

A counter's value goes up by one with each observation that belongs to it, and with no other; timers are no part of it.
-/

namespace DirectoryGateway.Telemetry.Ledger

theorem lookup_cons_eq_ite {κ ν : Type} [DecidableEq κ] (key k : κ) (v : ν) (entries : List (κ × ν)) :
    ((k, v) :: entries).lookup key = if key = k then some v else entries.lookup key := by
  by_cases h : key = k
  · subst h
    simp
  · have hne : (key == k) = false := beq_false_of_ne h
    rw [List.lookup_cons, hne, if_neg h]

def valueIn (counters : List (Counter × Nat)) (c : Counter) : Nat :=
  (counters.lookup c).getD 0

theorem valueIn_cons (e c : Counter) (n : Nat) (counters : List (Counter × Nat)) :
    valueIn ((e, n) :: counters) c = if c = e then n else valueIn counters c := by
  rw [valueIn, lookup_cons_eq_ite]
  split <;> rfl

theorem valueIn_raise (c d : Counter) (counters : List (Counter × Nat)) :
    valueIn (raise c counters) d = valueIn counters d + if d = c then 1 else 0 := by
  induction counters with
  | nil =>
    have hempty : valueIn [] d = 0 := rfl
    rw [raise, valueIn_cons, hempty, Nat.zero_add]
  | cons entry counters ih =>
    obtain ⟨e, n⟩ := entry
    rw [raise]
    by_cases hc : e = c
    · subst hc
      rw [if_pos rfl, valueIn_cons, valueIn_cons]
      split <;> rfl
    · rw [if_neg hc, valueIn_cons, valueIn_cons, ih]
      by_cases h : d = e
      · subst h
        rw [if_pos rfl, if_pos rfl, if_neg hc, Nat.add_zero]
      · rw [if_neg h, if_neg h]

theorem noteAll_append (l : Ledger) (notes more : List Note) :
    l.noteAll (notes ++ more) = (l.noteAll notes).noteAll more :=
  List.foldl_append

theorem value_note (l : Ledger) (n : Note) (c : Counter) :
    (l.note n).value c = l.value c + if c = n.counter then 1 else 0 :=
  valueIn_raise n.counter c l.counters

theorem value_noteAll (l : Ledger) (notes : List Note) (c : Counter) :
    (l.noteAll notes).value c = l.value c + (notes.map Note.counter).count c := by
  induction notes generalizing l with
  | nil => rfl
  | cons n notes ih =>
    have hrest : (l.noteAll (n :: notes)).value c = (l.note n).value c + (notes.map Note.counter).count c :=
      ih (l.note n)
    rw [hrest, value_note, List.map_cons, List.count_cons]
    simp only [beq_iff_eq, eq_comm (a := c)]
    omega

end DirectoryGateway.Telemetry.Ledger
