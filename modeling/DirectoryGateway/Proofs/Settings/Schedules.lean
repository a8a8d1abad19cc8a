import DirectoryGateway.Proofs.Settings.Acceptance
import Mathlib.Algebra.Order.BigOperators.Group.List

/-!
# Schedules as they are written

Delays that are written one after the other with commas between them are read back, whatever blanks stand around them and
however many zeros in front. What is not such a text is refused for its first part that is no delay; the total is only
found too long once there is no such part.
-/

namespace DirectoryGateway.Settings

open DirectoryGateway.Text

/-! ### Writing -/

/-- What stands around the decimal form of a delay. -/
structure Layout where
  before : List Char
  zeros : Nat
  after : List Char
  blank : ∀ c ∈ before ++ after, isBlank c = true

def Layout.write (l : Layout) (delay : Nat) : List Char :=
  l.before ++ (List.replicate l.zeros '0' ++ (toString delay).toList) ++ l.after

def writeBackoff (entries : List (Layout × Nat)) : String :=
  String.ofList ([','].intercalate (entries.map fun entry => entry.1.write entry.2))

variable {delay : Nat}

theorem isDigit_written {zeros : Nat} {c : Char} (h : c ∈ List.replicate zeros '0' ++ Nat.toDigits 10 delay) :
    isDigit c = true := by
  rcases List.mem_append.mp h with hzero | hdigit
  · rw [List.eq_of_mem_replicate hzero]
    decide
  · exact Nat.isDigit_of_mem_toDigits (by decide) (by decide) hdigit

theorem not_blank_of_digit {c : Char} (h : isDigit c = true) : isBlank c = false := by
  simp only [isDigit, Bool.and_eq_true, decide_eq_true_eq] at h
  have hleast : 48 ≤ c.toNat := h.1
  have hgreatest : c.toNat ≤ 57 := h.2
  simp only [isBlank, Bool.or_eq_false_iff, Bool.and_eq_false_iff, decide_eq_false_iff_not, beq_eq_false_iff_ne]
  omega

theorem Layout.core_write (l : Layout) (delay : Nat) :
    Core (l.write delay) (List.replicate l.zeros '0' ++ Nat.toDigits 10 delay) := by
  refine ⟨⟨l.before, l.after, ?_, l.blank⟩, fun c hc => ?_, fun c hc => ?_⟩
  · rw [Layout.write, Nat.toString_eq_repr, Nat.toList_repr]
  · exact not_blank_of_digit (isDigit_written (List.mem_of_mem_head? hc))
  · exact not_blank_of_digit (isDigit_written (List.mem_of_mem_getLast? hc))

theorem Layout.numeral_write (l : Layout) (delay : Nat) : Numeral (trim (l.write delay)) delay := by
  rw [(l.core_write delay).trim_eq]
  refine ⟨[], _, rfl, Or.inl rfl, ?_, fun c hc => isDigit_written hc, (decimal_zeros _ _).symm⟩
  intro hnil
  exact Nat.toDigits_ne_nil (List.append_eq_nil_iff.mp hnil).2

theorem Layout.comma_not_mem (l : Layout) (delay : Nat) : ',' ∉ l.write delay := by
  intro h
  have hcore := (l.core_write delay).mem h (by decide)
  have hdigit := isDigit_written hcore
  contradiction

theorem splitOn_writeBackoff {entries : List (Layout × Nat)} (nonempty : entries ≠ []) :
    (writeBackoff entries).toList.splitOn ',' = entries.map fun entry => entry.1.write entry.2 := by
  rw [writeBackoff, String.toList_ofList]
  apply List.splitOn_intercalate
  · intro part hpart
    obtain ⟨entry, -, rfl⟩ := List.mem_map.mp hpart
    exact entry.1.comma_not_mem entry.2
  · simpa using nonempty

theorem visible_writeBackoff {entries : List (Layout × Nat)} (nonempty : entries ≠ []) :
    ∃ c ∈ (writeBackoff entries).toList, isBlank c = false := by
  obtain ⟨entry, rest, rfl⟩ := List.exists_cons_of_ne_nil nonempty
  obtain ⟨c, hc, visible⟩ := visible_of_numeral (entry.1.numeral_write entry.2)
  refine ⟨c, ?_, visible⟩
  rw [writeBackoff, String.toList_ofList, List.map_cons]
  cases rest with
  | nil => simpa using hc
  | cons next rest => simp [hc]

theorem readBackoff_writeBackoff {entries : List (Layout × Nat)} (short : (entries.map Prod.snd).sum < 60000) :
    readBackoff (writeBackoff entries) = .ok (entries.map Prod.snd) := by
  apply readBackoff_eq_ok_iff.mpr
  by_cases nonempty : entries = []
  · subst nonempty
    exact Or.inl ⟨by simp [writeBackoff], rfl⟩
  · refine Or.inr ⟨visible_writeBackoff nonempty, ?_, short⟩
    rw [splitOn_writeBackoff nonempty, List.forall₂_map_left_iff, List.forall₂_map_right_iff, List.forall₂_same]
    intro entry hentry
    have hle := List.le_sum_of_mem (List.mem_map_of_mem (f := Prod.snd) hentry)
    exact ⟨entry.1.numeral_write entry.2, by omega⟩

/-! ### Refusals -/

/-- A part that is no delay, with what is reported of it. -/
inductive Offends (part : List Char) : BackoffFault → Prop
  | unreadable {reason : IntegerFault} (misread : Misread maxWord64 (trim part) reason) :
    Offends part (.unreadable (String.ofList (trim part)) reason)
  | tooLong {delay : Nat} (numeral : Numeral (trim part) delay) (long : 60000 < delay)
      (word : delay ≤ maxWord64) : Offends part (.tooLong delay)

/-- The first part that is no delay is reported, and the total if there is no such part. -/
inductive Refused (parts : List (List Char)) : BackoffFault → Prop
  | part (before : List (List Char)) (part : List Char) (after : List (List Char)) {fault : BackoffFault}
      (split : parts = before ++ part :: after) (fine : ∀ earlier ∈ before, ∃ delay, WrittenDelay earlier delay)
      (offends : Offends part fault) : Refused parts fault
  | total {delays : List Nat} (each : List.Forall₂ WrittenDelay parts delays) (long : 60000 ≤ delays.sum) :
    Refused parts (.totalTooLong delays.sum)

theorem readDelay_eq_error_iff {part : List Char} {fault : BackoffFault} :
    readDelay part = .error fault ↔ Offends part fault := by
  unfold readDelay
  constructor
  · intro h
    cases hr : readNat maxWord64 (trim part) with
    | error reason =>
      rw [hr] at h
      cases h
      exact .unreadable (readNat_eq_error_iff.mp hr)
    | ok delay =>
      rw [hr] at h
      dsimp only at h
      split at h
      · cases h
      · next hlong =>
        cases h
        obtain ⟨numeral, word⟩ := readNat_eq_ok_iff.mp hr
        exact .tooLong numeral (Nat.lt_of_not_le hlong) word
  · intro h
    cases h with
    | unreadable misread => rw [readNat_eq_error_iff.mpr misread]
    | tooLong numeral long word =>
      rw [readNat_eq_ok_iff.mpr ⟨numeral, word⟩]
      exact if_neg (Nat.not_le_of_lt long)

/-- Where the first bad element of a list stands: it is the head, or the head is fine and it stands in the tail. -/
theorem exists_first_cons_iff {α : Type} {fine bad : α → Prop} {x : α} {xs : List α} :
    (∃ before y after, x :: xs = before ++ y :: after ∧ (∀ earlier ∈ before, fine earlier) ∧ bad y) ↔
      bad x ∨ (fine x ∧
        ∃ before y after, xs = before ++ y :: after ∧ (∀ earlier ∈ before, fine earlier) ∧ bad y) := by
  constructor
  · rintro ⟨before, y, after, hsplit, hbefore, hbad⟩
    cases before with
    | nil =>
      obtain ⟨rfl, rfl⟩ := List.cons.inj hsplit
      exact Or.inl hbad
    | cons earlier before =>
      obtain ⟨rfl, rfl⟩ := List.cons.inj hsplit
      rw [List.forall_mem_cons] at hbefore
      exact Or.inr ⟨hbefore.1, before, y, after, rfl, hbefore.2, hbad⟩
  · rintro (hbad | ⟨hfine, before, y, after, rfl, hbefore, hbad⟩)
    · exact ⟨[], x, xs, rfl, by simp, hbad⟩
    · exact ⟨x :: before, y, after, rfl, List.forall_mem_cons.mpr ⟨hfine, hbefore⟩, hbad⟩

theorem readDelays_eq_error_iff {parts : List (List Char)} {fault : BackoffFault} :
    readDelays parts = .error fault ↔ ∃ before part after, parts = before ++ part :: after ∧
      (∀ earlier ∈ before, ∃ delay, WrittenDelay earlier delay) ∧ Offends part fault := by
  induction parts with
  | nil => simp [readDelays]
  | cons part parts ih =>
    rw [exists_first_cons_iff, ← ih, ← readDelay_eq_error_iff, readDelays]
    simp only [← readDelay_eq_ok_iff]
    cases readDelay part with
    | error fault => simp
    | ok delay => cases readDelays parts <;> simp

theorem readBackoff_eq_error_iff {text : String} {fault : BackoffFault} :
    readBackoff text = .error fault ↔
      (∃ c ∈ text.toList, isBlank c = false) ∧ Refused (text.toList.splitOn ',') fault := by
  have hlimit : 1000 * requestSeconds = 60000 := rfl
  rw [← not_blank_iff, readBackoff, ← splitAt_eq_splitOn, hlimit]
  cases blank text with
  | true => simp
  | false =>
    rw [if_neg Bool.false_ne_true, and_iff_right rfl]
    constructor
    · intro h
      cases hr : readDelays (splitAt ',' text.toList) with
      | error fault' =>
        rw [hr] at h
        cases h
        obtain ⟨before, part, after, split, fine, offends⟩ := readDelays_eq_error_iff.mp hr
        exact .part before part after split fine offends
      | ok delays =>
        rw [hr] at h
        dsimp only at h
        split at h
        · cases h
        · next hlong =>
          cases h
          exact .total (readDelays_eq_ok_iff.mp hr) (Nat.le_of_not_lt hlong)
    · intro h
      cases h with
      | part _ _ _ split fine offends => rw [readDelays_eq_error_iff.mpr ⟨_, _, _, split, fine, offends⟩]
      | total each long =>
        rw [readDelays_eq_ok_iff.mpr each]
        exact if_neg (Nat.not_lt_of_le long)

theorem written_of_mem {parts : List (List Char)} {delays : List Nat} (h : List.Forall₂ WrittenDelay parts delays) :
    ∀ part ∈ parts, ∃ delay, WrittenDelay part delay := by
  induction h with
  | nil => simp
  | cons first _ ih => exact List.forall_mem_cons.mpr ⟨⟨_, first⟩, ih⟩

/-- A schedule is read exactly if it is blank, or its parts are delays that are shorter than a minute all together. What is
written for such delays is read back. An empty part is refused if there is anything beside it, and of all parts the first that
is no delay is reported; only without such a part it is the total. -/
theorem schedules_are_read_exactly :
    (∀ text delays, readBackoff text = .ok delays ↔ WrittenSchedule text delays) ∧
    (∀ entries : List (Layout × Nat), (entries.map Prod.snd).sum < 60000 →
      readBackoff (writeBackoff entries) = .ok (entries.map Prod.snd)) ∧
    (∀ text : String, (∃ c ∈ text.toList, isBlank c = false) →
      (∃ part ∈ text.toList.splitOn ',', ∀ c ∈ part, isBlank c = true) →
      ∃ fault, readBackoff text = .error fault) ∧
    ∀ text fault, readBackoff text = .error fault ↔
      (∃ c ∈ text.toList, isBlank c = false) ∧ Refused (text.toList.splitOn ',') fault := by
  refine ⟨fun _ _ => readBackoff_eq_ok_iff, fun _ => readBackoff_writeBackoff, ?_, fun _ _ => readBackoff_eq_error_iff⟩
  rintro text ⟨c, hc, visible⟩ ⟨part, hpart, hblank⟩
  cases hr : readBackoff text with
  | error fault => exact ⟨fault, rfl⟩
  | ok delays =>
    rcases readBackoff_eq_ok_iff.mp hr with ⟨hall, -⟩ | ⟨-, each, -⟩
    · rw [hall c hc] at visible
      contradiction
    · obtain ⟨delay, written⟩ := written_of_mem each part hpart
      obtain ⟨d, hd, hvisible⟩ := visible_of_numeral written.1
      rw [hblank d hd] at hvisible
      contradiction

/-- Delays of 7 and 59992 milliseconds, the first with blanks and zeros. -/
def paddedEntries : List (Layout × Nat) :=
  [(⟨[' '], 2, ['\t'], List.all_eq_true.mp (by decide)⟩, 7), (⟨[], 0, [], by simp⟩, 59992)]

theorem padded_schedule_and_four_refusals :
    (writeBackoff paddedEntries = " 007\t,59992" ∧ readBackoff (writeBackoff paddedEntries) = .ok [7, 59992]) ∧
    (∃ fault, readBackoff "1,,2" = .error fault) ∧
    readBackoff "30000, +30000" = .error (.totalTooLong 60000) ∧
    readBackoff "1,60001,x" = .error (.tooLong 60001) ∧
    readBackoff "18446744073709551616x,60001" = .error (.unreadable "18446744073709551616x" .tooLarge) := by
  obtain ⟨-, written, empty, refused⟩ := schedules_are_read_exactly
  refine ⟨⟨by decide, written paddedEntries (by decide)⟩, ?_, ?_, ?_, ?_⟩
  · exact empty "1,,2" ⟨'1', by decide, by decide⟩ ⟨[], by decide, by simp⟩
  · have first : WrittenDelay "30000".toList 30000 := readDelay_eq_ok_iff.mp (by decide +kernel)
    have second : WrittenDelay " +30000".toList 30000 := readDelay_eq_ok_iff.mp (by decide +kernel)
    exact (refused _ _).mpr ⟨⟨'3', by decide, by decide⟩, .total (.cons first (.cons second .nil)) (by decide)⟩
  · have fine : WrittenDelay ['1'] 1 := readDelay_eq_ok_iff.mp (by decide +kernel)
    have offends : Offends "60001".toList (.tooLong 60001) := readDelay_eq_error_iff.mp (by decide +kernel)
    have earlier : ∀ part ∈ [['1']], ∃ delay, WrittenDelay part delay := by simpa using ⟨1, fine⟩
    exact (refused _ _).mpr ⟨⟨'1', by decide, by decide⟩, .part [['1']] _ [['x']] rfl earlier offends⟩
  · have passes : Passes maxWord64 "18446744073709551616x".toList :=
      ⟨[], "18446744073709551616".toList, ['x'], rfl, Or.inl rfl, List.all_eq_true.mp (by decide),
        by decide +kernel⟩
    have untrimmed : trim "18446744073709551616x".toList = "18446744073709551616x".toList := by decide +kernel
    have offends : Offends "18446744073709551616x".toList (.unreadable "18446744073709551616x" .tooLarge) := by
      have misread := Misread.tooLarge passes
      rw [← untrimmed] at misread
      exact .unreadable misread
    exact (refused _ _).mpr ⟨⟨'1', by decide, by decide⟩, .part [] _ ["60001".toList] rfl (by simp) offends⟩

end DirectoryGateway.Settings
