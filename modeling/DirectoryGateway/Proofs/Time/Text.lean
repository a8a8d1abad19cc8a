import DirectoryGateway.Time.Text
import Mathlib.Algebra.GroupWithZero.Nat

/-!
# Timestamps as they are written

Reading a written timestamp gives it back: every part has its full number of digits, so the freedom of the reader finds nothing to
be free with, and an offset of zero moves nothing.
-/

namespace DirectoryGateway.Time

open DirectoryGateway.Text

/-! ### Digits -/

theorem isDigit_paddedDigits (width n : Nat) : ∀ c ∈ paddedDigits width n, isDigit c = true := by
  intro c hc
  rcases List.mem_append.mp hc with hzero | hdigit
  · rw [List.eq_of_mem_replicate hzero]
    decide
  · have digit : c.isDigit = true := Nat.isDigit_of_mem_toDigits (by omega) (by omega) hdigit
    exact digit

theorem digitsValue_paddedDigits (width n : Nat) : digitsValue (paddedDigits width n) = n := by
  show Nat.ofDigitChars 10 (List.replicate _ '0' ++ Nat.toDigits 10 n) 0 = n
  rw [Nat.ofDigitChars_append, Nat.ofDigitChars_replicate_zero, Nat.mul_zero, Nat.ofDigitChars_ten_toDigits]

theorem length_paddedDigits {width n : Nat} (positive : 0 < width) (fits : n < 10 ^ width) :
    (paddedDigits width n).length = width := by
  have short := (Nat.length_toDigits_le_iff (by omega) positive).mpr fits
  rw [paddedDigits, List.length_append, List.length_replicate]
  omega

theorem paddedDigits_ne_nil (width n : Nat) : paddedDigits width n ≠ [] := by
  intro empty
  exact Nat.toDigits_ne_nil (List.append_eq_nil_iff.mp empty).2

theorem paddedDigits_cons (width n : Nat) : ∃ c cs, paddedDigits width n = c :: cs ∧ isDigit c = true := by
  obtain ⟨c, cs, split⟩ := List.exists_cons_of_ne_nil (paddedDigits_ne_nil width n)
  exact ⟨c, cs, split, isDigit_paddedDigits width n c (by rw [split]; exact List.mem_cons_self)⟩

theorem isBlank_of_isDigit {c : Char} (digit : isDigit c = true) : isBlank c = false := by
  obtain ⟨least, greatest⟩ : 48 ≤ c.toNat ∧ c.toNat ≤ 57 := by
    simpa [isDigit, Char.le_def, UInt32.le_iff_toNat_le] using digit
  simp only [isBlank, Bool.or_eq_false_iff, Bool.and_eq_false_iff, decide_eq_false_iff_not, beq_eq_false_iff_ne]
  omega

theorem trimLeft_paddedDigits (width n : Nat) (rest : List Char) :
    trimLeft (paddedDigits width n ++ rest) = paddedDigits width n ++ rest := by
  obtain ⟨c, cs, split, digit⟩ := paddedDigits_cons width n
  rw [split, trimLeft, List.cons_append, List.dropWhile_cons_of_neg]
  simp [isBlank_of_isDigit digit]

/-- A run of digits is taken whole if it is as long as a run may be, or if none follows. -/
theorem spanDigits_append {most : Nat} {ds rest : List Char} (digits : ∀ c ∈ ds, isDigit c = true)
    (fits : ds.length ≤ most) (ends : ds.length = most ∨ ∀ c cs, rest = c :: cs → isDigit c = false) :
    spanDigits most (ds ++ rest) = (ds, rest) := by
  induction ds generalizing most with
  | nil =>
    cases most with
    | zero => rfl
    | succ most =>
      cases rest with
      | nil => rfl
      | cons c cs =>
        have stop : isDigit c = false := by
          rcases ends with full | stop
          · cases full
          · exact stop c cs rfl
        simp [spanDigits, stop]
  | cons d ds ih =>
    cases most with
    | zero => cases fits
    | succ most =>
      have first := digits d List.mem_cons_self
      have others : spanDigits most (ds ++ rest) = (ds, rest) :=
        ih (fun c hc => digits c (List.mem_cons_of_mem _ hc)) (by simpa using fits) (by simpa using ends)
      rw [List.cons_append, spanDigits, if_pos first, others]

/-! ### Parts -/

theorem readNumber_paddedDigits {width n : Nat} (positive : 0 < width) (fits : n < 10 ^ width)
    (rest : List Char) : readNumber width (paddedDigits width n ++ rest) = some (n, rest) := by
  have length := length_paddedDigits positive fits
  obtain ⟨c, cs, split, -⟩ := paddedDigits_cons width n
  rw [readNumber, trimLeft_paddedDigits, spanDigits_append (isDigit_paddedDigits width n) (by omega) (Or.inl length)]
  rw [split]
  dsimp only
  rw [← split, digitsValue_paddedDigits]

theorem readPart_paddedDigits {least greatest n : Nat} (atLeast : least ≤ n) (atMost : n ≤ greatest)
    (short : n < 100) (rest : List Char) :
    readPart least greatest (paddedDigits 2 n ++ rest) = some (n, rest) := by
  rw [readPart, readNumber_paddedDigits (by omega) short]
  exact if_pos ⟨atLeast, atMost⟩

theorem readMark_cons {mark : Char} (visible : isBlank mark = false) (rest : List Char) :
    readMark mark (mark :: rest) = some rest := by
  rw [readMark, trimLeft, List.dropWhile_cons_of_neg (by simp [visible])]
  exact if_pos rfl

/-- A year behind a sign may have any number of digits; the mark behind it ends it. -/
theorem spanDigits_year (n : Nat) (rest : List Char) :
    spanDigits (paddedDigits 4 n ++ '-' :: rest).length (paddedDigits 4 n ++ '-' :: rest) =
      (paddedDigits 4 n, '-' :: rest) := by
  refine spanDigits_append (isDigit_paddedDigits 4 n) ?_ (Or.inr ?_)
  · rw [List.length_append]
    omega
  · rintro c cs split
    cases split
    decide

theorem readYear_minus (n : Nat) (rest : List Char) :
    readYear ('-' :: (paddedDigits 4 n ++ '-' :: rest)) = some (-(n : Int), '-' :: rest) := by
  have start : trimLeft ('-' :: (paddedDigits 4 n ++ '-' :: rest)) = '-' :: (paddedDigits 4 n ++ '-' :: rest) :=
    List.dropWhile_cons_of_neg (by decide)
  obtain ⟨c, cs, digits, -⟩ := paddedDigits_cons 4 n
  rw [readYear, start]
  split
  · next heq =>
    obtain rfl := List.tail_eq_of_cons_eq heq
    rw [spanDigits_year, digits]
    dsimp only
    rw [← digits, digitsValue_paddedDigits]
  · next heq => exact absurd (List.head_eq_of_cons_eq heq) (by decide)
  · next other _ => exact absurd rfl (other _)

theorem readYear_plus (n : Nat) (rest : List Char) :
    readYear ('+' :: (paddedDigits 4 n ++ '-' :: rest)) = some ((n : Int), '-' :: rest) := by
  have start : trimLeft ('+' :: (paddedDigits 4 n ++ '-' :: rest)) = '+' :: (paddedDigits 4 n ++ '-' :: rest) :=
    List.dropWhile_cons_of_neg (by decide)
  obtain ⟨c, cs, digits, -⟩ := paddedDigits_cons 4 n
  rw [readYear, start]
  split
  · next heq => exact absurd (List.head_eq_of_cons_eq heq) (by decide)
  · next heq =>
    obtain rfl := List.tail_eq_of_cons_eq heq
    rw [spanDigits_year, digits]
    dsimp only
    rw [← digits, digitsValue_paddedDigits]
  · next other => exact absurd rfl (other _)

theorem readYear_plain {n : Nat} (fits : n < 10 ^ 4) (rest : List Char) :
    readYear (paddedDigits 4 n ++ '-' :: rest) = some ((n : Int), '-' :: rest) := by
  have number : readNumber 4 (paddedDigits 4 n ++ '-' :: rest) = some (n, '-' :: rest) :=
    readNumber_paddedDigits (by omega) fits _
  have start := trimLeft_paddedDigits 4 n ('-' :: rest)
  obtain ⟨c, cs, split, digit⟩ := paddedDigits_cons 4 n
  rw [split, List.cons_append] at start number ⊢
  rw [readYear, start]
  -- A digit is no sign.
  split
  · next heq =>
    rw [List.head_eq_of_cons_eq heq] at digit
    cases digit
  · next heq =>
    rw [List.head_eq_of_cons_eq heq] at digit
    cases digit
  · rw [number]
    rfl

theorem readYear_yearText (year : Int) (rest : List Char) :
    readYear (yearText year ++ '-' :: rest) = some (year, '-' :: rest) := by
  rw [yearText]
  by_cases plain : 0 ≤ year ∧ year ≤ 9999
  · rw [if_pos plain, readYear_plain (by omega), Int.toNat_of_nonneg plain.1]
  · rw [if_neg plain]
    by_cases negative : year < 0
    · have value : -(year.natAbs : Int) = year := by omega
      rw [if_pos negative, List.cons_append, readYear_minus, value]
    · have value : (year.natAbs : Int) = year := by omega
      rw [if_neg negative, List.cons_append, readYear_plus, value]

theorem readFraction_digits {width n : Nat} (positive : 0 < width) (atMost : width ≤ 9) (fits : n < 10 ^ width) :
    readFraction ('.' :: paddedDigits width n ++ ['Z']) = some (n * 10 ^ (9 - width), ['Z']) := by
  have length := length_paddedDigits positive fits
  have value := digitsValue_paddedDigits width n
  have run : spanDigits 9 (paddedDigits width n ++ ['Z']) = (paddedDigits width n, ['Z']) := by
    refine spanDigits_append (isDigit_paddedDigits width n) (by omega) (Or.inr ?_)
    rintro c cs split
    cases split
    decide
  obtain ⟨c, cs, split, -⟩ := paddedDigits_cons width n
  rw [List.cons_append, readFraction, run]
  rw [split] at length value ⊢
  dsimp only
  rw [value, length]
  rfl

/-- Of a fraction as many digits are written as are exact. -/
theorem readFraction_fractionText {nanos : Nat} (fits : nanos < 1000000000) :
    readFraction (fractionText nanos ++ ['Z']) = some (nanos, ['Z']) := by
  rw [fractionText]
  by_cases none : nanos = 0
  · rw [if_pos none, none]
    rfl
  · rw [if_neg none]
    by_cases millis : nanos % 1000000 = 0
    · have value : nanos / 1000000 * 10 ^ (9 - 3) = nanos := by omega
      rw [if_pos millis, readFraction_digits (by omega) (by omega) (by omega), value]
    · rw [if_neg millis]
      by_cases micros : nanos % 1000 = 0
      · have value : nanos / 1000 * 10 ^ (9 - 6) = nanos := by omega
        rw [if_pos micros, readFraction_digits (by omega) (by omega) (by omega), value]
      · rw [if_neg micros, readFraction_digits (by omega) (by omega) (by omega), Nat.sub_self, pow_zero, mul_one]

/-! ### Whole timestamps -/

theorem monthLength_le (year : Int) (month : Nat) : monthLength year month ≤ 31 := by
  unfold monthLength
  repeat' split
  all_goals omega

theorem valid_iff {t : Timestamp} :
    t.valid = true ↔ isYear t.year = true ∧ 1 ≤ t.month ∧ t.month ≤ 12 ∧ 1 ≤ t.day ∧
      t.day ≤ monthLength t.year t.month ∧ t.hour ≤ 23 ∧ t.minute ≤ 59 ∧ t.second ≤ 60 ∧ t.nanos < 1000000000 := by
  simp only [Timestamp.valid, Bool.and_eq_true, decide_eq_true_eq, and_assoc]

theorem readParts_text {t : Timestamp} (valid : t.valid = true) :
    Timestamp.readParts t.text = some (t, 0, []) := by
  obtain ⟨-, monthLeast, monthMost, dayLeast, dayMost, hour, minute, second, nanos⟩ := valid_iff.mp valid
  have dayMost := Nat.le_trans dayMost (monthLength_le _ _)
  have dash : ∀ rest, readMark '-' ('-' :: rest) = some rest := readMark_cons (by decide)
  have colon : ∀ rest, readMark ':' (':' :: rest) = some rest := readMark_cons (by decide)
  have month := readPart_paddedDigits monthLeast monthMost (by omega)
  have day := readPart_paddedDigits dayLeast dayMost (by omega)
  have hour := readPart_paddedDigits (Nat.zero_le _) hour (by omega)
  have minute := readPart_paddedDigits (Nat.zero_le _) minute (by omega)
  have second := readPart_paddedDigits (Nat.zero_le _) second (by omega)
  have divider : ∀ rest, readDivider ('T' :: rest) = some rest := fun _ => rfl
  have offset : readOffset (trimLeft ['Z']) = some (0, []) := rfl
  simp only [Timestamp.text, Timestamp.readParts, List.append_assoc, List.cons_append, readYear_yearText, dash,
    month, day, divider, hour, colon, minute, second, readFraction_fractionText nanos, offset, Option.bind_eq_bind,
    Option.bind_some]
  rfl

theorem earlierBy_zero {t : Timestamp} (valid : t.valid = true) : t.earlierBy 0 = t := by
  obtain ⟨-, -, -, -, -, hour, minute, -, -⟩ := valid_iff.mp valid
  have clock : (((t.hour : Int) * 60 + t.minute - 0) % 1440).toNat = t.hour * 60 + t.minute := by omega
  have early : ¬ ((t.hour : Int) * 60 + t.minute - 0 < 0) := by omega
  have late : ¬ ((1440 : Int) ≤ (t.hour : Int) * 60 + t.minute - 0) := by omega
  have hours : (t.hour * 60 + t.minute) / 60 = t.hour := by omega
  have minutes : (t.hour * 60 + t.minute) % 60 = t.minute := by omega
  rw [Timestamp.earlierBy]
  simp only [clock, if_neg early, if_neg late, hours, minutes]

theorem read?_text {t : Timestamp} (valid : t.valid = true) : Timestamp.read? t.text = some t := by
  rw [Timestamp.read?, readParts_text valid]
  dsimp only
  rw [earlierBy_zero valid, if_pos ⟨by decide, valid, by decide⟩, if_pos valid]

end DirectoryGateway.Time
