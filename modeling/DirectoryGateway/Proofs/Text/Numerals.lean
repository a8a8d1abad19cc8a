import DirectoryGateway.Proofs.Text.Splitting
import DirectoryGateway.Text.Integer
import Mathlib.Data.Nat.Digits.Defs
import Mathlib.Tactic.Ring

/-!
# Trimmed texts and numerals

What trimming leaves is the part of a text that neither begins nor ends with a blank. A bounded reader of integers accepts
the numerals whose value is within its bound, whatever their length, and gives this value.
-/

namespace DirectoryGateway.Text

/-! ### Trimming -/

/-- A part of a text that has nothing but blanks around it and none at its ends. -/
structure Core (text core : List Char) : Prop where
  around : ∃ before after, text = before ++ core ++ after ∧ ∀ c ∈ before ++ after, isBlank c = true
  first : ∀ c, core.head? = some c → isBlank c = false
  last : ∀ c, core.getLast? = some c → isBlank c = false

theorem core_trim (cs : List Char) : Core cs (trim cs) := by
  -- Blanks go from the front, and then from the end of what is left.
  obtain ⟨hfirst, before, hfront, hbefore⟩ := dropWhile_eq_iff.mp (Eq.refl (trimLeft cs))
  obtain ⟨hlast, after, hback, hafter⟩ := reverse_dropWhile_eq_iff.mp (Eq.refl (trim cs))
  refine ⟨⟨before, after, ?_, ?_⟩, fun c hc => hfirst c ?_, hlast⟩
  · rw [List.append_assoc, ← hback]
    exact hfront
  · intro c hc
    rcases List.mem_append.mp hc with hmem | hmem
    · exact hbefore c hmem
    · exact hafter c hmem
  · rw [hback, List.head?_append, hc, Option.some_or]

theorem Core.trim_eq {text core : List Char} (h : Core text core) : trim text = core := by
  obtain ⟨before, after, rfl, hblank⟩ := h.around
  have front : ∀ c ∈ before, isBlank c = true := fun c hc => hblank c (List.mem_append_left _ hc)
  have back : ∀ c ∈ after, isBlank c = true := fun c hc => hblank c (List.mem_append_right _ hc)
  cases core with
  | nil =>
    have gone : trimLeft (before ++ [] ++ after) = [] := by
      apply dropWhile_eq_iff.mpr
      exact ⟨by simp, before ++ after, by simp, hblank⟩
    rw [trim, gone]
    rfl
  | cons c cs =>
    have left : trimLeft (before ++ c :: cs ++ after) = c :: cs ++ after :=
      dropWhile_eq_iff.mpr ⟨h.first, before, List.append_assoc _ _ _, front⟩
    rw [trim, left]
    exact reverse_dropWhile_eq_iff.mpr ⟨h.last, after, rfl, back⟩

theorem Core.mem {text core : List Char} (h : Core text core) {c : Char} (hc : c ∈ text)
    (visible : isBlank c = false) : c ∈ core := by
  obtain ⟨before, after, rfl, hblank⟩ := h.around
  simp only [List.mem_append] at hc hblank
  rcases hc with (hmem | hmem) | hmem
  · simp [hblank c (Or.inl hmem)] at visible
  · exact hmem
  · simp [hblank c (Or.inr hmem)] at visible

theorem Core.eq_nil_iff {text core : List Char} (h : Core text core) :
    core = [] ↔ ∀ c ∈ text, isBlank c = true := by
  constructor
  · rintro rfl
    obtain ⟨before, after, rfl, hblank⟩ := h.around
    simpa using hblank
  · intro hblank
    obtain ⟨before, after, rfl, -⟩ := h.around
    cases core with
    | nil => rfl
    | cons c cs =>
      have hvisible := h.first c rfl
      rw [hblank c (by simp)] at hvisible
      contradiction

theorem blank_iff (s : String) : blank s = true ↔ ∀ c ∈ s.toList, isBlank c = true := by
  rw [blank, List.isEmpty_iff]
  exact (core_trim s.toList).eq_nil_iff

theorem not_blank_iff (s : String) : blank s = false ↔ ∃ c ∈ s.toList, isBlank c = false := by
  rw [← Bool.not_eq_true, blank_iff]
  simp

/-! ### Numerals -/

/-- The number that decimal digits stand for. -/
def decimal (digits : List Char) : Nat :=
  Nat.ofDigits 10 (digits.reverse.map digitValue)

/-- Decimal digits, at least one, after an optional plus sign. -/
def Numeral (text : List Char) (n : Nat) : Prop :=
  ∃ sign digits, text = sign ++ digits ∧ (sign = [] ∨ sign = ['+']) ∧ digits ≠ [] ∧
    (∀ c ∈ digits, isDigit c = true) ∧ n = decimal digits

@[simp] theorem decimal_nil : decimal [] = 0 := rfl

theorem decimal_cons (c : Char) (cs : List Char) :
    decimal (c :: cs) = digitValue c * 10 ^ cs.length + decimal cs := by
  simp only [decimal, List.reverse_cons, List.map_append, List.map_cons, List.map_nil,
    Nat.ofDigits_append, Nat.ofDigits_singleton, List.length_map, List.length_reverse]
  ring

theorem decimal_eq_ofDigitChars (cs : List Char) : decimal cs = Nat.ofDigitChars 10 cs 0 := by
  induction cs with
  | nil => rfl
  | cons c cs ih =>
    rw [decimal_cons, ih, Nat.ofDigitChars_cons, @Nat.ofDigitChars_eq_ofDigitChars_zero cs (_ + _), Nat.mul_zero,
      Nat.zero_add, digitValue, Nat.mul_comm]

/-- Leading zeros do not change a number. -/
theorem decimal_zeros (zeros n : Nat) : decimal (List.replicate zeros '0' ++ Nat.toDigits 10 n) = n := by
  rw [decimal_eq_ofDigitChars, Nat.ofDigitChars_append, Nat.ofDigitChars_replicate_zero, Nat.mul_zero,
    Nat.ofDigitChars_ten_toDigits]

/-- The value of digits that are appended to a number, by the first of them. -/
theorem appended_cons (start : Nat) (c : Char) (cs : List Char) :
    start * 10 ^ (c :: cs).length + decimal (c :: cs) =
      (10 * start + digitValue c) * 10 ^ cs.length + decimal cs := by
  rw [decimal_cons, List.length_cons, pow_succ]
  ring

theorem isDigit_plus : isDigit '+' = false := by decide

theorem isDigit_minus : isDigit '-' = false := by decide

/-- A sign that is no digit is the sign of a numeral, or it is no numeral. -/
theorem numeral_cons_iff {c : Char} {cs : List Char} {n : Nat} (sign : isDigit c = false) :
    Numeral (c :: cs) n ↔ c = '+' ∧ cs ≠ [] ∧ (∀ d ∈ cs, isDigit d = true) ∧ n = decimal cs := by
  constructor
  · rintro ⟨s, digits, htext, rfl | rfl, hne, hdigits, rfl⟩
    · rw [List.nil_append] at htext
      have hc := hdigits c (by rw [← htext]; exact List.mem_cons_self)
      rw [sign] at hc
      contradiction
    · obtain ⟨rfl, rfl⟩ := List.cons.inj htext
      exact ⟨rfl, hne, hdigits, rfl⟩
  · rintro ⟨rfl, hne, hdigits, rfl⟩
    exact ⟨['+'], cs, rfl, Or.inr rfl, hne, hdigits, rfl⟩

theorem numeral_iff_of_unsigned {cs : List Char} {n : Nat} (unsigned : cs.head? ≠ some '+') :
    Numeral cs n ↔ cs ≠ [] ∧ (∀ d ∈ cs, isDigit d = true) ∧ n = decimal cs := by
  constructor
  · rintro ⟨s, digits, rfl, rfl | rfl, hne, hdigits, rfl⟩
    · exact ⟨hne, hdigits, rfl⟩
    · exact absurd rfl unsigned
  · rintro ⟨hne, hdigits, rfl⟩
    exact ⟨[], cs, rfl, Or.inl rfl, hne, hdigits, rfl⟩

theorem Numeral.minus_not_mem {text : List Char} {n : Nat} (h : Numeral text n) : '-' ∉ text := by
  obtain ⟨s, digits, rfl, hs, -, hdigits, -⟩ := h
  intro hmem
  rcases List.mem_append.mp hmem with hsign | hdigit
  · rcases hs with rfl | rfl
    · cases hsign
    · simp at hsign
  · have hminus := hdigits _ hdigit
    rw [isDigit_minus] at hminus
    contradiction

/-! ### Readers -/

/-- Reading goes on to the last digit exactly if the whole number is within the bound. -/
theorem appendDigits_eq_ok_iff {limit start n : Nat} {fault : IntegerFault} {cs : List Char}
    (fits : start ≤ limit) :
    appendDigits limit fault start cs = .ok n ↔
      (∀ c ∈ cs, isDigit c = true) ∧ n = start * 10 ^ cs.length + decimal cs ∧ n ≤ limit := by
  induction cs generalizing start with
  | nil =>
    simp only [appendDigits, Except.ok.injEq, List.not_mem_nil, false_implies, implies_true,
      List.length_nil, pow_zero, mul_one, decimal_nil, add_zero, true_and]
    omega
  | cons c cs ih =>
    rw [appended_cons, appendDigits]
    cases hdigit : isDigit c with
    | false =>
      simp only [Bool.false_eq_true, if_false, reduceCtorEq, false_iff]
      rintro ⟨hall, -⟩
      rw [hall c List.mem_cons_self] at hdigit
      contradiction
    | true =>
      simp only [if_true, List.mem_cons, forall_eq_or_imp, hdigit, true_and]
      by_cases hle : 10 * start + digitValue c ≤ limit
      · rw [if_pos hle]
        exact ih hle
      · rw [if_neg hle]
        simp only [reduceCtorEq, false_iff]
        rintro ⟨-, hn, hlimit⟩
        have hpow : 1 ≤ 10 ^ cs.length := Nat.one_le_pow _ _ (by decide)
        have hgrows := Nat.le_mul_of_pos_right (10 * start + digitValue c) hpow
        omega

theorem appendDigits_zero_eq_ok_iff {limit n : Nat} {fault : IntegerFault} {cs : List Char} :
    appendDigits limit fault 0 cs = .ok n ↔
      (∀ c ∈ cs, isDigit c = true) ∧ n = decimal cs ∧ n ≤ limit := by
  rw [appendDigits_eq_ok_iff (Nat.zero_le limit), Nat.zero_mul, Nat.zero_add]

/-- Digits after a plus sign are read as the numeral that they are with it. -/
theorem appendDigits_eq_ok_iff_signed {limit n : Nat} {fault : IntegerFault} {cs : List Char}
    (nonempty : cs ≠ []) : appendDigits limit fault 0 cs = .ok n ↔ Numeral ('+' :: cs) n ∧ n ≤ limit := by
  rw [appendDigits_zero_eq_ok_iff, numeral_cons_iff isDigit_plus]
  tauto

theorem appendDigits_eq_ok_iff_unsigned {limit n : Nat} {fault : IntegerFault} {cs : List Char}
    (nonempty : cs ≠ []) (unsigned : ∀ ds, cs ≠ '+' :: ds) :
    appendDigits limit fault 0 cs = .ok n ↔ Numeral cs n ∧ n ≤ limit := by
  have hhead : cs.head? ≠ some '+' := by
    intro h
    obtain ⟨ds, hds⟩ := List.head?_eq_some_iff.mp h
    exact unsigned ds hds
  rw [appendDigits_zero_eq_ok_iff, numeral_iff_of_unsigned hhead]
  tauto

theorem not_numeral_nil {n : Nat} : ¬ Numeral [] n := by
  rw [numeral_iff_of_unsigned (by simp)]
  simp

theorem not_numeral_plus {n : Nat} : ¬ Numeral ['+'] n := by
  rw [numeral_cons_iff isDigit_plus]
  simp

theorem visible_of_numeral {text : List Char} {n : Nat} (h : Numeral (trim text) n) :
    ∃ c ∈ text, isBlank c = false := by
  apply Classical.byContradiction
  intro hnone
  have hblank : ∀ c ∈ text, isBlank c = true := by simpa using hnone
  rw [(core_trim text).eq_nil_iff.mpr hblank] at h
  exact not_numeral_nil h

theorem readNat_eq_ok_iff {limit n : Nat} {cs : List Char} :
    readNat limit cs = .ok n ↔ Numeral cs n ∧ n ≤ limit := by
  unfold readNat
  split
  · simp [not_numeral_nil]
  · simp [not_numeral_plus]
  · next hplus => exact appendDigits_eq_ok_iff_signed (by simpa using hplus)
  · next hnil _ hsigned => exact appendDigits_eq_ok_iff_unsigned hnil hsigned

/-! ### Misreadings -/

/-- Digits at the beginning, after an optional plus sign, are above the bound. -/
def Passes (limit : Nat) (text : List Char) : Prop :=
  ∃ sign digits rest, text = sign ++ digits ++ rest ∧ (sign = [] ∨ sign = ['+']) ∧
    (∀ c ∈ digits, isDigit c = true) ∧ limit < decimal digits

/-- Why a text is no numeral within a bound. Digits that pass the bound come first, whatever follows them. -/
inductive Misread (limit : Nat) (text : List Char) : IntegerFault → Prop
  | empty (nothing : text = []) : Misread limit text .empty
  | tooLarge (passes : Passes limit text) : Misread limit text .tooLarge
  | invalidDigit (something : text ≠ []) (within : ¬ Passes limit text) (other : ∀ n, ¬ Numeral text n) :
    Misread limit text .invalidDigit

theorem appendDigits_eq_fault_iff {limit start : Nat} {fault : IntegerFault} {cs : List Char}
    (fits : start ≤ limit) (other : fault ≠ .invalidDigit) :
    appendDigits limit fault start cs = .error fault ↔ ∃ digits rest, cs = digits ++ rest ∧
      (∀ c ∈ digits, isDigit c = true) ∧ limit < start * 10 ^ digits.length + decimal digits := by
  induction cs generalizing start with
  | nil =>
    simp only [appendDigits, reduceCtorEq, false_iff]
    rintro ⟨digits, rest, hsplit, -, hlt⟩
    rw [(List.append_eq_nil_iff.mp hsplit.symm).1, List.length_nil, pow_zero, decimal_nil] at hlt
    omega
  | cons c cs ih =>
    -- What passes the bound has a first digit, since the start does not.
    have hfirst : (∃ digits rest, c :: cs = digits ++ rest ∧ (∀ d ∈ digits, isDigit d = true) ∧
        limit < start * 10 ^ digits.length + decimal digits) ↔
        isDigit c = true ∧ ∃ digits rest, cs = digits ++ rest ∧ (∀ d ∈ digits, isDigit d = true) ∧
          limit < (10 * start + digitValue c) * 10 ^ digits.length + decimal digits := by
      constructor
      · rintro ⟨digits, rest, hsplit, hdigits, hlt⟩
        cases digits with
        | nil =>
          rw [List.length_nil, pow_zero, decimal_nil] at hlt
          omega
        | cons d digits =>
          obtain ⟨rfl, rfl⟩ := List.cons.inj hsplit
          rw [appended_cons] at hlt
          rw [List.forall_mem_cons] at hdigits
          exact ⟨hdigits.1, digits, rest, rfl, hdigits.2, hlt⟩
      · rintro ⟨hc, digits, rest, rfl, hdigits, hlt⟩
        rw [← appended_cons] at hlt
        exact ⟨c :: digits, rest, rfl, List.forall_mem_cons.mpr ⟨hc, hdigits⟩, hlt⟩
    rw [hfirst, appendDigits]
    cases isDigit c with
    | false => simpa using other.symm
    | true =>
      by_cases hle : 10 * start + digitValue c ≤ limit
      · rw [if_pos rfl, if_pos hle, ih hle]
        exact (and_iff_right rfl).symm
      · rw [if_pos rfl, if_neg hle]
        refine ⟨fun _ => ⟨rfl, [], cs, rfl, by simp, ?_⟩, fun _ => rfl⟩
        rw [List.length_nil, pow_zero, decimal_nil]
        omega

theorem appendDigits_error {limit start : Nat} {fault reason : IntegerFault} {cs : List Char}
    (h : appendDigits limit fault start cs = .error reason) : reason = fault ∨ reason = .invalidDigit := by
  fun_induction appendDigits limit fault start cs with
  | case1 => cases h
  | case2 _ _ _ _ _ ih => exact ih h
  | case3 =>
    cases h
    exact Or.inl rfl
  | case4 =>
    cases h
    exact Or.inr rfl

theorem passes_plus_iff {limit : Nat} {cs : List Char} :
    Passes limit ('+' :: cs) ↔ ∃ digits rest, cs = digits ++ rest ∧ (∀ c ∈ digits, isDigit c = true) ∧
      limit < decimal digits := by
  constructor
  · rintro ⟨sign, digits, rest, hsplit, rfl | rfl, hdigits, hlt⟩
    · cases digits with
      | nil =>
        rw [decimal_nil] at hlt
        omega
      | cons c digits =>
        obtain ⟨rfl, -⟩ := List.cons.inj hsplit
        have hplus := hdigits '+' List.mem_cons_self
        rw [isDigit_plus] at hplus
        contradiction
    · exact ⟨digits, rest, (List.cons.inj hsplit).2, hdigits, hlt⟩
  · rintro ⟨digits, rest, rfl, hdigits, hlt⟩
    exact ⟨['+'], digits, rest, rfl, Or.inr rfl, hdigits, hlt⟩

theorem passes_unsigned_iff {limit : Nat} {cs : List Char} (unsigned : ∀ ds, cs ≠ '+' :: ds) :
    Passes limit cs ↔ ∃ digits rest, cs = digits ++ rest ∧ (∀ c ∈ digits, isDigit c = true) ∧
      limit < decimal digits := by
  constructor
  · rintro ⟨sign, digits, rest, rfl, rfl | rfl, hdigits, hlt⟩
    · exact ⟨digits, rest, rfl, hdigits, hlt⟩
    · exact absurd rfl (unsigned (digits ++ rest))
  · rintro ⟨digits, rest, rfl, hdigits, hlt⟩
    exact ⟨[], digits, rest, rfl, Or.inl rfl, hdigits, hlt⟩

theorem readNat_eq_tooLarge_iff {limit : Nat} {cs : List Char} :
    readNat limit cs = .error .tooLarge ↔ Passes limit cs := by
  unfold readNat
  split
  · simp [passes_unsigned_iff]
  · simp [passes_plus_iff]
  · rw [appendDigits_eq_fault_iff (Nat.zero_le limit) (by decide), passes_plus_iff]
    simp only [Nat.zero_mul, Nat.zero_add]
  · next hnil hbare hsigned =>
    rw [appendDigits_eq_fault_iff (Nat.zero_le limit) (by decide), passes_unsigned_iff hsigned]
    simp only [Nat.zero_mul, Nat.zero_add]

theorem readNat_error {limit : Nat} {cs : List Char} {fault : IntegerFault} (h : readNat limit cs = .error fault) :
    (fault = .empty ∧ cs = []) ∨ (cs ≠ [] ∧ (fault = .tooLarge ∨ fault = .invalidDigit)) := by
  unfold readNat at h
  split at h
  · cases h
    exact Or.inl ⟨rfl, rfl⟩
  · cases h
    exact Or.inr ⟨by simp, Or.inr rfl⟩
  · exact Or.inr ⟨by simp, appendDigits_error h⟩
  · next hnil _ _ => exact Or.inr ⟨hnil, appendDigits_error h⟩

theorem Numeral.passes {limit n : Nat} {text : List Char} (h : Numeral text n) (large : limit < n) :
    Passes limit text := by
  obtain ⟨sign, digits, rfl, hsign, -, hdigits, rfl⟩ := h
  exact ⟨sign, digits, [], (List.append_nil _).symm, hsign, hdigits, large⟩

theorem readNat_eq_error_iff {limit : Nat} {cs : List Char} {fault : IntegerFault} :
    readNat limit cs = .error fault ↔ Misread limit cs fault := by
  constructor
  · intro h
    rcases readNat_error h with ⟨rfl, nothing⟩ | ⟨something, rfl | rfl⟩
    · exact .empty nothing
    · exact .tooLarge (readNat_eq_tooLarge_iff.mp h)
    · have within : ¬ Passes limit cs := by
        intro passes
        rw [readNat_eq_tooLarge_iff.mpr passes] at h
        cases h
      refine .invalidDigit something within fun n hnumeral => ?_
      rcases Nat.lt_or_ge limit n with large | fits
      · exact within (hnumeral.passes large)
      · rw [readNat_eq_ok_iff.mpr ⟨hnumeral, fits⟩] at h
        cases h
  · intro h
    cases h with
    | empty nothing =>
      rw [nothing]
      rfl
    | tooLarge passes => exact readNat_eq_tooLarge_iff.mpr passes
    | invalidDigit something within other =>
      cases hr : readNat limit cs with
      | ok n => exact absurd (readNat_eq_ok_iff.mp hr).1 (other n)
      | error reason =>
        rcases readNat_error hr with ⟨-, nothing⟩ | ⟨-, rfl | rfl⟩
        · exact absurd nothing something
        · exact absurd (readNat_eq_tooLarge_iff.mp hr) within
        · rfl

/-! ### Signed numbers -/

theorem map_ofNat_eq_ok_iff {r : Except IntegerFault Nat} {v : Int} :
    r.map Int.ofNat = .ok v ↔ ∃ n : Nat, v = n ∧ r = .ok n := by
  cases r with
  | error fault => simp [Except.map]
  | ok n =>
    simp only [Except.map, Except.ok.injEq, Int.ofNat_eq_natCast]
    constructor
    · rintro rfl
      exact ⟨n, rfl, rfl⟩
    · rintro ⟨m, rfl, rfl⟩
      rfl

/-- A number that is read and is positive has no minus sign. -/
theorem readInt_eq_ok_iff_of_pos {limit : Nat} {v : Int} {cs : List Char} (pos : 0 < v) :
    readInt limit cs = .ok v ↔ ∃ n : Nat, v = n ∧ Numeral cs n ∧ n ≤ limit := by
  unfold readInt
  split
  · simp [not_numeral_nil]
  · simp [not_numeral_plus]
  · simp [numeral_cons_iff isDigit_minus]
  · next hplus =>
    rw [map_ofNat_eq_ok_iff]
    exact exists_congr fun n =>
      and_congr_right fun _ => appendDigits_eq_ok_iff_signed (by simpa using hplus)
  · next cs _ =>
    constructor
    · intro h
      cases hr : appendDigits (limit + 1) .tooSmall 0 cs with
      | error fault =>
        rw [hr] at h
        cases h
      | ok n =>
        rw [hr] at h
        simp only [Except.map, Except.ok.injEq, Int.ofNat_eq_natCast] at h
        omega
    · rintro ⟨n, -, hnumeral, -⟩
      exact absurd List.mem_cons_self hnumeral.minus_not_mem
  · next hnil _ _ hsigned _ =>
    rw [map_ofNat_eq_ok_iff]
    exact exists_congr fun n =>
      and_congr_right fun _ => appendDigits_eq_ok_iff_unsigned hnil hsigned

end DirectoryGateway.Text
