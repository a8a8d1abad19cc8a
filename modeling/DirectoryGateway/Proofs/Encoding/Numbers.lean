import DirectoryGateway.Bytes
import Mathlib.Algebra.Group.Nat.Defs
import Mathlib.Data.List.Induction

/-!
# Bytes as numbers

Byte lists and the numbers that they write, most significant byte first. Every number has one form without leading zero
bytes, and a byte list without leading zero bytes is the form of its number.
-/

namespace DirectoryGateway.Bytes

/-! ### Values -/

theorem toNat_concat (bytes : List UInt8) (b : UInt8) :
    toNat (bytes ++ [b]) = toNat bytes * 256 + b.toNat := by
  rw [toNat, List.foldl_append]
  rfl

@[simp] theorem length_ofNat (width n : Nat) : (ofNat width n).length = width := by
  induction width generalizing n with
  | zero => rfl
  | succ width ih => simp [ofNat, ih]

theorem toNat_lt (bytes : List UInt8) : toNat bytes < 256 ^ bytes.length := by
  induction bytes using List.reverseRecOn with
  | nil => simp [toNat]
  | append_singleton bytes b ih =>
    have hb : b.toNat < 256 := b.toNat_lt
    rw [toNat_concat, List.length_append, List.length_singleton, Nat.pow_succ]
    omega

theorem ofNat_toNat {width : Nat} {bytes : List UInt8} (h : bytes.length = width) :
    ofNat width (toNat bytes) = bytes := by
  subst h
  induction bytes using List.reverseRecOn with
  | nil => rfl
  | append_singleton bytes b ih =>
    have hb : b.toNat < 256 := b.toNat_lt
    have high : (toNat bytes * 256 + b.toNat) / 256 = toNat bytes := by omega
    have low : (toNat bytes * 256 + b.toNat) % 256 = b.toNat := by omega
    rw [toNat_concat, List.length_append, List.length_singleton, ofNat, high, low, ih,
      UInt8.ofNat_toNat]

theorem toNat_ofNat (width n : Nat) : toNat (ofNat width n) = n % 256 ^ width := by
  induction width generalizing n with
  | zero =>
    rw [ofNat, Nat.pow_zero, Nat.mod_one]
    rfl
  | succ width ih =>
    have hlow : (UInt8.ofNat (n % 256)).toNat = n % 256 := by
      rw [UInt8.toNat_ofNat']
      exact Nat.mod_mod n 256
    rw [ofNat, toNat_concat, ih, hlow, Nat.pow_succ, Nat.mul_comm (256 ^ width), Nat.mod_mul]
    omega

theorem lt_of_width (n : Nat) : n < 256 ^ width n := by
  unfold width
  split
  · next hzero => simp [hzero]
  · next hne =>
    have hlog : n < 2 ^ (n.log2 + 1) := Nat.lt_log2_self
    have hpow : 256 ^ (n.log2 / 8 + 1) = 2 ^ (8 * (n.log2 / 8 + 1)) := by
      rw [Nat.pow_mul]
    have hle : 2 ^ (n.log2 + 1) ≤ 2 ^ (8 * (n.log2 / 8 + 1)) :=
      Nat.pow_le_pow_right (by omega) (by omega)
    omega

theorem toNat_cons (b : UInt8) (bytes : List UInt8) :
    toNat (b :: bytes) = b.toNat * 256 ^ bytes.length + toNat bytes := by
  induction bytes using List.reverseRecOn with
  | nil => simp [toNat]
  | append_singleton bytes c ih =>
    rw [← List.cons_append, toNat_concat, ih, toNat_concat, List.length_append, List.length_singleton,
      Nat.pow_succ, Nat.add_mul, Nat.mul_assoc, Nat.add_assoc]

/-! ### Leading zeros -/

theorem toNat_significant (bytes : List UInt8) : toNat (significant bytes) = toNat bytes := by
  induction bytes with
  | nil => rfl
  | cons b bytes ih =>
    cases hb : b == 0 with
    | true =>
      have hzero : b = 0 := beq_iff_eq.mp hb
      rw [significant, List.dropWhile_cons, hb, if_pos rfl, toNat_cons, hzero]
      rw [significant] at ih
      simp [ih]
    | false =>
      rw [significant, List.dropWhile_cons, hb, if_neg Bool.false_ne_true]

theorem toNat_eq_zero_iff {bytes : List UInt8} : toNat bytes = 0 ↔ ∀ b ∈ bytes, b = 0 := by
  induction bytes with
  | nil => simp [toNat]
  | cons b bytes ih =>
    have hpow : 256 ^ bytes.length ≠ 0 := Nat.ne_of_gt (Nat.pow_pos (by decide))
    have hb : b.toNat = 0 ↔ b = 0 := UInt8.toNat_inj (b := 0)
    rw [toNat_cons, Nat.add_eq_zero_iff, ih, Nat.mul_eq_zero, or_iff_left hpow, hb, List.forall_mem_cons]

theorem toNat_replicate_append (zeros : Nat) (bytes : List UInt8) :
    toNat (List.replicate zeros 0 ++ bytes) = toNat bytes := by
  induction zeros with
  | zero => rfl
  | succ zeros ih =>
    rw [List.replicate_succ, List.cons_append, toNat_cons, ih, UInt8.toNat_zero, Nat.zero_mul, Nat.zero_add]

theorem significant_head (bytes : List UInt8) : (significant bytes).head? ≠ some 0 := by
  intro h
  have hfalse := List.head?_dropWhile_not (fun b : UInt8 => b == 0) bytes
  rw [significant] at h
  simp [h] at hfalse

theorem length_significant_le (bytes : List UInt8) : (significant bytes).length ≤ bytes.length :=
  (List.dropWhile_suffix _).length_le

theorem le_toNat_of_head {b : UInt8} (bytes : List UInt8) (h : b ≠ 0) :
    256 ^ bytes.length ≤ toNat (b :: bytes) := by
  have hb : 1 ≤ b.toNat := by
    rcases Nat.eq_zero_or_pos b.toNat with hzero | hpos
    · exact absurd (UInt8.toNat_inj.mp hzero) h
    · exact hpos
  have hle : 1 * 256 ^ bytes.length ≤ b.toNat * 256 ^ bytes.length := Nat.mul_le_mul_right _ hb
  rw [toNat_cons]
  omega

/-! ### Shortest forms -/

theorem width_le {n k : Nat} (h : n < 256 ^ k) : width n ≤ k := by
  unfold width
  split
  · next hzero => exact Nat.zero_le k
  · next hne =>
    have hpow : 256 ^ k = 2 ^ (8 * k) := by rw [Nat.pow_mul]
    rw [hpow] at h
    have hlog : n.log2 < 8 * k := (Nat.log2_lt hne).mpr h
    omega

theorem width_mono {m n : Nat} (h : m ≤ n) : width m ≤ width n :=
  width_le (Nat.lt_of_le_of_lt h (lt_of_width n))

theorem lt_width {n k : Nat} (h : 256 ^ k ≤ n) : k < width n := by
  apply Nat.lt_of_not_le
  intro hle
  have hlt := lt_of_width n
  have hmono : 256 ^ width n ≤ 256 ^ k := Nat.pow_le_pow_right (by omega) hle
  omega

@[simp] theorem length_minimal (n : Nat) : (minimal n).length = width n :=
  length_ofNat _ n

@[simp] theorem toNat_minimal (n : Nat) : toNat (minimal n) = n := by
  rw [minimal, toNat_ofNat, Nat.mod_eq_of_lt (lt_of_width n)]

/-- A byte list without a leading zero byte is the shortest form of its number. -/
theorem minimal_toNat {bytes : List UInt8} (h : bytes.head? ≠ some 0) : minimal (toNat bytes) = bytes := by
  have hwidth : width (toNat bytes) = bytes.length := by
    cases bytes with
    | nil => rfl
    | cons b bytes =>
      have hb : b ≠ 0 := by simpa using h
      have hlt := lt_width (le_toNat_of_head bytes hb)
      have hle := width_le (toNat_lt (b :: bytes))
      rw [List.length_cons] at hle ⊢
      omega
  exact ofNat_toNat hwidth.symm

theorem significant_eq_minimal (bytes : List UInt8) : significant bytes = minimal (toNat bytes) := by
  rw [← toNat_significant, minimal_toNat (significant_head bytes)]

theorem minimal_head (n : Nat) : (minimal n).head? ≠ some 0 := by
  cases hm : minimal n with
  | nil => simp
  | cons b bytes =>
    intro hzero
    have hb : b = 0 := by simpa using hzero
    have hvalue := toNat_minimal n
    have hlength := length_minimal n
    rw [hm, hb, toNat_cons] at hvalue
    rw [hm, List.length_cons] at hlength
    have hlt := toNat_lt bytes
    have hle : width n ≤ bytes.length := by
      apply width_le
      simp only [UInt8.toNat_zero, Nat.zero_mul, Nat.zero_add] at hvalue
      omega
    omega

end DirectoryGateway.Bytes
