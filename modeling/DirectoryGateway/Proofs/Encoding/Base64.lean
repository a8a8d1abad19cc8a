import DirectoryGateway.Base64
import DirectoryGateway.Proofs.Encoding.Text

/-!
# Base64 and the texts that stand for bytes

A text is decoded as bytes exactly if it is what the encoder writes for them without padding, followed by padding that the rule
at hand takes. Both directions go through the values of the symbols, six bits each: complete groups are taken one after the
other, and the last group, whatever its length, by the tail.
-/

namespace DirectoryGateway.Base64

variable {a : Alphabet} {padded : Bool}

/-! ### Alphabets -/

/-- Every value has a symbol of its own, and none of them is the padding. -/
structure Alphabet.Lawful (a : Alphabet) : Prop where
  value_symbol : ∀ v < 64, a.value (a.symbol v) = some v
  symbol_ne_pad : ∀ v < 64, a.symbol v ≠ pad

theorem standard_lawful : standard.Lawful where
  value_symbol := by decide
  symbol_ne_pad := by decide

theorem urlSafe_lawful : urlSafe.Lawful where
  value_symbol := by decide
  symbol_ne_pad := by decide

theorem valueAt_symbol (h : a.Lawful) (offset : Nat) {v : Nat} (hv : v < 64) :
    a.valueAt offset (a.symbol v) = .ok v := by
  rw [Alphabet.valueAt, h.value_symbol v hv]

theorem symbol_of_value {b : UInt8} {v : Nat} (h : a.value b = some v) : v < 64 ∧ a.symbol v = b := by
  unfold Alphabet.value at h
  dsimp only at h
  split at h
  · next upper =>
    obtain rfl := Option.some.inj h
    have back : 65 + (b.toNat - 65) = b.toNat := by omega
    rw [Alphabet.symbol, if_pos (by omega), back, UInt8.ofNat_toNat]
    exact ⟨by omega, rfl⟩
  split at h
  · next lower =>
    obtain rfl := Option.some.inj h
    have back : 71 + (b.toNat - 71) = b.toNat := by omega
    rw [Alphabet.symbol, if_neg (by omega), if_pos (by omega), back, UInt8.ofNat_toNat]
    exact ⟨by omega, rfl⟩
  split at h
  · next digit =>
    obtain rfl := Option.some.inj h
    have back : b.toNat + 4 - 4 = b.toNat := by omega
    rw [Alphabet.symbol, if_neg (by omega), if_neg (by omega), if_pos (by omega), back,
      UInt8.ofNat_toNat]
    exact ⟨by omega, rfl⟩
  split at h
  · next last =>
    cases h
    rw [last]
    exact ⟨by omega, rfl⟩
  split at h
  · next last =>
    cases h
    rw [last]
    exact ⟨by omega, rfl⟩
  · cases h

theorem value_of_valueAt {offset : Nat} {b : UInt8} {v : Nat} (h : a.valueAt offset b = .ok v) :
    a.value b = some v := by
  unfold Alphabet.valueAt at h
  split at h
  · next given =>
    cases h
    exact given
  · cases h

/-! ### Values of symbols -/

/-- The values of the symbols for bytes: six bits each, and zero bits where the last group is filled up. -/
def sextets : List UInt8 → List Nat
  | b₀ :: b₁ :: b₂ :: rest =>
    b₀.toNat / 4 :: (b₀.toNat % 4 * 16 + b₁.toNat / 16) :: (b₁.toNat % 16 * 4 + b₂.toNat / 64) ::
      (b₂.toNat % 64) :: sextets rest
  | [b₀, b₁] => [b₀.toNat / 4, b₀.toNat % 4 * 16 + b₁.toNat / 16, b₁.toNat % 16 * 4]
  | [b₀] => [b₀.toNat / 4, b₀.toNat % 4 * 16]
  | [] => []

theorem encode_unpadded (bytes : List UInt8) : a.encode false bytes = (sextets bytes).map a.symbol := by
  fun_induction sextets bytes with
  | case1 b₀ b₁ b₂ rest ih =>
    rw [Alphabet.encode, ih, List.map_cons, List.map_cons, List.map_cons, List.map_cons]
  | case2 b₀ b₁ => rfl
  | case3 b₀ => rfl
  | case4 => rfl

theorem sextets_lt (bytes : List UInt8) : ∀ v ∈ sextets bytes, v < 64 := by
  fun_induction sextets bytes with
  | case1 b₀ b₁ b₂ rest ih =>
    have h₀ := b₀.toNat_lt
    have h₁ := b₁.toNat_lt
    have h₂ := b₂.toNat_lt
    simp only [List.forall_mem_cons]
    exact ⟨by omega, by omega, by omega, by omega, ih⟩
  | case2 b₀ b₁ =>
    have h₀ := b₀.toNat_lt
    have h₁ := b₁.toNat_lt
    simp only [List.forall_mem_cons]
    exact ⟨by omega, by omega, by omega, by simp⟩
  | case3 b₀ =>
    have h₀ := b₀.toNat_lt
    simp only [List.forall_mem_cons]
    exact ⟨by omega, by omega, by simp⟩
  | case4 => simp

theorem length_sextets (bytes : List UInt8) : (sextets bytes).length = (bytes.length * 4 + 2) / 3 := by
  fun_induction sextets bytes with
  | case1 b₀ b₁ b₂ rest ih =>
    simp only [List.length_cons, ih]
    omega
  | case2 b₀ b₁ => simp
  | case3 b₀ => simp
  | case4 => rfl

theorem sextets_groupBytes {v₀ v₁ v₂ v₃ : Nat} (h₀ : v₀ < 64) (h₁ : v₁ < 64) (h₂ : v₂ < 64) (h₃ : v₃ < 64)
    (rest : List UInt8) : sextets (groupBytes v₀ v₁ v₂ v₃ ++ rest) = v₀ :: v₁ :: v₂ :: v₃ :: sextets rest := by
  have first : (UInt8.ofNat (v₀ * 4 + v₁ / 16)).toNat = v₀ * 4 + v₁ / 16 :=
    UInt8.toNat_ofNat_of_lt' (show _ < 256 by omega)
  have second : (UInt8.ofNat (v₁ % 16 * 16 + v₂ / 4)).toNat = v₁ % 16 * 16 + v₂ / 4 :=
    UInt8.toNat_ofNat_of_lt' (show _ < 256 by omega)
  have third : (UInt8.ofNat (v₂ % 4 * 64 + v₃)).toNat = v₂ % 4 * 64 + v₃ :=
    UInt8.toNat_ofNat_of_lt' (show _ < 256 by omega)
  simp only [groupBytes, List.cons_append, List.nil_append, sextets, first, second, third,
    List.cons.injEq, and_true]
  exact ⟨by omega, by omega, by omega, by omega⟩

theorem groupBytes_split (b₀ b₁ b₂ : UInt8) :
    groupBytes (b₀.toNat / 4) (b₀.toNat % 4 * 16 + b₁.toNat / 16)
      (b₁.toNat % 16 * 4 + b₂.toNat / 64) (b₂.toNat % 64) = [b₀, b₁, b₂] := by
  have h₀ := b₀.toNat_lt
  have h₁ := b₁.toNat_lt
  have h₂ := b₂.toNat_lt
  have first : b₀.toNat / 4 * 4 + (b₀.toNat % 4 * 16 + b₁.toNat / 16) / 16 = b₀.toNat := by omega
  have second : (b₀.toNat % 4 * 16 + b₁.toNat / 16) % 16 * 16 +
      (b₁.toNat % 16 * 4 + b₂.toNat / 64) / 4 = b₁.toNat := by omega
  have third : (b₁.toNat % 16 * 4 + b₂.toNat / 64) % 4 * 64 + b₂.toNat % 64 = b₂.toNat := by omega
  rw [groupBytes, first, second, third]
  simp only [UInt8.ofNat_toNat]

/-! ### What is encoded -/

/-- The padding that fills up the last group for so many bytes. -/
def fill (length : Nat) : Nat :=
  (3 - length % 3) % 3

theorem encode_eq_append (padded : Bool) (bytes : List UInt8) :
    a.encode padded bytes =
      a.encode false bytes ++ List.replicate (if padded then fill bytes.length else 0) pad := by
  fun_induction Alphabet.encode a padded bytes with
  | case1 b₀ b₁ b₂ rest ih =>
    have hfill : fill (b₀ :: b₁ :: b₂ :: rest).length = fill rest.length := by
      simp only [fill, List.length_cons]
      omega
    rw [ih, hfill, Alphabet.encode]
    rfl
  | case2 b₀ b₁ => cases padded <;> rfl
  | case3 b₀ => cases padded <;> rfl
  | case4 => cases padded <;> rfl

theorem forall_encode {P : UInt8 → Prop} (symbols : ∀ v < 64, P (a.symbol v))
    (padding : padded = true → P pad) (bytes : List UInt8) : ∀ b ∈ a.encode padded bytes, P b := by
  intro b hb
  rw [encode_eq_append, encode_unpadded, List.mem_append] at hb
  rcases hb with hsymbol | hpad
  · obtain ⟨v, hv, rfl⟩ := List.mem_map.mp hsymbol
    exact symbols v (sextets_lt bytes v hv)
  · obtain ⟨some, rfl⟩ := List.mem_replicate.mp hpad
    cases padded with
    | false => exact absurd rfl some
    | true => exact padding rfl

theorem encode_append {front : List UInt8} (whole : front.length % 3 = 0) (last : List UInt8) :
    a.encode padded (front ++ last) = a.encode padded front ++ a.encode padded last := by
  fun_induction Alphabet.encode a padded front with
  | case1 b₀ b₁ b₂ rest ih =>
    simp only [List.length_cons] at whole
    simp only [List.cons_append, Alphabet.encode, ih (by omega)]
  | case2 b₀ b₁ => simp at whole
  | case3 b₀ => simp at whole
  | case4 => rfl

theorem length_encode_unpadded (bytes : List UInt8) :
    (a.encode false bytes).length = (bytes.length * 4 + 2) / 3 := by
  rw [encode_unpadded, List.length_map, length_sextets]

theorem length_encode {front : List UInt8} (whole : front.length % 3 = 0) :
    (a.encode padded front).length = front.length / 3 * 4 := by
  have hnone : fill front.length = 0 := by
    rw [fill, whole]
  rw [encode_eq_append, hnone, ite_self, List.replicate_zero, List.append_nil, length_encode_unpadded]
  omega

theorem decodeGroups_encode (h : a.Lawful) {front : List UInt8} (whole : front.length % 3 = 0)
    (offset : Nat) : a.decodeGroups offset (a.encode padded front) = .ok front := by
  fun_induction Alphabet.encode a padded front generalizing offset with
  | case1 b₀ b₁ b₂ rest ih =>
    have h₀ := b₀.toNat_lt
    have h₁ := b₁.toNat_lt
    have h₂ := b₂.toNat_lt
    simp only [List.length_cons] at whole
    rw [Alphabet.decodeGroups, valueAt_symbol h _ (by omega), valueAt_symbol h _ (by omega),
      valueAt_symbol h _ (by omega), valueAt_symbol h _ (by omega), ih (by omega)]
    simp only [groupBytes_split]
    rfl
  | case2 b₀ b₁ => simp at whole
  | case3 b₀ => simp at whole
  | case4 => rfl

/-! ### Complete groups -/

theorem symbols_of_decodeGroups {offset : Nat} {text bytes : List UInt8}
    (h : a.decodeGroups offset text = .ok bytes) (whole : text.length % 4 = 0) :
    text = (sextets bytes).map a.symbol ∧ bytes.length % 3 = 0 := by
  fun_induction Alphabet.decodeGroups a offset text generalizing bytes with
  | case1 offset b₀ b₁ b₂ b₃ rest v₀ v₁ v₂ v₃ h₃ h₂ h₁ h₀ front hfront ih =>
    cases h
    simp only [List.length_cons] at whole
    obtain ⟨hrest, hwhole⟩ := ih hfront (by omega)
    obtain ⟨small₀, symbol₀⟩ := symbol_of_value (value_of_valueAt h₀)
    obtain ⟨small₁, symbol₁⟩ := symbol_of_value (value_of_valueAt h₁)
    obtain ⟨small₂, symbol₂⟩ := symbol_of_value (value_of_valueAt h₂)
    obtain ⟨small₃, symbol₃⟩ := symbol_of_value (value_of_valueAt h₃)
    constructor
    · rw [sextets_groupBytes small₀ small₁ small₂ small₃, List.map_cons, List.map_cons, List.map_cons,
        List.map_cons, ← hrest, symbol₀, symbol₁, symbol₂, symbol₃]
    · rw [List.length_append]
      show (3 + front.length) % 3 = 0
      omega
  | case7 text offset short =>
    cases h
    have hempty : text = [] := by
      match text, whole with
      | [], _ => rfl
      | b₀ :: b₁ :: b₂ :: b₃ :: rest, _ => exact absurd rfl (short b₀ b₁ b₂ b₃ rest)
    rw [hempty]
    exact ⟨rfl, rfl⟩
  | _ => cases h

/-! ### Padding -/

theorem length_sextets_add_fill {bytes : List UInt8} (one : 0 < bytes.length) (three : bytes.length ≤ 3) :
    (sextets bytes).length + fill bytes.length = 4 := by
  rw [length_sextets, fill]
  rcases (by omega : bytes.length = 1 ∨ bytes.length = 2 ∨ bytes.length = 3) with h | h | h <;> rw [h]

/-- The amounts of padding that a rule takes where `full` of it fill up the last group. -/
def Padding.Takes : Padding → (full pads : Nat) → Prop
  | .canonical, full, pads => pads = full
  | .indifferent, full, pads => pads ≤ full
  | .absent, _, pads => pads = 0

theorem Padding.Takes.le {p : Padding} {full pads : Nat} (h : p.Takes full pads) : pads ≤ full := by
  cases p with
  | canonical => exact Nat.le_of_eq h
  | indifferent => exact h
  | absent =>
    have hzero : pads = 0 := h
    omega

theorem takes_of_allows {p : Padding} {t : Tail} {full : Nat} (h : p.allows t = true)
    (four : t.values.length + full = 4) (pads : t.pads ≤ full) (some : 0 < t.values.length) :
    p.Takes full t.pads := by
  cases p with
  | canonical =>
    have hmod : (t.pads + t.values.length) % 4 = 0 := beq_iff_eq.mp h
    show t.pads = full
    omega
  | indifferent => exact pads
  | absent => exact beq_iff_eq.mp h

theorem allows_of_takes {p : Padding} {t : Tail} {full : Nat} (h : p.Takes full t.pads)
    (four : t.values.length + full = 4) : p.allows t = true := by
  cases p with
  | canonical =>
    have hpads : t.pads = full := h
    rw [Padding.allows, beq_iff_eq]
    omega
  | indifferent => rfl
  | absent => exact beq_iff_eq.mpr h

/-! ### The last group -/

/-- What is read is symbols and then padding; after padding there are no more symbols. -/
theorem readTail_eq_ok {start index : Nat} {t t' : Tail} {text : List UInt8}
    (h : a.readTail start index t text = .ok t') :
    ∃ values pads, text = values.map a.symbol ++ List.replicate pads pad ∧ (∀ v ∈ values, v < 64) ∧
      t'.values = t.values ++ values ∧ t'.pads = t.pads + pads ∧ (0 < t.pads → values = []) := by
  fun_induction Alphabet.readTail a start index t text generalizing t' with
  | case1 index t =>
    cases h
    exact ⟨[], 0, rfl, by simp, by simp, rfl, fun _ => rfl⟩
  | case3 index t rest hlate ih =>
    obtain ⟨values, pads, hrest, -, hvalues, hpads, hnone⟩ := ih h
    have hempty : values = [] := hnone (Nat.succ_pos _)
    subst hempty
    refine ⟨[], pads + 1, ?_, by simp, hvalues, ?_, fun _ => rfl⟩
    · rw [hrest]
      rfl
    · rw [hpads]
      show t.pads + 1 + pads = t.pads + (pads + 1)
      omega
  | case6 index t b rest hpad hopen v hv ih =>
    obtain ⟨small, hsymbol⟩ := symbol_of_value hv
    obtain ⟨values, pads, hrest, hsmall, hvalues, hpads, -⟩ := ih h
    refine ⟨v :: values, pads, ?_, ?_, ?_, hpads, fun hopened => absurd hopened hopen⟩
    · rw [List.map_cons, List.cons_append, hsymbol, ← hrest]
    · simp only [List.forall_mem_cons]
      exact ⟨small, hsmall⟩
    · rw [hvalues, List.append_assoc, List.singleton_append]
  | _ => cases h

theorem readTail_pads (start index : Nat) (late : 2 ≤ index) (t : Tail) (pads : Nat) :
    ∃ t', a.readTail start index t (List.replicate pads pad) = .ok t' ∧ t'.values = t.values ∧
      t'.pads = t.pads + pads := by
  induction pads generalizing index t with
  | zero => exact ⟨t, rfl, rfl, rfl⟩
  | succ pads ih =>
    obtain ⟨t', read, hvalues, hpads⟩ := ih (index + 1) (by omega)
      { t with pads := t.pads + 1, firstPad := if t.pads = 0 then index else t.firstPad }
    refine ⟨t', ?_, hvalues, ?_⟩
    · rw [List.replicate_succ, Alphabet.readTail, if_pos rfl, if_neg (by omega), read]
    · rw [hpads]
      show t.pads + 1 + pads = t.pads + (pads + 1)
      omega

theorem readTail_symbols (h : a.Lawful) (start index : Nat) {t : Tail} (opened : t.pads = 0)
    {values : List Nat} (small : ∀ v ∈ values, v < 64) (late : 2 ≤ index + values.length) (pads : Nat) :
    ∃ t', a.readTail start index t (values.map a.symbol ++ List.replicate pads pad) = .ok t' ∧
      t'.values = t.values ++ values ∧ t'.pads = pads := by
  induction values generalizing index t with
  | nil =>
    obtain ⟨t', read, hvalues, hpads⟩ := readTail_pads (a := a) start index (by simpa using late) t pads
    exact ⟨t', read, by rw [hvalues, List.append_nil], by rw [hpads, opened, Nat.zero_add]⟩
  | cons v values ih =>
    simp only [List.forall_mem_cons] at small
    rw [List.length_cons] at late
    obtain ⟨t', read, hvalues, hpads⟩ := ih (index + 1)
      (t := { t with values := t.values ++ [v], last := a.symbol v }) opened small.2 (by omega)
    refine ⟨t', ?_, by rw [hvalues, List.append_assoc, List.singleton_append], hpads⟩
    rw [List.map_cons, List.cons_append, Alphabet.readTail, if_neg (h.symbol_ne_pad v small.1),
      if_neg (by omega), h.value_symbol v small.1]
    exact read

theorem sextets_of_tailBytes {start : Nat} {t : Tail} {bytes : List UInt8}
    (h : tailBytes start t = .ok bytes) (small : ∀ v ∈ t.values, v < 64) (two : 2 ≤ t.values.length)
    (four : t.values.length ≤ 4) : t.values = sextets bytes ∧ bytes.length + 1 = t.values.length := by
  unfold tailBytes at h
  split at h
  · next v₀ v₁ hvalues =>
    split at h
    · next clear =>
      cases h
      rw [hvalues] at small ⊢
      simp only [List.forall_mem_cons] at small
      have first : (UInt8.ofNat (v₀ * 4 + v₁ / 16)).toNat = v₀ * 4 + v₁ / 16 :=
        UInt8.toNat_ofNat_of_lt' (show _ < 256 by omega)
      simp only [sextets, first, List.cons.injEq, and_true, List.length_cons, List.length_nil]
      exact ⟨by omega, by omega⟩
    · cases h
  · next v₀ v₁ v₂ hvalues =>
    split at h
    · next clear =>
      cases h
      rw [hvalues] at small ⊢
      simp only [List.forall_mem_cons] at small
      have first : (UInt8.ofNat (v₀ * 4 + v₁ / 16)).toNat = v₀ * 4 + v₁ / 16 :=
        UInt8.toNat_ofNat_of_lt' (show _ < 256 by omega)
      have second : (UInt8.ofNat (v₁ % 16 * 16 + v₂ / 4)).toNat = v₁ % 16 * 16 + v₂ / 4 :=
        UInt8.toNat_ofNat_of_lt' (show _ < 256 by omega)
      simp only [sextets, first, second, List.cons.injEq, and_true, List.length_cons, List.length_nil]
      exact ⟨by omega, by omega, by omega⟩
    · cases h
  · next v₀ v₁ v₂ v₃ hvalues =>
    cases h
    rw [hvalues] at small ⊢
    simp only [List.forall_mem_cons] at small
    have hgroup := sextets_groupBytes small.1 small.2.1 small.2.2.1 small.2.2.2.1 []
    rw [List.append_nil] at hgroup
    exact ⟨hgroup.symm, rfl⟩
  · next short fewer more =>
    match hvalues : t.values, two, four with
    | [v₀, v₁], _, _ => exact absurd hvalues (short v₀ v₁)
    | [v₀, v₁, v₂], _, _ => exact absurd hvalues (fewer v₀ v₁ v₂)
    | [v₀, v₁, v₂, v₃], _, _ => exact absurd hvalues (more v₀ v₁ v₂ v₃)

theorem tailBytes_sextets (start : Nat) {t : Tail} {bytes : List UInt8} (values : t.values = sextets bytes)
    (one : 0 < bytes.length) (three : bytes.length ≤ 3) : tailBytes start t = .ok bytes := by
  match bytes, one, three with
  | [b₀], _, _ =>
    have h₀ := b₀.toNat_lt
    have first : b₀.toNat / 4 * 4 + b₀.toNat % 4 * 16 / 16 = b₀.toNat := by omega
    rw [sextets] at values
    simp only [tailBytes, values]
    rw [if_pos (by omega), first, UInt8.ofNat_toNat]
  | [b₀, b₁], _, _ =>
    have h₀ := b₀.toNat_lt
    have h₁ := b₁.toNat_lt
    have first : b₀.toNat / 4 * 4 + (b₀.toNat % 4 * 16 + b₁.toNat / 16) / 16 = b₀.toNat := by omega
    have second : (b₀.toNat % 4 * 16 + b₁.toNat / 16) % 16 * 16 + b₁.toNat % 16 * 4 / 4 = b₁.toNat := by
      omega
    rw [sextets] at values
    simp only [tailBytes, values]
    rw [if_pos (by omega), first, second, UInt8.ofNat_toNat, UInt8.ofNat_toNat]
  | [b₀, b₁, b₂], _, _ =>
    rw [sextets, sextets] at values
    simp only [tailBytes, values, groupBytes_split]

theorem symbols_of_decodeTail {p : Padding} {start : Nat} {text bytes : List UInt8}
    (h : a.decodeTail p start text = .ok bytes) (nonempty : text ≠ []) (four : text.length ≤ 4) :
    ∃ pads, p.Takes (fill bytes.length) pads ∧
      text = (sextets bytes).map a.symbol ++ List.replicate pads pad := by
  unfold Alphabet.decodeTail at h
  cases read : a.readTail start 0 {} text with
  | error fault =>
    rw [read] at h
    cases h
  | ok t =>
    obtain ⟨values, pads, htext, small, hvalues, hpads, -⟩ := readTail_eq_ok read
    rw [List.nil_append] at hvalues
    rw [Nat.zero_add] at hpads
    rw [htext, List.length_append, List.length_map, List.length_replicate] at four
    rw [read] at h
    dsimp only at h
    split at h
    · cases h
    next enough =>
      split at h
      · next allowed =>
        have two : 2 ≤ t.values.length := Nat.le_of_not_lt fun few => enough ⟨few, nonempty⟩
        rw [← hvalues] at small four
        obtain ⟨hsextets, hlength⟩ := sextets_of_tailBytes h small two (by omega)
        have hfour : t.values.length + fill bytes.length = 4 := by
          rw [hsextets]
          exact length_sextets_add_fill (by omega) (by omega)
        refine ⟨t.pads, takes_of_allows allowed hfour (by omega) (by omega), ?_⟩
        rw [htext, ← hvalues, ← hpads, hsextets]
      · cases h

theorem decodeTail_spelled (h : a.Lawful) {p : Padding} (start : Nat) {bytes : List UInt8} {pads : Nat}
    (one : 0 < bytes.length) (three : bytes.length ≤ 3) (takes : p.Takes (fill bytes.length) pads) :
    a.decodeTail p start (a.encode false bytes ++ List.replicate pads pad) = .ok bytes := by
  have hlength := length_sextets bytes
  obtain ⟨t, read, hvalues, hpads⟩ := readTail_symbols h start 0 (t := {}) rfl (sextets_lt bytes)
    (by omega) pads
  rw [List.nil_append] at hvalues
  have hfour : t.values.length + fill bytes.length = 4 := by
    rw [hvalues]
    exact length_sextets_add_fill one three
  rw [← hpads] at takes
  rw [encode_unpadded, Alphabet.decodeTail, read]
  dsimp only
  rw [if_neg (by rw [hvalues]; omega), if_pos (allows_of_takes takes hfour)]
  exact tailBytes_sextets start hvalues one three

/-! ### Texts -/

/-- Where the last group of a text begins. -/
theorem leadingLength_eq {k last : Nat} (two : 2 ≤ last) (four : last ≤ 4) :
    leadingLength (k * 4 + last) = k * 4 := by
  unfold leadingLength
  split <;> omega

theorem leadingLength_le (length : Nat) : leadingLength length ≤ length ∧ leadingLength length % 4 = 0 ∧
    length - leadingLength length ≤ 4 ∧ (0 < length → leadingLength length < length) := by
  unfold leadingLength
  split <;> omega

/-- A text that stands for bytes under a rule of padding: their symbols, with zero bits where the last group is filled up, and
then padding that the rule takes. -/
def Alphabet.Spells (a : Alphabet) (p : Padding) (text bytes : List UInt8) : Prop :=
  ∃ pads, p.Takes (fill bytes.length) pads ∧ text = a.encode false bytes ++ List.replicate pads pad

theorem fill_append {front : List UInt8} (whole : front.length % 3 = 0) (last : List UInt8) :
    fill (front ++ last).length = fill last.length := by
  rw [List.length_append, fill, fill]
  omega

theorem decode_nil (p : Padding) : a.decode p [] = .ok [] := by
  cases p <;> rfl

theorem spells_nil (p : Padding) : a.Spells p [] [] := by
  refine ⟨0, ?_, rfl⟩
  cases p with
  | canonical => rfl
  | indifferent => exact Nat.zero_le _
  | absent => rfl

theorem spells_of_decode {p : Padding} {text bytes : List UInt8} (h : a.decode p text = .ok bytes) :
    a.Spells p text bytes := by
  rcases Nat.eq_zero_or_pos text.length with hempty | hpos
  · rw [List.length_eq_zero_iff.mp hempty] at h ⊢
    rw [decode_nil] at h
    cases h
    exact spells_nil p
  obtain ⟨hle, hmod, hfour, hlast⟩ := leadingLength_le text.length
  unfold Alphabet.decode at h
  split at h
  · cases h
  split at h
  · cases h
  next front hfront =>
    split at h
    · cases h
    next back hback =>
      cases h
      have hwhole : (text.take (leadingLength text.length)).length % 4 = 0 := by
        rw [List.length_take, Nat.min_eq_left hle]
        exact hmod
      have nonempty : text.drop (leadingLength text.length) ≠ [] := by
        rw [Ne, List.drop_eq_nil_iff]
        exact Nat.not_le_of_lt (hlast hpos)
      obtain ⟨hsymbols, whole⟩ := symbols_of_decodeGroups hfront hwhole
      obtain ⟨pads, takes, htail⟩ := symbols_of_decodeTail hback nonempty (by rwa [List.length_drop])
      refine ⟨pads, by rwa [fill_append whole], ?_⟩
      rw [encode_append whole, encode_unpadded, encode_unpadded, List.append_assoc, ← hsymbols, ← htail,
        List.take_append_drop]

/-- A text of complete groups and a last one is decoded group by group, as none of its lengths leaves a single byte over. -/
theorem decode_append (h : a.Lawful) {p : Padding} {front last : List UInt8} {pads : Nat}
    (whole : front.length % 3 = 0) (one : 0 < last.length) (three : last.length ≤ 3)
    (takes : p.Takes (fill last.length) pads) :
    a.decode p (a.encode false (front ++ last) ++ List.replicate pads pad) = .ok (front ++ last) := by
  have hfront : (a.encode false front).length = front.length / 3 * 4 := length_encode whole
  have hsextets := length_sextets_add_fill one three
  have hle := takes.le
  have hlast : (a.encode false last ++ List.replicate pads pad).length = (sextets last).length + pads := by
    rw [List.length_append, encode_unpadded, List.length_map, List.length_replicate]
  have htwo : 2 ≤ (sextets last).length := by
    rw [length_sextets]
    omega
  have hsplit : a.encode false (front ++ last) ++ List.replicate pads pad =
      a.encode false front ++ (a.encode false last ++ List.replicate pads pad) := by
    rw [encode_append whole, List.append_assoc]
  have hlength : (a.encode false (front ++ last) ++ List.replicate pads pad).length =
      front.length / 3 * 4 + ((sextets last).length + pads) := by
    rw [hsplit, List.length_append, hfront, hlast]
  have noStray : a.strayLast (a.encode false (front ++ last) ++ List.replicate pads pad) = none := by
    rw [Alphabet.strayLast, if_neg (by omega)]
  rw [Alphabet.decode, noStray]
  dsimp only
  rw [hlength, leadingLength_eq (by omega) (by omega), hsplit, List.take_left' hfront,
    List.drop_left' hfront, decodeGroups_encode h whole, decodeTail_spelled h _ one three takes]

theorem decode_of_spells (h : a.Lawful) {p : Padding} {text bytes : List UInt8} (spells : a.Spells p text bytes) :
    a.decode p text = .ok bytes := by
  obtain ⟨pads, takes, rfl⟩ := spells
  rcases Nat.eq_zero_or_pos bytes.length with hempty | hlength
  · have hnone : pads = 0 := by
      have hle := takes.le
      rw [hempty] at hle
      exact Nat.le_zero.mp hle
    rw [List.length_eq_zero_iff.mp hempty, hnone]
    exact decode_nil p
  · -- All groups but the last one are complete, and the last one is not empty.
    have hsplit := List.take_append_drop ((bytes.length - 1) / 3 * 3) bytes
    have whole : (bytes.take ((bytes.length - 1) / 3 * 3)).length % 3 = 0 := by
      rw [List.length_take]
      omega
    have hlast : (bytes.drop ((bytes.length - 1) / 3 * 3)).length = (bytes.length - 1) % 3 + 1 := by
      rw [List.length_drop]
      omega
    rw [← hsplit, fill_append whole] at takes
    rw [← hsplit]
    exact decode_append h whole (by omega) (by omega) takes

theorem decode_eq_ok_iff (h : a.Lawful) {p : Padding} {text bytes : List UInt8} :
    a.decode p text = .ok bytes ↔ a.Spells p text bytes :=
  ⟨spells_of_decode, decode_of_spells h⟩

/-- The rules of padding that take what is written with padding, or without. -/
def Padding.fits : Padding → (padded : Bool) → Bool
  | .canonical, padded => padded
  | .indifferent, _ => true
  | .absent, padded => !padded

theorem decode_encode (h : a.Lawful) {p : Padding} (fits : p.fits padded = true) (bytes : List UInt8) :
    a.decode p (a.encode padded bytes) = .ok bytes := by
  apply decode_of_spells h
  refine ⟨if padded then fill bytes.length else 0, ?_, encode_eq_append padded bytes⟩
  cases p with
  | canonical =>
    have hpadded : padded = true := fits
    exact if_pos hpadded
  | indifferent => cases padded <;> simp [Padding.Takes]
  | absent =>
    have bare : padded = false := by simpa [Padding.fits] using fits
    rw [bare]
    rfl

theorem length_decode_le {p : Padding} {text bytes : List UInt8} (h : a.decode p text = .ok bytes) :
    bytes.length ≤ text.length := by
  obtain ⟨pads, -, rfl⟩ := spells_of_decode h
  rw [List.length_append, length_encode_unpadded]
  omega

theorem ofText_encodeText (ascii : ∀ v < 64, (a.symbol v).toNat < 128) (padded : Bool)
    (bytes : List UInt8) : Bytes.ofText (a.encodeText padded bytes) = a.encode padded bytes :=
  Bytes.ofText_of_bytes (forall_encode ascii (fun _ => by decide) bytes)

theorem encodeText_inj (h : a.Lawful) (ascii : ∀ v < 64, (a.symbol v).toNat < 128) {bytes bytes' : List UInt8} :
    a.encodeText padded bytes = a.encodeText padded bytes' ↔ bytes = bytes' := by
  refine ⟨fun same => ?_, fun same => by rw [same]⟩
  have hencode := congrArg Bytes.ofText same
  rw [ofText_encodeText ascii, ofText_encodeText ascii] at hencode
  have hdecode : a.decode .indifferent (a.encode padded bytes) = .ok bytes := decode_encode h rfl bytes
  rw [hencode, decode_encode h rfl] at hdecode
  exact (Except.ok.inj hdecode).symm

end DirectoryGateway.Base64
