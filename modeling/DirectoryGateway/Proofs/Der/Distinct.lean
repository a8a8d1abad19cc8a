import DirectoryGateway.Proofs.Der.PublicKey

/-!
# Distinct keys are written differently

A longer content makes a longer element, so that elements tell their contents apart, of whatever length. An integer's content
depends on its number alone. Hence two keys with one exponent are written alike exactly if their moduli are equal as numbers.
-/

namespace DirectoryGateway.Der

variable {tag : UInt8} {magnitude magnitude' : List UInt8}

theorem length_lengthBytes_mono {m n : Nat} (h : m ≤ n) : (lengthBytes m).length ≤ (lengthBytes n).length := by
  by_cases hshort : m < 128
  · have hpos : lengthBytes n ≠ [] := by
      unfold lengthBytes
      split <;> simp
    rw [lengthBytes_short hshort, List.length_singleton]
    exact List.length_pos_iff.mpr hpos
  · have hwidth := Bytes.width_mono h
    rw [lengthBytes_long (by omega), lengthBytes_long (by omega), List.length_cons, List.length_cons,
      Bytes.length_minimal, Bytes.length_minimal]
    omega

theorem element_inj {content content' : List UInt8} :
    element tag content = element tag content' ↔ content = content' := by
  refine ⟨fun h => ?_, fun h => by rw [h]⟩
  have hlength := congrArg List.length h
  rw [length_element, length_element] at hlength
  -- Of contents that differ in length, the longer one has the longer element.
  have same : content.length = content'.length := by
    rcases Nat.le_total content.length content'.length with hle | hle
    · have hmono := length_lengthBytes_mono hle
      omega
    · have hmono := length_lengthBytes_mono hle
      omega
  rw [element, element, same] at h
  exact List.append_cancel_left (List.cons.inj h).2

theorem integerContent_eq_iff :
    integerContent magnitude = integerContent magnitude' ↔ Bytes.toNat magnitude = Bytes.toNat magnitude' := by
  constructor
  · intro h
    rw [← toNat_integerContent magnitude, h, toNat_integerContent]
  · intro h
    rw [integerContent, integerContent, Bytes.significant_eq_minimal, Bytes.significant_eq_minimal, h]

theorem unsignedInteger_eq_iff :
    unsignedInteger magnitude = unsignedInteger magnitude' ↔ Bytes.toNat magnitude = Bytes.toNat magnitude' := by
  rw [unsignedInteger, unsignedInteger, element_inj, integerContent_eq_iff]

theorem subjectPublicKeyInfo_eq_iff {modulus modulus' : List UInt8} (exponent : List UInt8) :
    subjectPublicKeyInfo modulus exponent = subjectPublicKeyInfo modulus' exponent ↔
      Bytes.toNat modulus = Bytes.toNat modulus' := by
  rw [subjectPublicKeyInfo, subjectPublicKeyInfo, element_inj, List.append_cancel_left_eq, element_inj,
    List.cons_eq_cons, rsaPublicKey, rsaPublicKey, element_inj, List.append_cancel_right_eq, unsignedInteger_eq_iff]
  exact and_iff_right rfl

end DirectoryGateway.Der
