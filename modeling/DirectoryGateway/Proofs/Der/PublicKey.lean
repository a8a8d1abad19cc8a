import DirectoryGateway.Proofs.Der.Strict

/-!
# Public keys in strict DER

What is written for a key is the distinguished encoding of its parts, however long they are and whatever zeros lead them. The
proof goes outwards from the two integers: each element is encoded if its content is, as long as its length can be written.
-/

namespace DirectoryGateway.Der

/-! ### Integers -/

/-- The forms that an integer is written in: a zero, significant bytes, or these after a zero byte. -/
theorem integerContent_cases (magnitude : List UInt8) :
    (Bytes.toNat magnitude = 0 ∧ integerContent magnitude = [0]) ∨
      ∃ b rest, b ≠ 0 ∧ Bytes.toNat (b :: rest) = Bytes.toNat magnitude ∧
        (b :: rest).length ≤ magnitude.length ∧
        ((b.toNat < 128 ∧ integerContent magnitude = b :: rest) ∨
          (128 ≤ b.toNat ∧ integerContent magnitude = 0 :: b :: rest)) := by
  have hvalue := Bytes.toNat_significant magnitude
  have hhead := Bytes.significant_head magnitude
  have hlength := Bytes.length_significant_le magnitude
  unfold integerContent
  cases hs : Bytes.significant magnitude with
  | nil =>
    rw [hs] at hvalue
    exact Or.inl ⟨hvalue.symm, rfl⟩
  | cons b rest =>
    rw [hs] at hvalue hhead hlength
    have hb : b ≠ 0 := by simpa using hhead
    refine Or.inr ⟨b, rest, hb, hvalue, hlength, ?_⟩
    by_cases hsmall : b.toNat < 128
    · exact Or.inl ⟨hsmall, if_pos hsmall⟩
    · exact Or.inr ⟨by omega, if_neg hsmall⟩

theorem toNat_integerContent (magnitude : List UInt8) :
    Bytes.toNat (integerContent magnitude) = Bytes.toNat magnitude := by
  rcases integerContent_cases magnitude with
    ⟨hzero, hform⟩ | ⟨b, rest, -, hvalue, -, ⟨-, hform⟩ | ⟨-, hform⟩⟩
  · rw [hform, hzero]
    rfl
  · rw [hform, hvalue]
  · rw [hform, Bytes.toNat_cons, hvalue]
    simp

theorem length_integerContent_le (magnitude : List UInt8) :
    (integerContent magnitude).length ≤ magnitude.length + 1 := by
  rcases integerContent_cases magnitude with
    ⟨-, hform⟩ | ⟨b, rest, -, -, hlength, ⟨-, hform⟩ | ⟨-, hform⟩⟩
  · rw [hform, List.length_singleton]
    omega
  · rw [hform]
    omega
  · rw [hform, List.length_cons]
    omega

theorem isMinimal_integerContent (magnitude : List UInt8) : IsMinimal (integerContent magnitude) := by
  rcases integerContent_cases magnitude with
    ⟨-, hform⟩ | ⟨b, rest, hb, -, -, ⟨hsmall, hform⟩ | ⟨hlarge, hform⟩⟩
  · rw [hform]
    exact trivial
  · rw [hform]
    cases rest with
    | nil => exact trivial
    | cons c rest =>
      refine ⟨fun h => hb h.1, ?_⟩
      rintro ⟨rfl, -⟩
      contradiction
  · rw [hform]
    refine ⟨?_, fun h => by cases h.1⟩
    rintro ⟨-, hsmall⟩
    omega

theorem signed_integerContent (magnitude : List UInt8) :
    signed (integerContent magnitude) = Bytes.toNat magnitude := by
  have hpositive : ((integerContent magnitude).headD 0).toNat < 128 := by
    rcases integerContent_cases magnitude with
      ⟨-, hform⟩ | ⟨b, rest, -, -, -, ⟨hsmall, hform⟩ | ⟨-, hform⟩⟩
    · rw [hform]
      decide
    · rw [hform]
      exact hsmall
    · rw [hform]
      show (0 : UInt8).toNat < 128
      decide
  rw [signed, if_pos hpositive, toNat_integerContent]

theorem isUnsignedContent_integerContent (magnitude : List UInt8) :
    isUnsignedContent (integerContent magnitude) = true := by
  rcases integerContent_cases magnitude with
    ⟨-, hform⟩ | ⟨b, rest, hb, -, -, ⟨hsmall, hform⟩ | ⟨hlarge, hform⟩⟩
  · rw [hform]
    rfl
  · rw [hform]
    cases rest with
    | nil => simpa [isUnsignedContent] using hsmall
    | cons c rest => simpa [isUnsignedContent, hb] using hsmall
  · rw [hform]
    simpa [isUnsignedContent] using hlarge

theorem primitive_integerContent (magnitude : List UInt8) :
    Primitive (.integer (Bytes.toNat magnitude)) integerTag (integerContent magnitude) := by
  rw [← signed_integerContent magnitude]
  exact .integer (isMinimal_integerContent magnitude)

/-! ### Elements -/

theorem element_append (tag : UInt8) (content rest : List UInt8) :
    element tag content ++ rest = tag :: (lengthBytes content.length ++ (content ++ rest)) := by
  rw [element, List.cons_append, List.append_assoc]

theorem length_element (tag : UInt8) (content : List UInt8) :
    (element tag content).length = (lengthBytes content.length).length + content.length + 1 := by
  rw [element, List.length_cons, List.length_append]

theorem length_lengthBytes_le {n : Nat} (h : n < 2 ^ 64) : (lengthBytes n).length ≤ 9 := by
  by_cases hshort : n < 128
  · rw [lengthBytes_short hshort, List.length_singleton]
    omega
  · have hwidth := width_le_eight h
    rw [lengthBytes_long (by omega), List.length_cons, Bytes.length_minimal]
    omega

theorem length_element_le (tag : UInt8) (content : List UInt8) (h : content.length < 2 ^ 64) :
    (element tag content).length ≤ content.length + 10 := by
  have hlength := length_lengthBytes_le h
  rw [length_element]
  omega

theorem Encodes.leaf {v : Value} {vs : List Value} {tag : UInt8} {content rest : List UInt8}
    (h : Primitive v tag content) (fits : content.length < 2 ^ 64) (more : Encodes vs rest) :
    Encodes (v :: vs) (element tag content ++ rest) := by
  rw [element_append]
  exact .primitive h (.of_lt fits) more

theorem Encodes.branch {items vs : List Value} {content rest : List UInt8} (h : Encodes items content)
    (fits : content.length < 2 ^ 64) (more : Encodes vs rest) :
    Encodes (.sequence items :: vs) (element sequenceTag content ++ rest) := by
  rw [element_append]
  exact .sequence h (.of_lt fits) more

theorem Encodes.lastLeaf {v : Value} {tag : UInt8} {content : List UInt8} (h : Primitive v tag content)
    (fits : content.length < 2 ^ 64) : Encodes [v] (element tag content) := by
  have hlast := Encodes.leaf h fits .nil
  rwa [List.append_nil] at hlast

theorem Encodes.lastBranch {items : List Value} {content : List UInt8} (h : Encodes items content)
    (fits : content.length < 2 ^ 64) : Encodes [.sequence items] (element sequenceTag content) := by
  have hlast := Encodes.branch h fits .nil
  rwa [List.append_nil] at hlast

theorem readElement_element (tag : UInt8) {content : List UInt8} (fits : content.length < 2 ^ 64)
    (rest : List UInt8) : readElement tag (element tag content ++ rest) = some (content, rest) := by
  have read : readLength (lengthBytes content.length ++ (content ++ rest)) =
      some (content.length, content ++ rest) :=
    (readLength_eq_some_iff fits).mpr ⟨_, .of_lt fits, rfl⟩
  rw [element_append, readElement, if_pos rfl, read]
  exact takeExactly_append rfl rest

theorem readUnsigned_unsignedInteger {magnitude : List UInt8}
    (fits : (integerContent magnitude).length < 2 ^ 64) (rest : List UInt8) :
    readUnsigned (unsignedInteger magnitude ++ rest) = some (Bytes.toNat magnitude, rest) := by
  rw [readUnsigned, unsignedInteger, readElement_element integerTag fits]
  dsimp only
  rw [if_pos (isUnsignedContent_integerContent magnitude), toNat_integerContent]

/-! ### Keys -/

def keyValue (modulus exponent : Nat) : Value :=
  .sequence [.integer modulus, .integer exponent]

/-- The value of a key with its algorithm, rsaEncryption; the bit string holds a bare key. -/
def keyInfoValue (key : List UInt8) : Value :=
  .sequence [.sequence [.objectId [1, 2, 840, 113549, 1, 1, 1], .null], .bits 0 key]

/-- The lengths of a key's parts, from the inside outwards, can all be written. -/
structure Fits (modulus exponent : List UInt8) : Prop where
  first : (integerContent modulus).length < 2 ^ 64
  second : (integerContent exponent).length < 2 ^ 64
  body : (unsignedInteger modulus ++ unsignedInteger exponent).length < 2 ^ 64
  key : (0 :: rsaPublicKey modulus exponent).length < 2 ^ 64
  info : (rsaAlgorithm ++ element bitStringTag (0 :: rsaPublicKey modulus exponent)).length < 2 ^ 64

theorem fits_of_length {modulus exponent : List UInt8}
    (h : (subjectPublicKeyInfo modulus exponent).length < 2 ^ 64) : Fits modulus exponent := by
  have hinfo := length_element sequenceTag
    (rsaAlgorithm ++ element bitStringTag (0 :: rsaPublicKey modulus exponent))
  have hbits := length_element bitStringTag (0 :: rsaPublicKey modulus exponent)
  have hkey := length_element sequenceTag (unsignedInteger modulus ++ unsignedInteger exponent)
  have hmodulus := length_element integerTag (integerContent modulus)
  have hexponent := length_element integerTag (integerContent exponent)
  rw [← subjectPublicKeyInfo, List.length_append] at hinfo
  rw [List.length_cons] at hbits
  rw [← rsaPublicKey, List.length_append] at hkey
  rw [← unsignedInteger] at hmodulus hexponent
  constructor
  · omega
  · omega
  · rw [List.length_append]
    omega
  · rw [List.length_cons]
    omega
  · rw [List.length_append]
    omega

/-- Five heads of at most ten bytes, two sign bytes, the count of unused bits and the algorithm. -/
theorem length_subjectPublicKeyInfo_le (modulus exponent : List UInt8)
    (h : modulus.length + exponent.length + 68 < 2 ^ 64) :
    (subjectPublicKeyInfo modulus exponent).length ≤ modulus.length + exponent.length + 68 := by
  have hfirst := length_integerContent_le modulus
  have hsecond := length_integerContent_le exponent
  have hmodulus : (unsignedInteger modulus).length ≤ modulus.length + 11 := by
    have helement := length_element_le integerTag (integerContent modulus) (by omega)
    rw [unsignedInteger]
    omega
  have hexponent : (unsignedInteger exponent).length ≤ exponent.length + 11 := by
    have helement := length_element_le integerTag (integerContent exponent) (by omega)
    rw [unsignedInteger]
    omega
  have hbody : (unsignedInteger modulus ++ unsignedInteger exponent).length = _ := List.length_append
  have hkey := length_element_le sequenceTag (unsignedInteger modulus ++ unsignedInteger exponent) (by omega)
  rw [← rsaPublicKey] at hkey
  have hcontent : (0 :: rsaPublicKey modulus exponent).length = _ := List.length_cons
  have hbits := length_element_le bitStringTag (0 :: rsaPublicKey modulus exponent) (by omega)
  have halgorithm : rsaAlgorithm.length = 15 := rfl
  have hparts : (rsaAlgorithm ++ element bitStringTag (0 :: rsaPublicKey modulus exponent)).length = _ :=
    List.length_append
  have hinfo := length_element_le sequenceTag
    (rsaAlgorithm ++ element bitStringTag (0 :: rsaPublicKey modulus exponent)) (by omega)
  rw [← subjectPublicKeyInfo] at hinfo
  omega

theorem encodes_rsaPublicKey {modulus exponent : List UInt8} (fits : Fits modulus exponent) :
    Encodes [keyValue (Bytes.toNat modulus) (Bytes.toNat exponent)] (rsaPublicKey modulus exponent) := by
  have hexponent := Encodes.lastLeaf (primitive_integerContent exponent) fits.second
  have hbody := Encodes.leaf (primitive_integerContent modulus) fits.first hexponent
  exact .lastBranch hbody fits.body

theorem primitive_rsaEncryption :
    Primitive (.objectId [1, 2, 840, 113549, 1, 1, 1]) objectIdTag rsaEncryptionContent := by
  have read : base128s 0 false rsaEncryptionContent = some [42, 840, 113549, 1, 1, 1] := by decide
  exact .objectId (by decide) (by decide) read

theorem encodes_subjectPublicKeyInfo {modulus exponent : List UInt8} (fits : Fits modulus exponent) :
    Encodes [keyInfoValue (rsaPublicKey modulus exponent)] (subjectPublicKeyInfo modulus exponent) := by
  have hbits : Primitive (.bits 0 (rsaPublicKey modulus exponent)) bitStringTag
      (0 :: rsaPublicKey modulus exponent) := .bits (by decide) (fun _ => rfl) (Nat.mod_one _)
  have hnull := Encodes.lastLeaf .null (by decide)
  have halgorithm := Encodes.leaf primitive_rsaEncryption (by decide) hnull
  have hbody := Encodes.branch halgorithm (by decide) (.lastLeaf hbits fits.key)
  exact .lastBranch hbody fits.info

theorem readRsaPublicKey_rsaPublicKey {modulus exponent : List UInt8} (fits : Fits modulus exponent) :
    readRsaPublicKey (rsaPublicKey modulus exponent) =
      some (Bytes.toNat modulus, Bytes.toNat exponent) := by
  have body := readElement_element sequenceTag fits.body []
  have second := readUnsigned_unsignedInteger fits.second []
  rw [List.append_nil] at body second
  rw [readRsaPublicKey, rsaPublicKey, body]
  dsimp only
  rw [readUnsigned_unsignedInteger fits.first]
  dsimp only
  rw [second]

theorem readRsaAlgorithm_append (rest : List UInt8) :
    readRsaAlgorithm (rsaAlgorithm ++ rest) = some rest := by
  have short : (element objectIdTag rsaEncryptionContent ++ element nullTag []).length < 2 ^ 64 := by decide
  have body := readElement_element sequenceTag short rest
  have shortOid : rsaEncryptionContent.length < 2 ^ 64 := by decide
  have oid := readElement_element objectIdTag shortOid (element nullTag [])
  rw [readRsaAlgorithm, rsaAlgorithm, body]
  dsimp only
  rw [oid]
  rfl

theorem readSubjectPublicKeyInfo_written {modulus exponent : List UInt8} (fits : Fits modulus exponent) :
    readSubjectPublicKeyInfo (subjectPublicKeyInfo modulus exponent) =
      some (Bytes.toNat modulus, Bytes.toNat exponent) := by
  have body := readElement_element sequenceTag fits.info []
  have bits := readElement_element bitStringTag fits.key []
  rw [List.append_nil] at body bits
  rw [readSubjectPublicKeyInfo, subjectPublicKeyInfo, body]
  dsimp only
  rw [readRsaAlgorithm_append]
  dsimp only
  rw [bits]
  exact readRsaPublicKey_rsaPublicKey fits

/-- A key is written as the distinguished encoding of its algorithm and of a bit string without unused bits, and this as that
of modulus and exponent as numbers. A strict decoder takes both to the last byte. -/
theorem subjectPublicKeyInfo_decodes (modulus exponent : List UInt8)
    (fits : (subjectPublicKeyInfo modulus exponent).length < 2 ^ 64) :
    ∃ key,
      (decode? (subjectPublicKeyInfo modulus exponent) = some (keyInfoValue key) ∧
        decode? key = some (keyValue (Bytes.toNat modulus) (Bytes.toNat exponent))) ∧
      (Encodes [keyInfoValue key] (subjectPublicKeyInfo modulus exponent) ∧
        Encodes [keyValue (Bytes.toNat modulus) (Bytes.toNat exponent)] key) ∧
      readSubjectPublicKeyInfo (subjectPublicKeyInfo modulus exponent) =
        some (Bytes.toNat modulus, Bytes.toNat exponent) := by
  have hfits := fits_of_length fits
  have hinfo := encodes_subjectPublicKeyInfo hfits
  have hkey := encodes_rsaPublicKey hfits
  refine ⟨rsaPublicKey modulus exponent, ⟨?_, ?_⟩, ⟨hinfo, hkey⟩, readSubjectPublicKeyInfo_written hfits⟩
  · exact decode?_eq_some_iff.mpr hinfo
  · exact decode?_eq_some_iff.mpr hkey

/-- A modulus with a leading zero byte and its top bit set, in long form, and no exponent at all. -/
theorem padded_modulus_decodes :
    (subjectPublicKeyInfo (0 :: List.replicate 200 255) []).length < 2 ^ 64 ∧
      ∃ key, decode? (subjectPublicKeyInfo (0 :: List.replicate 200 255) []) = some (keyInfoValue key) ∧
        decode? key = some (keyValue (256 ^ 200 - 1) 0) := by
  have fits : (subjectPublicKeyInfo (0 :: List.replicate 200 255) []).length < 2 ^ 64 := by
    decide +kernel
  have value : Bytes.toNat (0 :: List.replicate 200 255) = 256 ^ 200 - 1 := by decide +kernel
  obtain ⟨key, ⟨hinfo, hkey⟩, -⟩ := subjectPublicKeyInfo_decodes (0 :: List.replicate 200 255) [] fits
  rw [value] at hkey
  exact ⟨fits, key, hinfo, hkey⟩

end DirectoryGateway.Der
