import DirectoryGateway.Proofs.Der.PublicKey
import DirectoryGateway.Token.Key

/-!
# Public keys under tolerant reading

What is written for a key is read back by the tolerant reader as well, with the algorithm and the bare key where a search
finds them first.
-/

namespace DirectoryGateway.Der

/-! ### Elements -/

/-- The item of an element with a universal tag. -/
def contentItem (fuel number : Nat) (content : List UInt8) : Option Item :=
  if number = 16 then (itemsWithin fuel content).map .sequence
  else if number = 17 then (itemsWithin fuel content).map fun _ => .other
  else primitive number content

theorem readHead_universal {tag : UInt8} (universal : tag.toNat / 64 = 0) (low : tag.toNat % 32 ≠ 31)
    (rest : List UInt8) :
    readHead (tag :: rest) = some (⟨0, tag.toNat / 32 % 2 == 1, tag.toNat % 32⟩, rest) := by
  rw [readHead, if_neg low, universal]

theorem itemsWithin_element {fuel : Nat} (tag : UInt8) {content : List UInt8} {i : Item}
    (universal : tag.toNat / 64 = 0) (low : tag.toNat % 32 ≠ 31) (fits : content.length < 2 ^ 64)
    (item : contentItem fuel (tag.toNat % 32) content = some i) (rest : List UInt8) :
    itemsWithin (fuel + 1) (element tag content ++ rest) =
      (if rest.isEmpty then some [] else itemsWithin fuel rest).map (i :: ·) := by
  rw [contentItem] at item
  rw [element_append, itemsWithin, readHead_universal universal low]
  dsimp only
  rw [readAnyLength_append (.of_lt fits), Option.bind_some]
  dsimp only
  rw [takeExactly_append rfl rest]
  dsimp only
  rw [if_neg (by simp), item]
  cases (if rest.isEmpty = true then some [] else itemsWithin fuel rest) <;> rfl

theorem itemsWithin_last {fuel : Nat} (tag : UInt8) {content : List UInt8} {i : Item}
    (universal : tag.toNat / 64 = 0) (low : tag.toNat % 32 ≠ 31) (fits : content.length < 2 ^ 64)
    (item : contentItem fuel (tag.toNat % 32) content = some i) :
    itemsWithin (fuel + 1) (element tag content) = some [i] := by
  have h := itemsWithin_element tag universal low fits item []
  rwa [List.append_nil] at h

/-! ### Keys -/

def keyInfoItem (key : List UInt8) : Item :=
  .sequence [.sequence [.objectId [1, 2, 840, 113549, 1, 1, 1], .other], .bits key]

theorem contentItem_rsaAlgorithm (fuel : Nat) :
    contentItem (fuel + 2) 16 (element objectIdTag rsaEncryptionContent ++ element nullTag []) =
      some (.sequence [.objectId [1, 2, 840, 113549, 1, 1, 1], .other]) := by
  have arcs : readArcs rsaEncryptionContent = some [1, 2, 840, 113549, 1, 1, 1] := by decide
  have hitem : contentItem (fuel + 1) 6 rsaEncryptionContent =
      some (.objectId [1, 2, 840, 113549, 1, 1, 1]) := by
    show (readArcs rsaEncryptionContent).map Item.objectId = _
    rw [arcs]
    rfl
  have hother : contentItem fuel 5 [] = some .other := rfl
  have hnull := itemsWithin_last nullTag (by decide) (by decide) (by decide) hother
  have hoid := itemsWithin_element objectIdTag
    (by decide) (by decide) (by decide) hitem (element nullTag [])
  have hmore : (element nullTag []).isEmpty = false := rfl
  rw [hmore, if_neg Bool.false_ne_true, hnull] at hoid
  rw [contentItem, if_pos rfl, hoid]
  rfl

theorem items_subjectPublicKeyInfo {modulus exponent : List UInt8} (fits : Fits modulus exponent) :
    items (subjectPublicKeyInfo modulus exponent) = some [keyInfoItem (rsaPublicKey modulus exponent)] := by
  have long : 4 ≤ (subjectPublicKeyInfo modulus exponent).length := by
    have halgorithm : rsaAlgorithm.length = 15 := rfl
    rw [subjectPublicKeyInfo, length_element, List.length_append]
    omega
  obtain ⟨fuel, hfuel⟩ : ∃ fuel, (subjectPublicKeyInfo modulus exponent).length = fuel + 4 :=
    ⟨(subjectPublicKeyInfo modulus exponent).length - 4, by omega⟩
  have hkey : contentItem (fuel + 2) 3 (0 :: rsaPublicKey modulus exponent) =
      some (.bits (rsaPublicKey modulus exponent)) := rfl
  have hbits := itemsWithin_last bitStringTag (by decide) (by decide) fits.key hkey
  have halgorithm := itemsWithin_element sequenceTag (by decide) (by decide)
    (by decide) (contentItem_rsaAlgorithm (fuel + 1))
    (element bitStringTag (0 :: rsaPublicKey modulus exponent))
  have hmore : (element bitStringTag (0 :: rsaPublicKey modulus exponent)).isEmpty = false := rfl
  rw [hmore, if_neg Bool.false_ne_true, hbits] at halgorithm
  have hbody : contentItem (fuel + 4) 16
      (rsaAlgorithm ++ element bitStringTag (0 :: rsaPublicKey modulus exponent)) =
      some (keyInfoItem (rsaPublicKey modulus exponent)) := by
    rw [contentItem, if_pos rfl, rsaAlgorithm, halgorithm]
    rfl
  rw [items, hfuel]
  exact itemsWithin_last sequenceTag (by decide) (by decide) fits.info hbody

end DirectoryGateway.Der
