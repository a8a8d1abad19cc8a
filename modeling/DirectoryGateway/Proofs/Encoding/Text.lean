import DirectoryGateway.Bytes

/-!
# Text and its bytes

The bytes of a text, seen as a plain list, and texts of which every character is one byte.
-/

namespace DirectoryGateway.Bytes

theorem toList_loop_eq (bytes : ByteArray) (i : Nat) (front : List UInt8) :
    ByteArray.toList.loop bytes i front = front.reverse ++ bytes.data.toList.drop i := by
  induction hleft : bytes.size - i generalizing i front with
  | zero =>
    have hi : ¬ i < bytes.size := by omega
    have hlength : bytes.data.toList.length ≤ i := by
      simpa using hi
    rw [ByteArray.toList.loop, if_neg hi, List.drop_eq_nil_of_le hlength, List.append_nil]
  | succ left ih =>
    have hi : i < bytes.size := by omega
    have hlength : i < bytes.data.toList.length := by
      simpa using hi
    have hget : bytes.get! i = bytes.data.toList[i] := by
      show bytes.data[i]! = _
      rw [getElem!_pos bytes.data i hi]
      simp
    rw [ByteArray.toList.loop, if_pos hi, ih (i + 1) _ (by omega), List.drop_eq_getElem_cons hlength,
      hget]
    simp

theorem toList_eq (bytes : ByteArray) : bytes.toList = bytes.data.toList :=
  toList_loop_eq bytes 0 []

theorem ofText_of_toText? {bytes : List UInt8} {s : String} (h : toText? bytes = some s) :
    ofText s = bytes := by
  unfold toText? String.fromUTF8? at h
  split at h
  · cases h
    rw [ofText, toList_eq]
    rfl
  · cases h

theorem ofText_ofList (cs : List Char) : ofText (String.ofList cs) = cs.flatMap String.utf8EncodeChar := by
  rw [ofText, toList_eq, String.toUTF8, String.toByteArray_ofList, List.utf8Encode,
    List.toList_data_toByteArray]

theorem utf8EncodeChar_of_byte {b : UInt8} (h : b.toNat < 128) :
    String.utf8EncodeChar (Char.ofNat b.toNat) = [b] := by
  have hvalid : b.toNat.isValidChar := Or.inl (by omega)
  have hval : (Char.ofNat b.toNat).val.toNat = b.toNat := by
    rw [Char.ofNat, dif_pos hvalid]
    rfl
  rw [String.utf8EncodeChar.eq_def]
  dsimp only
  rw [hval, if_pos (by omega), UInt8.ofNat_toNat]

/-- A byte below 128 is a character of its own. -/
theorem ofText_of_bytes {bytes : List UInt8} (h : ∀ b ∈ bytes, b.toNat < 128) :
    ofText (String.ofList (bytes.map fun b => Char.ofNat b.toNat)) = bytes := by
  rw [ofText_ofList]
  induction bytes with
  | nil => rfl
  | cons b bytes ih =>
    rw [List.map_cons, List.flatMap_cons, utf8EncodeChar_of_byte (h b List.mem_cons_self),
      ih fun c hc => h c (List.mem_cons_of_mem _ hc)]
    rfl

end DirectoryGateway.Bytes
