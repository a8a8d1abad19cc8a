import DirectoryGateway.Proofs.Encoding.Base64
import DirectoryGateway.Proofs.Text.Splitting
import DirectoryGateway.Token.Signer
import DirectoryGateway.Token.Verifier

/-!
# The parts of a token

A token and its parts determine each other, and what is encoded as a part is read back from it.
-/

namespace DirectoryGateway.Token

/-! ### Cutting -/

theorem cutAtPoints_eq_splitOn (bytes : List UInt8) : cutAtPoints bytes = bytes.splitOn point := by
  refine Text.eq_splitOn rfl ?_ bytes
  intro b rest
  rw [cutAtPoints]
  cases cutAtPoints rest <;> rfl

theorem ofToken?_eq_some_iff {token : List UInt8} {p : Parts} :
    Parts.ofToken? token = some p ↔
      token = p.header ++ point :: (p.payload ++ point :: p.signature) ∧
        point ∉ p.header ∧ point ∉ p.payload ∧ point ∉ p.signature := by
  have joined : [point].intercalate [p.header, p.payload, p.signature] =
      p.header ++ point :: (p.payload ++ point :: p.signature) := by
    simp [List.intercalate]
  rw [← joined, Parts.ofToken?, cutAtPoints_eq_splitOn]
  constructor
  · intro h
    split at h
    · next header payload signature hcut =>
      cases h
      have apart : ∀ part ∈ [header, payload, signature], point ∉ part := by
        intro part hpart
        rw [← hcut] at hpart
        exact Text.not_mem_of_mem_splitOn hpart
      refine ⟨?_, apart _ (by simp), apart _ (by simp), apart _ (by simp)⟩
      rw [← hcut, List.intercalate_splitOn]
    · cases h
  · rintro ⟨rfl, header, payload, signature⟩
    have apart : ∀ part ∈ [p.header, p.payload, p.signature], point ∉ part := by
      simp [header, payload, signature]
    rw [List.splitOn_intercalate point apart (by simp)]

/-! ### Encoding -/

theorem decodePart_encodePart (bytes : List UInt8) : decodePart (encodePart bytes) = some bytes := by
  rw [decodePart, encodePart, Base64.decode_encode Base64.urlSafe_lawful rfl]
  rfl

theorem forall_encodePart {P : UInt8 → Prop} (symbols : ∀ v < 64, P (Base64.urlSafe.symbol v))
    (bytes : List UInt8) : ∀ b ∈ encodePart bytes, P b :=
  Base64.forall_encode symbols (by simp) bytes

theorem point_not_mem_encodePart (bytes : List UInt8) : point ∉ encodePart bytes := by
  intro hmem
  exact forall_encodePart (P := (· ≠ point)) (by decide) bytes point hmem rfl

end DirectoryGateway.Token
