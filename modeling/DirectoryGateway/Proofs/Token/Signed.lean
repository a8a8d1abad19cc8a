import DirectoryGateway.Proofs.Crypto.Signature
import DirectoryGateway.Proofs.Json.RoundTrip
import DirectoryGateway.Proofs.Token.Parts
import DirectoryGateway.Sample.Draft

/-!
# Tokens that were signed

A verifier takes a signed token apart as it was put together. If it holds the key, all that is left to decide is whether it
takes the claims.
-/

namespace DirectoryGateway.Token

open DirectoryGateway.Crypto

/-! ### Signing -/

/-- What the signature of a token is over. -/
def signedMessage (keyId : String) (claims : Json) : List UInt8 :=
  encodePart (Json.render (signingHeader keyId)) ++ point :: encodePart (Json.render claims.canonical)

theorem sign_eq (key : Rsa.PrivateKey) (keyId : String) (claims : Json) :
    sign key keyId claims = encodePart (Json.render (signingHeader keyId)) ++ point ::
      (encodePart (Json.render claims.canonical) ++ point ::
        encodePart (key.sign (signedMessage keyId claims))) := by
  simp [sign, signedMessage, point]

theorem ofToken?_sign (key : Rsa.PrivateKey) (keyId : String) (claims : Json) :
    Parts.ofToken? (sign key keyId claims) =
      some ⟨encodePart (Json.render (signingHeader keyId)), encodePart (Json.render claims.canonical),
        encodePart (key.sign (signedMessage keyId claims))⟩ :=
  ofToken?_eq_some_iff.mpr ⟨sign_eq key keyId claims, point_not_mem_encodePart _,
    point_not_mem_encodePart _, point_not_mem_encodePart _⟩

theorem forall_sign {P : UInt8 → Prop} (symbols : ∀ v < 64, P (Base64.urlSafe.symbol v))
    (atPoint : P point) (key : Rsa.PrivateKey) (keyId : String) (claims : Json) :
    ∀ b ∈ sign key keyId claims, P b := by
  rw [sign_eq]
  simp only [List.forall_mem_append, List.forall_mem_cons]
  exact ⟨forall_encodePart symbols _, atPoint, forall_encodePart symbols _, atPoint,
    forall_encodePart symbols _⟩

theorem length_sign (key : Rsa.PrivateKey) (keyId : String) (claims : Json) :
    (sign key keyId claims).length =
      (signedMessage keyId claims).length + 1 + (Bytes.width key.modulus * 4 + 2) / 3 := by
  rw [sign_eq, signedMessage, Rsa.PrivateKey.sign]
  simp only [List.length_append, List.length_cons]
  rw [encodePart, encodePart, encodePart, Base64.length_encode_unpadded,
    Base64.length_encode_unpadded, Base64.length_encode_unpadded, Bytes.length_ofNat]
  omega

/-! ### Verifying -/

theorem headerKeyId?_signingHeader (keyId : String) : headerKeyId? (signingHeader keyId) = some keyId := by
  have slots : Json.slots headerFields (signingHeader keyId) =
      some [some (.str "JWT"), some (.str "RS256"), none, none, none, some (.str keyId), none, none, none, none] := by
    simp [Json.slots, signingHeader, Json.obj, headerFields, Json.fillSlots, Json.fillSlot]
  have typ : isText (.str "JWT") = true := by
    rw [isText, Json.toText?_str]
    rfl
  have algorithm : isOneOf ["RS256"] (.str "RS256") = true := by
    rw [isOneOf, Json.str, enumeration?, Json.decode?_encode]
    rfl
  have kid : Json.optional Json.toText? (some (.str keyId)) = some (some keyId) :=
    congrArg (Option.map some) (Json.toText?_str keyId)
  have typ_passes : passes isText (some (.str "JWT")) = true := typ
  rw [headerKeyId?, slots]
  dsimp only
  rw [typ_passes, has, algorithm, kid]
  rfl

theorem read?_signingHeader (keyId : String) :
    Json.read? (Json.render (signingHeader keyId)) = some (signingHeader keyId) := by
  refine Json.read?_render (Json.wellFormed_obj ?_)
  simp only [List.forall_mem_cons, List.not_mem_nil, false_implies, implies_true, Json.wellFormed_str, and_self]

theorem verify_long {v : Verifier} {now : Nat} {token : List UInt8} (long : maxTokenSize < token.length) :
    v.verify now token = .error .tooLong := by
  rw [Verifier.verify, if_pos long]

/-- A verifier that holds the key of a token of no excessive length looks at its claims only. -/
theorem verify_sign {v : Verifier} {now : Nat} {key : Rsa.PrivateKey} {keyId : String} {claims : Json}
    {held : LoadedKey} (short : (sign key keyId claims).length ≤ maxTokenSize)
    (holds : v.keys.lookup keyId = some held)
    (verified : held.verifies (signedMessage keyId claims) (key.sign (signedMessage keyId claims)) = true) :
    v.verify now (sign key keyId claims) =
      v.checkClaims now (encodePart (Json.render claims.canonical)) := by
  rw [Verifier.verify, if_neg (by omega), ofToken?_sign]
  dsimp only
  rw [decodePart_encodePart, Option.bind_some, read?_signingHeader, Option.bind_some,
    headerKeyId?_signingHeader]
  dsimp only
  rw [holds]
  dsimp only
  rw [decodePart_encodePart]
  exact if_pos verified

theorem verifies_of_publicKey {held : LoadedKey} {publicKey : Rsa.PublicKey} {message signature : List UInt8}
    (h : held.publicKey? = some publicKey) :
    held.verifies message signature = publicKey.verifies message signature := by
  rw [LoadedKey.verifies, h]

theorem loadKey_encodeText (der : List UInt8) :
    loadKey (Base64.standard.encodeText true der) = loadPem (Pem.ofPublicKey der) := by
  rw [loadKey, Base64.ofText_encodeText (by decide), Base64.decode_encode Base64.standard_lawful rfl]

end DirectoryGateway.Token
