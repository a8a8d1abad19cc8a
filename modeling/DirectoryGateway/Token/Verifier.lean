import DirectoryGateway.KeySet.Resolve
import DirectoryGateway.Token.Claims
import DirectoryGateway.Token.Header
import DirectoryGateway.Token.Key
import DirectoryGateway.Token.Registered

/-!
# Verifying tokens

A token is three parts in base64 with points between them: header, claims and signature. It is accepted if its
header names a key of the verifier, the signature over the first two parts verifies under that key, the claims can be
read, issuer and kind are as they should be, and the clock stands between the time of issue and the end, give or
take the leeway. Times are seconds of the epoch.
-/

namespace DirectoryGateway.Token

/-! ### Verifiers -/

inductive LoadFault where
  | emptyKeySet
  | invalidKey (keyId : String) (fault : KeyFault)
  deriving Repr, DecidableEq

namespace LoadFault

def label : LoadFault → String
  | .emptyKeySet => "EmptyKeySet"
  | .invalidKey .. => "InvalidKey"

def message : LoadFault → String
  | .emptyKeySet => "no verification keys available"
  | .invalidKey keyId fault => "verification key " ++ keyId ++ " is unusable: " ++ fault.message

/-- The form in which a fault ends the program. -/
def diagnostic : LoadFault → String
  | .emptyKeySet => "EmptyKeySet"
  | .invalidKey keyId fault =>
    Text.quotedRecord "InvalidKey" [("kid", keyId), ("reason", fault.message)]

end LoadFault

structure Verifier where
  keys : List (String × LoadedKey)
  issuer : String
  leeway : Nat
  deriving Repr, DecidableEq

namespace Verifier

def loadKeys : KeySet.KeyMap → Except LoadFault (List (String × LoadedKey))
  | [] => .ok []
  | (keyId, text) :: rest =>
    match loadKey text with
    | .error fault => .error (.invalidKey keyId fault)
    | .ok key =>
      match loadKeys rest with
      | .error fault => .error fault
      | .ok keys => .ok ((keyId, key) :: keys)

def ofKeyMap (keys : KeySet.KeyMap) (issuer : String) (leeway : Nat) : Except LoadFault Verifier :=
  if keys.isEmpty then .error .emptyKeySet
  else (loadKeys keys).map fun keys => ⟨keys, issuer, leeway⟩

def keyCount (v : Verifier) : Nat :=
  v.keys.length

end Verifier

/-! ### Parts -/

/-- The most bytes a token may have. -/
def maxTokenSize : Nat := 8192

structure Parts where
  header : List UInt8
  payload : List UInt8
  signature : List UInt8
  deriving Repr, DecidableEq

def point : UInt8 := '.'.toUInt8

def cutAtPoints : List UInt8 → List (List UInt8)
  | [] => [[]]
  | b :: rest =>
    if b = point then [] :: cutAtPoints rest
    else
      match cutAtPoints rest with
      | [] => [[b]]
      | p :: ps => (b :: p) :: ps

def Parts.ofToken? (token : List UInt8) : Option Parts :=
  match cutAtPoints token with
  | [header, payload, signature] => some ⟨header, payload, signature⟩
  | _ => none

/-- What the signature is over. -/
def Parts.signed (p : Parts) : List UInt8 :=
  p.header ++ point :: p.payload

def decodePart (part : List UInt8) : Option (List UInt8) :=
  (Base64.urlSafe.decode .absent part).toOption

/-! ### Verification -/

inductive Rejection where
  | tooLong
  | malformed
  | unknownKey
  | badSignature
  | unreadableClaims
  | registeredClaims
  | expired
  | wrongUse
  | issuedInFuture
  deriving Repr, DecidableEq

def acceptedUses : List String :=
  ["access", "id"]

namespace Verifier

/-- Checks the claims of a token whose signature is in order. -/
def checkClaims (v : Verifier) (now : Nat) (payload : List UInt8) : Except Rejection Claims :=
  match decodePart payload with
  | none => .error .unreadableClaims
  | some document =>
    match (Json.read? document).bind Claims.ofJson? with
    | none => .error .unreadableClaims
    | some claims =>
      if !registeredInOrder v.issuer document then .error .registeredClaims
      -- An end before the epoch has passed, however large the leeway.
      else if claims.expires < 0 ∨ claims.expires < (now : Int) - v.leeway then .error .expired
      else if claims.use ∉ acceptedUses then .error .wrongUse
      else if (now : Int) + v.leeway < claims.issued then .error .issuedInFuture
      else .ok claims

def verify (v : Verifier) (now : Nat) (token : List UInt8) : Except Rejection Claims :=
  if maxTokenSize < token.length then .error .tooLong
  else
    match Parts.ofToken? token with
    | none => .error .malformed
    | some parts =>
      match ((decodePart parts.header).bind Json.read?).bind headerKeyId? with
      | none => .error .malformed
      | some keyId =>
        match v.keys.lookup keyId with
        | none => .error .unknownKey
        | some key =>
          match decodePart parts.signature with
          | none => .error .badSignature
          | some signature =>
            if key.verifies parts.signed signature then v.checkClaims now parts.payload
            else .error .badSignature

end Verifier

end DirectoryGateway.Token
