import DirectoryGateway.Base64
import DirectoryGateway.Der.PublicKey
import DirectoryGateway.KeySet.Jwk
import DirectoryGateway.Text.Quoted

/-!
# Resolved keys

A published set becomes a map from key ids to public keys in DER, written in base64. Every key must be an RSA key
with a modulus and the exponent 65537, and every key id must occur once: the first key that is not so is reported,
and then there is no map at all.
-/

namespace DirectoryGateway.KeySet

open DirectoryGateway.Text

/-! ### Faults -/

inductive ModulusFault where
  | missing
  | undecodable (fault : Base64.Fault)
  /-- Nothing but zero bytes. -/
  | zero
  deriving Repr, DecidableEq

def ModulusFault.message : ModulusFault → String
  | .missing => "missing modulus"
  | .undecodable fault => fault.message
  | .zero => "modulus is empty"

inductive ResolveFault where
  | keyType (keyId keyType : String)
  | modulus (keyId : String) (fault : ModulusFault)
  | exponent (keyId exponent : String)
  | duplicate (keyId : String)
  deriving Repr, DecidableEq

namespace ResolveFault

def label : ResolveFault → String
  | .keyType .. => "UnsupportedKeyType"
  | .modulus .. => "KeyDecode"
  | .exponent .. => "UnsupportedExponent"
  | .duplicate _ => "DuplicateKeyId"

def message : ResolveFault → String
  | .keyType keyId given => "key " ++ keyId ++ ": unsupported key type " ++ quoted given
  | .modulus keyId fault => "key " ++ keyId ++ ": cannot decode modulus: " ++ fault.message
  | .exponent keyId given => "key " ++ keyId ++ ": unsupported exponent " ++ quoted given
  | .duplicate keyId => "key id " ++ keyId ++ " appears more than once"

def parts : ResolveFault → List (String × String)
  | .keyType keyId given => [("kid", keyId), ("kty", given)]
  | .modulus keyId fault => [("kid", keyId), ("reason", fault.message)]
  | .exponent keyId given => [("kid", keyId), ("exponent", given)]
  | .duplicate keyId => [("kid", keyId)]

/-- The form in which a fault ends the program. -/
def diagnostic (f : ResolveFault) : String :=
  quotedRecord f.label f.parts

end ResolveFault

/-! ### One key -/

/-- The spellings of 65537: in three bytes, or with a zero byte in front. -/
def acceptedExponents : List String :=
  ["AQAB", "AAEAAQ"]

def exponentBytes : List UInt8 :=
  [0x01, 0x00, 0x01]

def withoutPadding (s : String) : String :=
  String.ofList (s.toList.reverse.dropWhile (· == '=')).reverse

def readModulus : Option String → Except ModulusFault (List UInt8)
  | none => .error .missing
  | some text =>
    match Base64.urlSafe.decode .indifferent (Bytes.ofText text) with
    | .error fault => .error (.undecodable fault)
    | .ok bytes => if bytes.all (· == 0) then .error .zero else .ok bytes

/-- The public key of a published key, in DER. -/
def Jwk.resolve (k : Jwk) : Except ResolveFault (List UInt8) :=
  if k.keyType ≠ "RSA" then .error (.keyType k.keyId k.keyType)
  else
    match readModulus k.modulus with
    | .error fault => .error (.modulus k.keyId fault)
    | .ok modulus =>
      let exponent := k.exponent.getD ""
      if withoutPadding exponent ∈ acceptedExponents then
        .ok (Der.subjectPublicKeyInfo modulus exponentBytes)
      else .error (.exponent k.keyId exponent)

/-! ### Sets -/

/-- Key ids with DER in base64, in the order of the set, each id once. -/
abbrev KeyMap := List (String × String)

/-- Resolves keys one after the other into a map that is there already. -/
def resolveInto (resolved : KeyMap) : List Jwk → Except ResolveFault KeyMap
  | [] => .ok resolved
  | k :: ks =>
    match k.resolve with
    | .error fault => .error fault
    | .ok der =>
      -- A repeated id counts only when the key is in order itself.
      if (resolved.lookup k.keyId).isSome then .error (.duplicate k.keyId)
      else resolveInto (resolved ++ [(k.keyId, Base64.standard.encodeText true der)]) ks

def JwkSet.resolve (s : JwkSet) : Except ResolveFault KeyMap :=
  resolveInto [] s.keys

end DirectoryGateway.KeySet
