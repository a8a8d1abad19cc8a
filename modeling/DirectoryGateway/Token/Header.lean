import DirectoryGateway.Json.Reader
import DirectoryGateway.Json.Record
import DirectoryGateway.Json.Sound

/-!
# Token headers

The first part of a token. Only the key id matters, but the other known fields must be well formed, and the
algorithm must be RS256.
-/

namespace DirectoryGateway.Token

open Json (optional)

def headerFields : List Json.Field :=
  [⟨["typ"], false⟩, ⟨["alg"], false⟩, ⟨["cty"], false⟩, ⟨["jku"], false⟩, ⟨["jwk"], false⟩,
    ⟨["kid"], false⟩, ⟨["x5u"], false⟩, ⟨["x5c"], false⟩, ⟨["x5t"], false⟩, ⟨["x5t#S256"], false⟩]

/-! ### Enumerated values -/

/-- A value of an enumeration: its name, or a record of one field of that name that is null. -/
def enumeration? : Json → Option String
  | .text content => Json.decode? content
  | .record [(key, .null)] => Json.decode? key
  | _ => none

/-- Whether a value is one of some names. -/
def isOneOf (names : List String) (v : Json) : Bool :=
  match enumeration? v with
  | some name => names.contains name
  | none => false

def isText (v : Json) : Bool :=
  v.toText?.isSome

/-- Whether a value is a list of texts. -/
def isTexts (v : Json) : Bool :=
  (v.toList? Json.toText?).isSome

/-! ### Keys inside a header -/

def fieldsNamed (names : List String) : List Json.Field :=
  names.map fun name => ⟨[name], false⟩

def keyAlgorithms : List String :=
  ["HS256", "HS384", "HS512", "ES256", "ES384", "RS256", "RS384", "RS512", "PS256", "PS384", "PS512",
    "EdDSA", "RSA1_5", "RSA-OAEP", "RSA-OAEP-256"]

def curves : List String :=
  ["P-256", "P-384", "P-521", "Ed25519"]

/-- Whether an optional field passes a test. -/
def passes (test : Json → Bool) : Option Json → Bool
  | none => true
  | some .null => true
  | some v => test v

/-- Whether a required field passes a test. -/
def has (test : Json → Bool) : Option Json → Bool
  | none => false
  | some v => test v

/-- Whether the algorithm of a key is one that it may be for; it may also be a record of one field of that name that
holds nothing. -/
def isKeyAlgorithm : Json → Bool
  | .record [(key, .record [])] => isOneOf keyAlgorithms (.text key)
  | v => isOneOf keyAlgorithms v

/-- Whether the fields that every key may have are in order. -/
def hasKeyFields (v : Json) : Bool :=
  match Json.slots (fieldsNamed ["use", "key_ops", "alg", "kid", "x5u", "x5c", "x5t", "x5t#S256"]) v with
  | some [use, ops, alg, kid, x5u, x5c, x5t, x5t256] =>
    passes isText use && passes isTexts ops && passes isKeyAlgorithm alg && passes isText kid &&
      passes isText x5u && passes isTexts x5c && passes isText x5t && passes isText x5t256
  | _ => false

/-- Whether a value has the fields of a key of some type. Only the fields of that type must not be repeated. -/
def hasType (type : String) (tests : List (String × (Json → Bool))) (v : Json) : Bool :=
  match Json.slots (fieldsNamed ("kty" :: tests.map Prod.fst)) v with
  | some (kty :: values) =>
    has (isOneOf [type]) kty && (List.zipWith (fun t x => has t.2 x) tests values).all id
  | _ => false

/-- Whether a value is a key. It is held as a whole before its fields are looked at. -/
def isKey (v : Json) : Bool :=
  match v with
  | .record _ =>
    v.isSound && v.depth < Json.maxDepth && hasKeyFields v &&
      (hasType "EC" [("crv", isOneOf curves), ("x", isText), ("y", isText)] v ||
        hasType "RSA" [("n", isText), ("e", isText)] v ||
        hasType "oct" [("k", isText)] v ||
        hasType "OKP" [("crv", isOneOf curves), ("x", isText)] v)
  | _ => false

/-! ### Headers -/

/-- The key id of a header for RS256. -/
def headerKeyId? (v : Json) : Option String :=
  match Json.slots headerFields v with
  | some [typ, alg, cty, jku, jwk, kid, x5u, x5c, x5t, x5t256] =>
    if passes isText typ && has (isOneOf ["RS256"]) alg && passes isText cty && passes isText jku &&
        passes isKey jwk && passes isText x5u && passes isTexts x5c && passes isText x5t &&
        passes isText x5t256 then
      (optional Json.toText? kid).bind id
    else none
  | _ => none

end DirectoryGateway.Token
