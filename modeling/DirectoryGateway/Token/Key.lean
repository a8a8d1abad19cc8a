import DirectoryGateway.Crypto.Rsa
import DirectoryGateway.Der.Item
import DirectoryGateway.Der.PublicKey
import DirectoryGateway.Pem

/-!
# Verification keys

A key arrives as DER in base64 and is loaded by way of its PEM text. It must name the RSA algorithm before any
other known one, and the first bit string or octet string holds the bare key. Whether that is a usable public key
shows only when a signature is checked.
-/

namespace DirectoryGateway.Token

/-! ### Faults -/

inductive KeyFault where
  | undecodable (fault : Base64.Fault)
  /-- Not DER, or not an RSA key. -/
  | invalidFormat
  /-- No string that could hold the bare key. -/
  | noContent
  deriving Repr, DecidableEq

def KeyFault.message : KeyFault → String
  | .undecodable fault => fault.message
  | .invalidFormat => "InvalidKeyFormat"
  | .noContent => "InvalidEcdsaKey"

/-! ### Searching -/

/-- The kinds of keys that are told apart. -/
inductive KeyKind where
  | ellipticCurve
  | rsa
  | edwards
  deriving Repr, DecidableEq

/-- The kind that an object identifier names. -/
def kindOfArcs : List Nat → Option KeyKind
  | [1, 2, 840, 10045, 2, 1] => some .ellipticCurve
  | [1, 2, 840, 113549, 1, 1, 1] => some .rsa
  | [1, 3, 101, 112] => some .edwards
  | _ => none

def kindOfItem : Der.Item → Option KeyKind
  | .objectId arcs => kindOfArcs arcs
  | _ => none

/-- The content of a bit string or octet string. -/
def contentOfItem : Der.Item → Option (List UInt8)
  | .bits content => some content
  | .octets content => some content
  | _ => none

/-! ### Loading -/

/-- A loaded key: what should be a bare public key in DER. -/
structure LoadedKey where
  content : List UInt8
  deriving Repr, DecidableEq

def LoadedKey.publicKey? (k : LoadedKey) : Option Crypto.Rsa.PublicKey :=
  (Der.readRsaPublicKey k.content).map fun (n, e) => ⟨n, e⟩

def LoadedKey.verifies (k : LoadedKey) (message signature : List UInt8) : Bool :=
  match k.publicKey? with
  | some key => key.verifies message signature
  | none => false

def loadPem (pem : List UInt8) : Except KeyFault LoadedKey :=
  match (Pem.toPublicKey? pem).bind Der.items with
  | none => .error .invalidFormat
  | some items =>
    match Der.findAmong kindOfItem items with
    | some .rsa =>
      match Der.findAmong contentOfItem items with
      | some content => .ok ⟨content⟩
      | none => .error .noContent
    | _ => .error .invalidFormat

/-- Loads a key from DER in base64. -/
def loadKey (text : String) : Except KeyFault LoadedKey :=
  match Base64.standard.decode .canonical (Bytes.ofText text) with
  | .error fault => .error (.undecodable fault)
  | .ok der => loadPem (Pem.ofPublicKey der)

end DirectoryGateway.Token
