import DirectoryGateway.Sample.Keys
import DirectoryGateway.KeySet.Resolve
import DirectoryGateway.Token.Signer

/-!
# Sample tokens

The published set of the primary key, and drafts of claims that start from a valid access token and are changed
field by field.
-/

namespace DirectoryGateway.Sample

open DirectoryGateway.KeySet

/-! ### The primary key as it is published -/

def primaryModulusText : String :=
  Base64.urlSafe.encodeText false (Bytes.minimal primaryKey.modulus)

def primaryDer : List UInt8 :=
  Der.subjectPublicKeyInfo (Bytes.minimal primaryKey.modulus) (Bytes.minimal publicExponent)

def primaryKeyMap : KeyMap :=
  [(primaryKeyId, Base64.standard.encodeText true primaryDer)]

/-- The set that publishes the primary key, with an exponent as it is written. -/
def primaryKeySet (exponent : String) : JwkSet :=
  ⟨[{ keyType := "RSA", keyId := primaryKeyId, modulus := some primaryModulusText
      exponent := some exponent, algorithm := some "RS256", use := some "sig" }]⟩

/-! ### Drafts -/

structure Draft where
  subject : String
  username : String
  groups : List String
  use : String
  issuer : String
  scope : String
  expires : Int
  issued : Int
  deriving Repr, DecidableEq

namespace Draft

/-- The draft of an access token that ends in an hour. -/
def fresh (now : Nat) : Draft where
  subject := "0b7e4a52-test-subject"
  username := "test-user"
  groups := []
  use := "access"
  issuer := primaryIssuer
  scope := "aws.cognito.signin.user.admin"
  expires := now + 3600
  issued := now

def forUser (d : Draft) (username : String) : Draft :=
  { d with username := username }

def inGroup (d : Draft) (group : String) : Draft :=
  { d with groups := d.groups ++ [group] }

def withUse (d : Draft) (use : String) : Draft :=
  { d with use := use }

def withIssuer (d : Draft) (issuer : String) : Draft :=
  { d with issuer := issuer }

def withScope (d : Draft) (scope : String) : Draft :=
  { d with scope := scope }

def expiresIn (d : Draft) (now : Nat) (seconds : Int) : Draft :=
  { d with expires := now + seconds }

def issuedAt (d : Draft) (time : Int) : Draft :=
  { d with issued := time }

def claims (d : Draft) : Json :=
  .obj [("sub", .str d.subject), ("iss", .str d.issuer), ("token_use", .str d.use),
    ("username", .str d.username), ("cognito:groups", .list (d.groups.map .str)),
    ("scope", .str d.scope), ("client_id", .str "test-client"), ("exp", .int d.expires),
    ("iat", .int d.issued)]

/-- The token of a draft, signed with the primary key. -/
def sign (d : Draft) : List UInt8 :=
  Token.sign primaryKey primaryKeyId d.claims

end Draft

end DirectoryGateway.Sample
