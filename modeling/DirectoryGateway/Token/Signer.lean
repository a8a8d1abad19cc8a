import DirectoryGateway.Base64
import DirectoryGateway.Crypto.Rsa
import DirectoryGateway.Json.Canonical

/-!
# Signing tokens

A token for any claims, signed with RS256. The claims go into it in canonical form.
-/

namespace DirectoryGateway.Token

def signingHeader (keyId : String) : Json :=
  .obj [("typ", .str "JWT"), ("alg", .str "RS256"), ("kid", .str keyId)]

def encodePart (bytes : List UInt8) : List UInt8 :=
  Base64.urlSafe.encode false bytes

/-- A token for claims, with a key and its id. -/
def sign (key : Crypto.Rsa.PrivateKey) (keyId : String) (claims : Json) : List UInt8 :=
  let signed :=
    encodePart (Json.render (signingHeader keyId)) ++ '.'.toUInt8 ::
      encodePart (Json.render claims.canonical)
  signed ++ '.'.toUInt8 :: encodePart (key.sign signed)

end DirectoryGateway.Token
