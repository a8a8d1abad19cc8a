import DirectoryGateway.Json.Reader
import DirectoryGateway.Json.Record

/-!
# Published key sets

The JSON document in which a pool publishes the keys that its tokens are signed with.
-/

namespace DirectoryGateway.KeySet

open Json (required optional field?)

/-! ### Keys -/

structure Jwk where
  keyType : String
  keyId : String
  /-- The modulus, in base64 with the alphabet for URLs. -/
  modulus : Option String
  exponent : Option String
  algorithm : Option String
  use : Option String
  deriving Repr, DecidableEq

def Jwk.fields : List Json.Field :=
  [⟨["kty"], false⟩, ⟨["kid"], false⟩, ⟨["n"], true⟩, ⟨["e"], true⟩, ⟨["alg"], true⟩,
    ⟨["use"], true⟩]

def Jwk.toJson (k : Jwk) : Json :=
  .obj ([("kty", .str k.keyType), ("kid", .str k.keyId)] ++ field? "n" (k.modulus.map .str) ++
    field? "e" (k.exponent.map .str) ++ field? "alg" (k.algorithm.map .str) ++
    field? "use" (k.use.map .str))

def Jwk.ofJson? (v : Json) : Option Jwk :=
  match Json.slots Jwk.fields v with
  | some [kty, kid, n, e, alg, use] => do
    return {
      keyType := ← required Json.toText? kty
      keyId := ← required Json.toText? kid
      modulus := ← optional Json.toText? n
      exponent := ← optional Json.toText? e
      algorithm := ← optional Json.toText? alg
      use := ← optional Json.toText? use }
  | _ => none

/-! ### Sets -/

structure JwkSet where
  keys : List Jwk
  deriving Repr, DecidableEq

def JwkSet.fields : List Json.Field :=
  [⟨["keys"], false⟩]

def JwkSet.toJson (s : JwkSet) : Json :=
  .obj [("keys", .list (s.keys.map Jwk.toJson))]

def JwkSet.ofJson? (v : Json) : Option JwkSet :=
  match Json.slots JwkSet.fields v with
  | some [keys] => do return { keys := ← required (Json.toList? Jwk.ofJson?) keys }
  | _ => none

def JwkSet.read? (document : List UInt8) : Option JwkSet :=
  (Json.read? document).bind JwkSet.ofJson?

end DirectoryGateway.KeySet
