import DirectoryGateway.Json.Reader
import DirectoryGateway.Json.Record
import DirectoryGateway.Text.Blank
import DirectoryGateway.Text.Integer
import DirectoryGateway.Text.Quoted

/-!
# Claims

What a token says about its bearer. The user name goes by one name in access tokens and by another in ID tokens;
both are read. The subject is kept out of diagnostic texts.
-/

namespace DirectoryGateway.Token

open DirectoryGateway.Text (maxInt64 quoted)
open Json (required optional withDefault field?)

structure Claims where
  subject : String
  /-- When the token ends, in seconds of the epoch. -/
  expires : Int
  issued : Int
  /-- The kind of token: access or id. -/
  use : String
  username : Option String
  groups : List String
  client : Option String
  /-- Scopes with blanks between them. -/
  scope : Option String
  deriving Repr, DecidableEq

namespace Claims

/-! ### JSON -/

def fields : List Json.Field :=
  [⟨["sub"], false⟩, ⟨["exp"], false⟩, ⟨["iat"], false⟩, ⟨["token_use"], false⟩,
    ⟨["username", "cognito:username"], true⟩, ⟨["cognito:groups"], true⟩, ⟨["client_id"], true⟩,
    ⟨["scope"], true⟩]

/-- Reads a time: an integer of 64 bits. -/
def timeOfJson? (v : Json) : Option Int :=
  v.toInt? (-(maxInt64 : Int) - 1) maxInt64

def ofJson? (v : Json) : Option Claims :=
  match Json.slots fields v with
  | some [sub, exp, iat, use, username, groups, client, scope] => do
    return {
      subject := ← required Json.toText? sub
      expires := ← required timeOfJson? exp
      issued := ← required timeOfJson? iat
      use := ← required Json.toText? use
      username := ← optional Json.toText? username
      groups := ← withDefault [] (Json.toList? Json.toText?) groups
      client := ← optional Json.toText? client
      scope := ← optional Json.toText? scope }
  | _ => none

/-- Claims as JSON; absent claims and an empty list of groups are left out. -/
def toJson (c : Claims) : Json :=
  .obj ([("sub", .str c.subject), ("exp", .int c.expires), ("iat", .int c.issued),
    ("token_use", .str c.use)] ++ field? "username" (c.username.map .str) ++
    (if c.groups = [] then [] else [("cognito:groups", .list (c.groups.map .str))]) ++
    field? "client_id" (c.client.map .str) ++ field? "scope" (c.scope.map .str))

/-! ### Questions -/

def isMember (c : Claims) (group : String) : Bool :=
  c.groups.contains group

def scopes (c : Claims) : List String :=
  match c.scope with
  | some s => Text.words s
  | none => []

def profile (c : Claims) : Json :=
  .obj ([("sub", .str c.subject)] ++ field? "username" (c.username.map .str) ++
    [("groups", .list (c.groups.map .str)), ("scopes", .list (c.scopes.map .str)),
      ("token_use", .str c.use), ("exp", .int c.expires), ("iat", .int c.issued)])

/-! ### Diagnostic text -/

/-- The diagnostic form of a text that may be absent. -/
def optionText : Option String → String
  | some s => "Some(" ++ quoted s ++ ")"
  | none => "None"

/-- The diagnostic form of claims, without the subject. -/
def diagnostic (c : Claims) : String :=
  "Claims \x7b sub: \"[REDACTED]\", exp: " ++ toString c.expires ++ ", iat: " ++ toString c.issued ++
    ", token_use: " ++ quoted c.use ++ ", username: " ++ optionText c.username ++
    ", groups: [" ++ String.intercalate ", " (c.groups.map quoted) ++ "], client_id: " ++
    optionText c.client ++ ", scope: " ++ optionText c.scope ++ " \x7d"

end Claims

end DirectoryGateway.Token
