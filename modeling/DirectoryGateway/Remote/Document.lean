import DirectoryGateway.Decimal.Literal
import DirectoryGateway.Directory.Record
import DirectoryGateway.Json.Raw
import DirectoryGateway.Text.Integer
import DirectoryGateway.Time.Epoch
import DirectoryGateway.Time.Strict

/-!
# Documents of the pool service

The JSON documents in which the pool service answers. A member that is null is passed over, and otherwise a later member
replaces an earlier one of its name. Of unknown members only the form counts; but a known member of the wrong kind makes
the whole document unreadable, also where the gateway has no use for it. Strings may hold control characters, and
integers and times may be written more freely than in JSON.
-/

namespace DirectoryGateway.Remote

open DirectoryGateway.Decimal
open DirectoryGateway.Directory
open DirectoryGateway.Json (Raw)

/-! ### Members -/

/-- The known members of a document by name. -/
abbrev Members := List (String × Raw)

/-- Whether an unknown member can be passed over. -/
def isPassable (v : Raw) : Bool :=
  v.all Raw.isNumber fun _ => true

/-- The known members of a record; its keys must be texts. -/
def Members.ofFields (known : List String) : List (List UInt8 × Raw) → Option Members
  | [] => some []
  | (key, v) :: rest =>
    match Json.decode? key, Members.ofFields known rest with
    | some name, some ms =>
      if known.contains name then some ((name, v) :: ms)
      else if isPassable v then some ms
      else none
    | _, _ => none

def Members.ofRaw? (known : List String) : Raw → Option Members
  | .record fields => Members.ofFields known fields
  | _ => none

/-- The value of the last member of a name that is not null; all of that name must be readable. -/
def Members.get {α : Type} (read : Raw → Option α) (name : String) : Members → Option (Option α)
  | [] => some none
  | (_, .null) :: rest => Members.get read name rest
  | (n, v) :: rest =>
    if n = name then
      match read v, Members.get read name rest with
      | some first, some later => some (later <|> some first)
      | _, _ => none
    else Members.get read name rest

/-! ### Values -/

def readText : Raw → Option String
  | .text content => Json.decode? content
  | _ => none

def readFlag : Raw → Option Bool
  | .bool b => some b
  | _ => none

/-- The items of a list, none of which is null. -/
def readItems {α : Type} (read : Raw → Option α) : Raw → Option (List α)
  | .list items => items.mapM read
  | _ => none

def numberChars (written : List UInt8) : List Char :=
  written.map fun b => Char.ofNat b.toNat

/-- A whole number of 32 bits: digits after an optional sign. -/
def readInteger : Raw → Option Int
  | .number written =>
    (Text.readInt Text.maxInt32 (numberChars written)).toOption
  | _ => none

/-- Whether a number has a point or an exponent. -/
def isBroken (cs : List Char) : Bool :=
  cs.any fun c => c == '.' || c == 'e' || c == 'E'

/-- A number of seconds of the epoch; `none` inside if it has no date. A whole number of them is exact. -/
def readSeconds (cs : List Char) : Option (Option Time.Timestamp) :=
  if isBroken cs then do
    let l ← Literal.read? cs
    let x ← l.double?
    return Time.Timestamp.ofSeconds? l.negative x
  else (Text.readInt Text.maxInt64 cs).toOption.map fun n => Time.Timestamp.ofEpoch? n 0

/-- A point in time: a number of seconds, or a timestamp in its strict form. -/
def readTime : Raw → Option (Option Time.Timestamp)
  | .number written => readSeconds (numberChars written)
  | .text content => do
    let s ← Json.decode? content
    let t ← Time.Timestamp.readStrict? s.toList
    return some t
  | _ => none

/-! ### Records -/

/-- An attribute; without a value it says nothing. -/
def readAttribute (v : Raw) : Option (Option (String × String)) := do
  let ms ← Members.ofRaw? ["Name", "Value"] v
  let name ← ms.get readText "Name"
  let value ← ms.get readText "Value"
  return value.map fun x => (name.getD "", x)

/-- An option for codes; only its form matters. -/
def readDelivery (v : Raw) : Option Unit := do
  let ms ← Members.ofRaw? ["DeliveryMedium", "AttributeName"] v
  let _ ← ms.get readText "DeliveryMedium"
  let _ ← ms.get readText "AttributeName"
  return ()

def buildUser (username : Option String) (attributes : List (String × String)) (enabled : Option Bool)
    (status : Option String) (created : Option Time.Timestamp) : User :=
  let attributes := Attributes.ofList attributes
  { username := username.getD "", status := status, enabled := enabled.getD false
    email := attributes.get? "email", attributes := attributes, createdAt := created }

/-- The members of a user whose attributes are in the member of the given name. -/
def userMembers (attributesName : String) : List String :=
  ["Username", attributesName, "UserCreateDate", "UserLastModifiedDate", "Enabled", "UserStatus",
    "MFAOptions"]

def readUser (attributesName : String) (ms : Members) : Option User := do
  let username ← ms.get readText "Username"
  let attributes ← ms.get (readItems readAttribute) attributesName
  let created ← ms.get readTime "UserCreateDate"
  let _ ← ms.get readTime "UserLastModifiedDate"
  let enabled ← ms.get readFlag "Enabled"
  let status ← ms.get readText "UserStatus"
  let _ ← ms.get (readItems readDelivery) "MFAOptions"
  return buildUser username ((attributes.getD []).filterMap id) enabled status (created.bind id)

def readListedUser (v : Raw) : Option User :=
  (Members.ofRaw? (userMembers "Attributes") v).bind (readUser "Attributes")

def readSingleUser (v : Raw) : Option User := do
  let ms ← Members.ofRaw?
    (userMembers "UserAttributes" ++ ["PreferredMfaSetting", "UserMFASettingList"]) v
  let u ← readUser "UserAttributes" ms
  let _ ← ms.get readText "PreferredMfaSetting"
  let _ ← ms.get (readItems readText) "UserMFASettingList"
  return u

def readGroup (v : Raw) : Option Group := do
  let ms ← Members.ofRaw?
    ["GroupName", "UserPoolId", "Description", "RoleArn", "Precedence", "LastModifiedDate",
      "CreationDate"] v
  let name ← ms.get readText "GroupName"
  let _ ← ms.get readText "UserPoolId"
  let description ← ms.get readText "Description"
  let _ ← ms.get readText "RoleArn"
  let precedence ← ms.get readInteger "Precedence"
  let _ ← ms.get readTime "LastModifiedDate"
  let _ ← ms.get readTime "CreationDate"
  return ⟨name.getD "", description, precedence⟩

/-- A list of records and a token. -/
def readPage {α : Type} (read : Raw → Option α) (itemsName tokenName : String) (v : Raw) :
    Option (List α × Option String) := do
  let ms ← Members.ofRaw? [itemsName, tokenName] v
  let items ← ms.get (readItems read) itemsName
  let token ← ms.get readText tokenName
  return (items.getD [], token)

/-- A document of which nothing is known. -/
def readEmpty (v : Raw) : Option Unit :=
  (Members.ofRaw? [] v).map fun _ => ()

/-! ### Bodies -/

def maxDepth : Nat := 128

/-- The document in a body; a body of blanks is an empty document. -/
def readBody (body : List UInt8) : Option Raw :=
  if body.all Json.isBlankByte then some (.record [])
  else (Raw.read? body).filter fun v => v.depth ≤ maxDepth

end DirectoryGateway.Remote
