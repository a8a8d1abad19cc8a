import DirectoryGateway.Provider.Operation
import DirectoryGateway.Remote.Answer
import DirectoryGateway.Remote.Document

/-!
# Refusals of the pool service

What the service says when it refuses a call: a code and a message. They are first looked for in any body that is well
formed. A refusal that is laid down for its operation comes with a document of its own, and if that cannot be read, the
service has said nothing.
-/

namespace DirectoryGateway.Remote

open DirectoryGateway.Decimal
open DirectoryGateway.Json (Raw)
open DirectoryGateway.Provider

/-- A call that was refused, with what the service says about it. Without a code nothing it says counts. -/
structure Refusal where
  code : Option String
  message : Option String
  deriving Repr, DecidableEq

/-- A call that brought no answer that can be read. -/
def Refusal.silent : Refusal :=
  ⟨none, none⟩

/-- How it is put that an operation has failed with an answer, or without one, if the service says nothing about it. These words
are the client library's own. -/
abbrev Wording := Operation → Option Answer → String

/-! ### Well-formed bodies -/

/-- Whether a run of characters counts as a number: it begins with a minus or a digit, and has 64 bits without its
sign or else is a finite decimal. -/
def isNumeral (written : List UInt8) : Bool :=
  match numberChars written with
  | [] => false
  | c :: cs =>
    (c == '-' || Text.isDigit c) &&
      if isBroken cs then ((Literal.read? (c :: cs)).bind Literal.double?).isSome
      else (Text.readNat Text.maxWord64 (if c = '-' then cs else c :: cs)).toBool

def isWellFormed (v : Raw) : Bool :=
  v.all isNumeral Raw.isContent

/-- Whether a body that holds no record begins like a value. -/
def beginsLikeValue (body : List UInt8) : Bool :=
  match Json.skipBlanks body with
  | [] => true
  | b :: rest =>
    b == '['.toUInt8 ||
      match Raw.readWord (b :: rest) with
      | some (v, _) => isWellFormed v
      | none => false

/-- The fields of the record in a body. There are none in a body that begins with anything else. -/
def refusalFields? (body : List UInt8) : Option (List (List UInt8 × Raw)) :=
  if (Json.skipBlanks body).head? = some '\x7b'.toUInt8 then
    match Raw.read? body with
    | some (.record fields) => if isWellFormed (.record fields) then some fields else none
    | _ => none
  else if beginsLikeValue body then some []
  else none

/-! ### What they say -/

/-- The bare code: what comes before a colon, and of that what comes after the first number sign. -/
def bareCode (code : String) : String :=
  let cs := code.toList.takeWhile (· != ':')
  match cs.dropWhile (· != '#') with
  | _ :: rest => String.ofList rest
  | [] => String.ofList cs

/-- The text of the last field that has one of some names, unless that holds no string; `none` if one of these strings
is no text. Names count only as they are, without escapes. -/
def lastText (names : List String) : List (List UInt8 × Raw) → Option (Option String)
  | [] => some none
  | (key, v) :: rest =>
    if names.any fun name => Bytes.ofText name == key then
      match lastText names rest, v with
      | some later, .text content =>
        (Json.decode? content).map fun s =>
          if rest.any fun f => names.any fun name => Bytes.ofText name == f.1 then later else some s
      | later, _ => later
    else lastText names rest

/-- What the fields of a body say about a refusal, besides what a header says. -/
def refusalOf (header : Option String) (fields : List (List UInt8 × Raw)) : Refusal :=
  match lastText ["code"] fields, lastText ["__type"] fields,
    lastText ["message", "Message", "errorMessage"] fields with
  | some code, some kind, some message =>
    match header <|> code <|> kind with
    | some c => ⟨some (bareCode c), message⟩
    | none => .silent
  | _, _, _ => .silent

/-! ### Refusals that are laid down -/

/-- The codes laid down for every operation. -/
def commonCodes : List String :=
  ["InternalErrorException", "InvalidParameterException", "NotAuthorizedException",
    "ResourceNotFoundException", "TooManyRequestsException"]

def codes : Operation → List String
  | .listGroups | .listUsers | .listMembers => commonCodes
  | .getUser | .addMember | .removeMember => "UserNotFoundException" :: commonCodes

/-- The members of the document that comes with a code; they are texts. -/
def refusalMembers (code : String) : List String :=
  if code = "InvalidParameterException" then ["message", "reasonCode"] else ["message"]

/-- Whether the document that comes with a code can be read. -/
def isRefusalDocument (code : String) (body : List UInt8) : Bool :=
  match (readBody body).bind (Members.ofRaw? (refusalMembers code)) with
  | some ms => (refusalMembers code).all fun name => (ms.get readText name).isSome
  | none => false

def readRefusal (operation : Operation) (a : Answer) : Refusal :=
  match refusalFields? a.body with
  | none => .silent
  | some fields =>
    let refusal := refusalOf (a.header? "x-amzn-errortype") fields
    match refusal.code with
    | none => refusal
    | some code =>
      if (codes operation).contains code && !isRefusalDocument code a.body then .silent else refusal

end DirectoryGateway.Remote
