import DirectoryGateway.Json.Record
import DirectoryGateway.Provider.Service
import DirectoryGateway.Remote.Refusal

/-!
# The pool service as a provider

Each provider operation is one request to the pool service, which is never repeated: whether to try again is for
those to decide who made the call. Every call is counted with its outcome. The answers are laid down in advance, and
the requests are kept.
-/

namespace DirectoryGateway.Remote

open DirectoryGateway.Directory
open DirectoryGateway.Json (Raw)
open DirectoryGateway.Provider

/-! ### Requests -/

/-- The service's name for an operation. -/
def action : Operation → String
  | .listGroups => "ListGroups"
  | .listUsers => "ListUsers"
  | .listMembers => "ListUsersInGroup"
  | .getUser => "AdminGetUser"
  | .addMember => "AdminAddUserToGroup"
  | .removeMember => "AdminRemoveUserFromGroup"

structure Sent where
  operation : Operation
  body : List (String × Json)

def Sent.target (s : Sent) : String :=
  "AWSCognitoIdentityProviderService." ++ action s.operation

def tokenName : Operation → String
  | .listUsers => "PaginationToken"
  | _ => "NextToken"

def pageRequest (pageSize : Int) (operation : Operation) (r : ListingRequest) : Sent :=
  ⟨operation, [("UserPoolId", .str r.pool)] ++
    (match operation with
      | .listMembers => Json.field? "GroupName" (r.group.map .str)
      | _ => []) ++
    [("Limit", .int pageSize)] ++ Json.field? (tokenName operation) (r.cursor.map .str)⟩

def userRequest (pool username : String) : Sent :=
  ⟨.getUser, [("UserPoolId", .str pool), ("Username", .str username)]⟩

def changeRequest (operation : Operation) (pool username group : String) : Sent :=
  ⟨operation, [("UserPoolId", .str pool), ("Username", .str username), ("GroupName", .str group)]⟩

/-! ### Answers -/

/-- What an answer to an operation comes to: a refusal, or what is read from the document of a success. -/
def readAnswer {α : Type} (operation : Operation) (read : Raw → Option α) (answer : Option Answer) :
    Except Refusal α :=
  match answer.bind Answer.received? with
  | none => .error .silent
  | some a =>
    if a.isSuccess then
      match (readBody a.body).bind read with
      | some v => .ok v
      | none => .error .silent
    else .error (readRefusal operation a)

def readGroups (document : Raw) : Option (Page Group) := do
  let (items, token) ← readPage readGroup "Groups" (tokenName .listGroups) document
  return .ofItems items token

def readUsers (operation : Operation) (document : Raw) : Option (Page User) := do
  let (items, token) ← readPage readListedUser "Users" (tokenName operation) document
  return .ofItems items token

/-! ### The line -/

/-- The connection to the service: the answers to come, and the requests so far. -/
structure Line where
  answers : List (Option Answer)
  sent : List Sent
  wording : Wording

/-- Sends a request and reads its answer. -/
def Line.exchange {α : Type} (read : Raw → Option α) (request : Sent) (l : Line) :
    Except Refusal α × Line :=
  (readAnswer request.operation read (l.answers.head?.bind id),
    { l with answers := l.answers.tail, sent := l.sent ++ [request] })

def Refusal.failure (wording : Wording) (operation : Operation) (answer : Option Answer) (r : Refusal) : Failure :=
  .ofCode operation.label r.code (r.message.getD (wording operation answer))

def callNote {α : Type} (operation : Operation) : Except Refusal α → Telemetry.Note
  | .ok _ => .providerCall operation.label "success" 0
  | .error r => .providerCall operation.label (classify r.code).label 0

def Line.call {α : Type} (read : Raw → Option α) (request : Sent) (l : Line) :
    Reply α × Line :=
  let (result, l') := l.exchange read request
  let failure := Refusal.failure l.wording request.operation (l.answers.head?.bind id)
  (⟨0, result.mapError failure, [callNote request.operation result], false⟩, l')

/-! ### The provider -/

/-- The pool service, asked for pages of the given size, as a directory provider. -/
def service (pageSize : Int) : Service Line where
  groups r l := l.call readGroups (pageRequest pageSize .listGroups r)
  users r l := l.call (readUsers .listUsers) (pageRequest pageSize .listUsers r)
  members r l := l.call (readUsers .listMembers) (pageRequest pageSize .listMembers r)
  user pool username l := l.call readSingleUser (userRequest pool username)
  addMember pool username group l := l.call readEmpty (changeRequest .addMember pool username group)
  removeMember pool username group l :=
    l.call readEmpty (changeRequest .removeMember pool username group)
  pagesLeft l := l.answers.length

end DirectoryGateway.Remote
