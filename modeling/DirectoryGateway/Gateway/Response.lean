import DirectoryGateway.Json.Basic

/-!
# HTTP responses

A status, the headers that the gateway sets itself, and a body.
-/

namespace DirectoryGateway.Gateway

inductive Body where
  | empty
  | json (value : Json)
  | text (content : String)

structure Response where
  status : Nat
  headers : List (String × String)
  body : Body

namespace Response

def ofStatus (status : Nat) : Response :=
  ⟨status, [], .empty⟩

def ofJson (status : Nat) (value : Json) : Response :=
  ⟨status, [("content-type", "application/json")], .json value⟩

def ofText (status : Nat) (content : String) : Response :=
  ⟨status, [("content-type", "text/plain; charset=utf-8")], .text content⟩

def withHeader (r : Response) (name value : String) : Response :=
  { r with headers := r.headers ++ [(name, value)] }

def header? (r : Response) (name : String) : Option String :=
  r.headers.lookup name

def withoutBody (r : Response) : Response :=
  { r with body := .empty }

/-- A response as it goes over a connection: a request for the head alone gets no body. -/
def sent (r : Response) (method : String) : Response :=
  if method = "HEAD" then r.withoutBody else r

end Response

end DirectoryGateway.Gateway
