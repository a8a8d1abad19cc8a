/-!
# Failed provider calls

Every failure of the directory provider has a kind of our own. The provider reports failures by vendor codes;
`classify` is the only place that knows them. Throttling is the only kind that is worth a retry.
-/

namespace DirectoryGateway.Provider

/-! ### Kinds -/

inductive FailureKind where
  | throttled
  /-- No such user, group or pool. -/
  | notFound
  /-- The gateway itself may not do this. -/
  | permissionDenied
  | invalidParameter
  | alreadyExists
  | internal
  /-- No answer came. -/
  | unavailable
  /-- A code that the table does not know. -/
  | unknown
  deriving Repr, DecidableEq

namespace FailureKind

def all : List FailureKind :=
  [.throttled, .notFound, .permissionDenied, .invalidParameter, .alreadyExists, .internal,
    .unavailable, .unknown]

def label : FailureKind → String
  | .throttled => "throttled"
  | .notFound => "not_found"
  | .permissionDenied => "permission_denied"
  | .invalidParameter => "invalid_parameter"
  | .alreadyExists => "already_exists"
  | .internal => "internal"
  | .unavailable => "unavailable"
  | .unknown => "unknown"

def ofLabel? (label : String) : Option FailureKind :=
  all.find? fun k => k.label == label

/-- Whether a listing may wait and try again. -/
def retryable : FailureKind → Bool
  | .throttled => true
  | _ => false

end FailureKind

/-! ### Vendor codes -/

/-- The vendor codes that are known, with their kinds. -/
def vendorCodes : List (String × FailureKind) :=
  [("TooManyRequestsException", .throttled),
    ("ThrottlingException", .throttled),
    ("ResourceNotFoundException", .notFound),
    ("UserNotFoundException", .notFound),
    ("NotAuthorizedException", .permissionDenied),
    ("AccessDeniedException", .permissionDenied),
    ("UnrecognizedClientException", .permissionDenied),
    ("InvalidParameterException", .invalidParameter),
    ("UsernameExistsException", .alreadyExists),
    ("GroupExistsException", .alreadyExists),
    ("InternalErrorException", .internal)]

/-- The kind of a vendor code. A call that brought no code brought no answer of the service. -/
def classify : Option String → FailureKind
  | none => .unavailable
  | some code => (vendorCodes.lookup code).getD .unknown

/-! ### Failures -/

structure Failure where
  kind : FailureKind
  code : Option String
  operation : String
  /-- What the provider said; it stays inside the gateway. -/
  message : String
  deriving Repr, DecidableEq

namespace Failure

/-- A failure reported by a vendor code, or by none. -/
def ofCode (operation : String) (code : Option String) (message : String) : Failure :=
  ⟨classify code, code, operation, message⟩

def ofKind (operation : String) (kind : FailureKind) (message : String) : Failure :=
  ⟨kind, none, operation, message⟩

def retryable (f : Failure) : Bool :=
  f.kind.retryable

def text (f : Failure) : String :=
  f.operation ++ " failed (" ++ f.kind.label ++ "): " ++ f.message

end Failure

end DirectoryGateway.Provider
