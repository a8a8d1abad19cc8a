import DirectoryGateway.Text.Blank

/-!
# Request targets

What the first line of a request is addressed to: a path with a query, a whole address, the authority of a server alone,
or an asterisk. Only the path counts later; what follows a number sign is passed over unread.
-/

namespace DirectoryGateway.Text

/-! ### Authorities -/

def endsAuthority (c : Char) : Bool :=
  c == '/' || c == '?' || c == '#'

/-- Whether a character stands for itself in the name of a host. -/
def isHostChar (c : Char) : Bool :=
  c.isAlphanum || "-._~!$&'()*+,;=".toList.contains c

/-- What has been met on the way through an authority, since its last at sign: colons, a percent sign, and square
brackets. -/
structure Marks where
  colons : Nat
  percent : Bool
  opened : Bool
  closed : Bool
  deriving Repr, DecidableEq

def maxColons : Nat := 8

/-- Meets one more character of an authority; `none` if it may not stand there. -/
def Marks.meet? (m : Marks) (c : Char) : Option Marks :=
  if c = ':' then (if m.colons < maxColons then some { m with colons := m.colons + 1 } else none)
  else if c = '[' then (if m.percent || m.opened then none else some { m with opened := true })
  else if c = ']' then
    if m.opened && !m.closed then some ⟨0, false, true, true⟩ else none
  else if c = '@' then some { m with colons := 0, percent := false }
  else if c = '%' then some { m with percent := true }
  else if isHostChar c then some m
  else none

/-- Whether an authority may end here: its brackets are closed, one colon at most stands before a service, and percent
signs have been met only in the name of a user. -/
def Marks.complete (m : Marks) : Bool :=
  m.opened == m.closed && m.colons ≤ 1 && !m.percent

def isAuthority (cs : List Char) : Bool :=
  match cs.foldlM Marks.meet? ⟨0, false, false, false⟩ with
  | some m => m.complete && cs.getLast? != some '@'
  | none => false

/-! ### Paths and queries -/

def isTargetPathChar (c : Char) : Bool :=
  (0x20 < c.toNat && c.toNat != 0x7F) && !("#<>?\x60".toList.contains c)

def isTargetQueryChar (c : Char) : Bool :=
  (0x20 < c.toNat && c.toNat != 0x7F) && !("\"#<>".toList.contains c)

/-- The path in front of a query and a fragment; an empty path is that of the root. -/
def resourcePath? (cs : List Char) : Option (List Char) :=
  let (path, rest) := cs.span fun c => c != '?' && c != '#'
  let query := if rest.head? == some '?' then rest.tail.takeWhile (· != '#') else []
  if path.all isTargetPathChar && query.all isTargetQueryChar then
    some (if path.isEmpty then ['/'] else path)
  else none

/-! ### Targets -/

def isSchemeChar (c : Char) : Bool :=
  c.isAlphanum || c == '+' || c == '-' || c == '.'

def maxScheme : Nat := 64

/-- A scheme in front of two slashes, and what follows them. -/
def splitScheme? (cs : List Char) : Option (List Char × List Char) :=
  match cs.span isSchemeChar with
  | (scheme, ':' :: '/' :: '/' :: rest) => some (scheme, rest)
  | _ => none

/-- The path of a target; a server alone has none. -/
def targetPath? (cs : List Char) : Option (List Char) :=
  if cs = ['*'] then some cs
  else if cs.head? = some '/' then resourcePath? cs
  else
    match splitScheme? cs with
    | some (scheme, rest) =>
      let (authority, rest) := rest.span fun c => !endsAuthority c
      if scheme.length ≤ maxScheme && !authority.isEmpty && isAuthority authority then resourcePath? rest
      else none
    | none => if !cs.isEmpty && isAuthority cs then some [] else none

/-! ### Request lines -/

def isTokenChar (c : Char) : Bool :=
  c.isAlphanum || "!#$%&'*+-.^_\x60|~".toList.contains c

def isToken (s : String) : Bool :=
  s != "" && s.toList.all isTokenChar

/-- Whether a character may stand in a target on the first line of a request. -/
def isLineChar (c : Char) : Bool :=
  0x20 < c.toNat && c.toNat != 0x7F

/-- Whether a method and a target can be told apart on the first line of a request, and the target is one. -/
def isRequestLine (method target : String) : Bool :=
  isToken method && target.toList.all isLineChar && (targetPath? target.toList).isSome

end DirectoryGateway.Text
