import DirectoryGateway.Text.Percent

/-!
# Paths and queries of web addresses

The part of an address that a server is asked with, and how a path leads from one such part to another. Backslashes
count as slashes, segments of one or two points are resolved, and characters that may not stand in an address are
encoded.
-/

namespace DirectoryGateway.Text

/-- A path, as the segments after its slashes, and a query. -/
structure Location where
  segments : List (List Char)
  query : Option (List Char)
  deriving Repr, DecidableEq

namespace Location

/-! ### Characters -/

/-- Whether a character stands unencoded in any part. -/
def isPlain (c : Char) : Bool :=
  0x20 < c.toNat && c.toNat < 0x7F && !(['"', '#', '<', '>'].contains c)

def isPathPlain (c : Char) : Bool :=
  isPlain c && !(['?', '\x60', '\x7b', '\x7d'].contains c)

def isQueryPlain (c : Char) : Bool :=
  isPlain c && c != '\''

/-- Whether a character is dropped from the ends of a reference. -/
def isEdge (c : Char) : Bool :=
  c.toNat ≤ 0x20

def trimRight (cs : List Char) : List Char :=
  (cs.reverse.dropWhile isEdge).reverse

/-- A text without the characters that break lines and columns. -/
def withoutBreaks (cs : List Char) : List Char :=
  cs.filter fun c => c != '\t' && c != '\n' && c != '\r'

def withoutFragment (cs : List Char) : List Char :=
  cs.takeWhile (· != '#')

/-! ### Segments -/

/-- A segment of one point, in any spelling. -/
def isHere (segment : List Char) : Bool :=
  [".", "%2e"].contains (String.ofList (segment.map Char.toLower))

/-- A segment of two points, in any spelling. -/
def isUp (segment : List Char) : Bool :=
  ["..", ".%2e", "%2e.", "%2e%2e"].contains (String.ofList (segment.map Char.toLower))

/-- Resolves segments of points, from the left, on top of `done`; a path that ends in one ends in a slash. -/
def resolvePoints (done : List (List Char)) : List (List Char) → List (List Char)
  | [] => done
  | [s] =>
    if isHere s then done ++ [[]]
    else if isUp s then done.dropLast ++ [[]]
    else done ++ [s]
  | s :: rest =>
    if isHere s then resolvePoints done rest
    else if isUp s then resolvePoints done.dropLast rest
    else resolvePoints (done ++ [s]) rest

/-- Cuts a path at its slashes, either way they lean. -/
def cutSlashes : List Char → List (List Char)
  | [] => [[]]
  | c :: cs =>
    if c = '/' ∨ c = '\\' then [] :: cutSlashes cs
    else
      match cutSlashes cs with
      | [] => [[c]]
      | p :: ps => (c :: p) :: ps

/-- The segments that a path leads to from others. -/
def leadTo (base : List (List Char)) (path : List Char) : List (List Char) :=
  resolvePoints base ((cutSlashes path).map (percentEncode isPathPlain))

/-! ### Addresses -/

def queryOf : List Char → Option (List Char)
  | [] => none
  | _ :: q => some (percentEncode isQueryPlain q)

/-- Whether a character is a slash, either way it leans. -/
def isSlash (c : Char) : Bool :=
  c == '/' || c == '\\'

def beginsWithSlash (cs : List Char) : Bool :=
  (cs.head?.map isSlash).getD false

/-- The location of what follows the server in an address. -/
def ofTail (tail : List Char) : Location :=
  let (path, query) := (withoutFragment tail).span (· != '?')
  ⟨leadTo [] path.tail, queryOf query⟩

/-- Where a reference without a server leads from a location. -/
def follow (base : Location) (cs : List Char) : Location :=
  let (path, query) := cs.span (· != '?')
  if beginsWithSlash path then ⟨leadTo [] path.tail, queryOf query⟩
  else if path = [] then ⟨base.segments, if query = [] then base.query else queryOf query⟩
  else ⟨leadTo base.segments.dropLast path, queryOf query⟩

def target (l : Location) : String :=
  String.ofList (l.segments.flatMap ('/' :: ·) ++
    match l.query with
    | some q => '?' :: q
    | none => [])

end Location

end DirectoryGateway.Text
