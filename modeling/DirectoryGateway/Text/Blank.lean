/-!
# Blank and control characters

The White_Space property, trimming and splitting by it, and the control characters (category Cc).
Functions work on character lists; `trimmed` and `words` are their forms on strings.
-/

namespace DirectoryGateway.Text

/-! ### Character classes -/

/-- The White_Space property. -/
def isBlank (c : Char) : Bool :=
  let n := c.toNat
  (9 ≤ n && n ≤ 13) || n == 32 || n == 0x85 || n == 0xA0 || n == 0x1680 ||
    (0x2000 ≤ n && n ≤ 0x200A) || n == 0x2028 || n == 0x2029 || n == 0x202F || n == 0x205F ||
    n == 0x3000

/-- The control characters: below the space, and from 0x7F to 0x9F. -/
def isControl (c : Char) : Bool :=
  c.toNat < 0x20 || (0x7F ≤ c.toNat && c.toNat ≤ 0x9F)

def isDigit (c : Char) : Bool :=
  '0' ≤ c && c ≤ '9'

def digitValue (c : Char) : Nat :=
  c.toNat - '0'.toNat

/-! ### Trimming and splitting -/

def trimLeft (cs : List Char) : List Char :=
  cs.dropWhile isBlank

def trim (cs : List Char) : List Char :=
  (trimLeft (trimLeft cs).reverse).reverse

/-- Cuts at every occurrence of a separator, which belongs to no part; there is always a part. -/
def splitAt (sep : Char) : List Char → List (List Char)
  | [] => [[]]
  | c :: cs =>
    if c = sep then [] :: splitAt sep cs
    else
      match splitAt sep cs with
      | [] => [[c]]
      | p :: ps => (c :: p) :: ps

/-- The maximal runs without blanks, in order. -/
def blankRuns : List Char → List (List Char)
  | [] => []
  | c :: cs =>
    if isBlank c then blankRuns cs
    else
      match cs, blankRuns cs with
      | d :: _, p :: ps => if isBlank d then [c] :: p :: ps else (c :: p) :: ps
      | _, ps => [c] :: ps

def trimmed (s : String) : String :=
  String.ofList (trim s.toList)

def blank (s : String) : Bool :=
  (trim s.toList).isEmpty

def words (s : String) : List String :=
  (blankRuns s.toList).map String.ofList

end DirectoryGateway.Text
