import DirectoryGateway.Text.Target

/-!
# Answers of other servers

What comes back from a server that the gateway asks. A connection that closes without an answer gives nothing, and nor
does an answer that does not keep to the form of HTTP or is only a provisional one.
-/

namespace DirectoryGateway.Remote

structure Answer where
  status : Nat
  headers : List (String × String)
  body : List UInt8
  deriving Repr, DecidableEq

namespace Answer

/-! ### What comes through -/

/-- Whether a status ends an exchange: it has three digits and is not one of those that announce another. -/
def isFinal (status : Nat) : Bool :=
  status == 101 || (200 ≤ status && status ≤ 999)

/-- Whether an answer of a status has no body. -/
def isBodiless (status : Nat) : Bool :=
  [101, 204, 304].contains status

def isValueChar (c : Char) : Bool :=
  c == '\t' || (0x20 ≤ c.toNat && c.toNat != 0x7F)

def isHeader (h : String × String) : Bool :=
  Text.isToken h.1 && h.2.toList.all isValueChar

def isPadding (c : Char) : Bool :=
  c == ' ' || c == '\t'

/-- The value of a header without the padding at its ends. -/
def headerValue (value : String) : String :=
  let inner := (value.toList.dropWhile isPadding).reverse.dropWhile isPadding
  String.ofList inner.reverse

def received? (a : Answer) : Option Answer :=
  if isFinal a.status && a.headers.all isHeader then
    some { a with
      headers := a.headers.map fun h => (h.1, headerValue h.2)
      body := if isBodiless a.status then [] else a.body }
  else none

/-! ### Reading -/

def isSuccess (a : Answer) : Bool :=
  200 ≤ a.status && a.status < 300

/-- The first value of a header; the case of names does not count. -/
def header? (a : Answer) (name : String) : Option String :=
  (a.headers.find? fun h => String.ofList (h.1.toList.map Char.toLower) == name).map Prod.snd

end Answer

end DirectoryGateway.Remote
