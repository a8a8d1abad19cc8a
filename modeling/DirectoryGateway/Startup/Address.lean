import DirectoryGateway.Text.NetAddress

/-!
# Socket addresses as text

An address of four bytes or of eight words, the latter between square brackets, then a colon and the number of a
service. A scope may follow the words.
-/

namespace DirectoryGateway.Startup

open DirectoryGateway.Text (readLimited readChar readFour readSix)

inductive SocketAddress where
  | four (bytes : List Nat) (service : Nat)
  | six (words : List Nat) (scope : Nat) (service : Nat)
  deriving Repr, DecidableEq

/-- The scope of an address: a percent sign and a number, or nothing. -/
def readScope : List Char → Option (Nat × List Char)
  | '%' :: cs => readLimited 10 (Nat.pow 2 32 - 1) cs
  | cs => some (0, cs)

/-- A colon and the number of a service. -/
def readService (cs : List Char) : Option (Nat × List Char) :=
  (readChar ':' cs).bind (readLimited 10 65535)

def readSocketFour (cs : List Char) : Option (SocketAddress × List Char) := do
  let (bytes, cs) ← readFour cs
  let (service, cs) ← readService cs
  return (.four bytes service, cs)

def readSocketSix (cs : List Char) : Option (SocketAddress × List Char) := do
  let cs ← readChar '[' cs
  let (words, cs) ← readSix cs
  let (scope, cs) ← readScope cs
  let cs ← readChar ']' cs
  let (service, cs) ← readService cs
  return (.six words scope service, cs)

def SocketAddress.read? (text : String) : Option SocketAddress :=
  match readSocketFour text.toList <|> readSocketSix text.toList with
  | some (address, []) => some address
  | _ => none

end DirectoryGateway.Startup
