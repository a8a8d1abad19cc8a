import DirectoryGateway.Text.NetAddress
import DirectoryGateway.Text.Percent
import DirectoryGateway.Text.Target

/-!
# Hosts in web addresses

What may stand between the slashes and the path of an address: after the name of a user, a host and the number of a
service. A host is a name, whose last part may make it an address of four bytes, or an address of eight words between
square brackets.
-/

namespace DirectoryGateway.Text

/-! ### Addresses of four bytes -/

/-- The number that digits of a base up to sixteen write. -/
def numberIn? (base : Nat) (cs : List Char) : Option Nat :=
  cs.foldlM (fun n c => ((digitOf? 16 c).filter (· < base)).map (n * base + ·)) 0

/-- The number that a part of a host is: hexadecimal behind `0x`, octal behind another zero. -/
def hostNumber? : List Char → Option Nat
  | [] => none
  | '0' :: 'x' :: cs => numberIn? 16 cs
  | '0' :: 'X' :: cs => numberIn? 16 cs
  | '0' :: d :: cs => numberIn? 8 (d :: cs)
  | cs => numberIn? 10 cs

/-- The parts of a host between its points; a point at the end does not count. -/
def hostParts (cs : List Char) : List (List Char) :=
  let parts := splitAt '.' cs
  if 1 < parts.length ∧ parts.getLast? = some [] then parts.dropLast else parts

def isNumeric (part : List Char) : Bool :=
  (!part.isEmpty && part.all isDigit) || (hostNumber? part).isSome

/-- Whether parts of a host are an address of four bytes, of which the last part fills what is left. -/
def areFour (parts : List (List Char)) : Bool :=
  match parts.mapM hostNumber? with
  | some ns =>
    ns.length ≤ 4 && ns.dropLast.all (· ≤ 255) && (ns.getLast?.getD 0) < Nat.pow 256 (5 - ns.length)
  | none => false

/-! ### Hosts -/

/-- Whether a text between square brackets is an address of eight words. -/
def isBracketed (cs : List Char) : Bool :=
  match readSix (cs.drop 1) with
  | some (_, rest) => rest == [']']
  | none => false

/-- Whether a text is a host by name or by an address of four bytes. Characters beyond ASCII stand for others. -/
def isDomain (cs : List Char) : Bool :=
  let parts := hostParts cs
  !cs.isEmpty && cs.all (fun c => isHostChar c || 0x80 ≤ c.toNat) &&
    (!(parts.getLast?.map isNumeric).getD false || areFour parts)

def isHost (cs : List Char) : Bool :=
  if cs.head? = some '[' then isBracketed cs
  else ((percentText? (String.ofList cs)).map fun s => isDomain s.toList).getD false

/-- Whether a text is a host that is taken as it is. -/
def isPlainHost (cs : List Char) : Bool :=
  if cs.head? = some '[' then isBracketed cs else !cs.isEmpty && cs.all isHostChar

/-! ### Servers -/

/-- What comes after the last at sign, if there is one. -/
def afterUser (cs : List Char) : List Char :=
  (splitAt '@' cs).getLast?.getD []

/-- A host, and the number of a service after a colon that is in no brackets. -/
def splitService (cs : List Char) : List Char × Option (List Char) :=
  let (inside, rest) := if cs.head? = some '[' then cs.span (· != ']') else ([], cs)
  match rest.span (· != ':') with
  | (host, _ :: service) => (inside ++ host, some service)
  | (host, []) => (inside ++ host, none)

def isService (cs : List Char) : Bool :=
  match numberIn? 10 cs with
  | some n => n ≤ 65535
  | none => false

/-- Whether a text names a server whose host passes a test. -/
def isServer (host : List Char → Bool) (cs : List Char) : Bool :=
  let (name, service) := splitService (afterUser cs)
  host name && (service.map isService).getD true

end DirectoryGateway.Text
