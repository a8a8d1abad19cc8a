import DirectoryGateway.Text.Host
import DirectoryGateway.Text.Location

/-!
# References between web addresses

Where a reference leads that is met at an address of the `http` or the `https` scheme: to another location on the same
server, to somewhere else, or nowhere, if it makes up no address, or none that can be asked for.
-/

namespace DirectoryGateway.Text

inductive Destination where
  | here (location : Location)
  | elsewhere
  | nowhere
  deriving Repr, DecidableEq

namespace Reference

open Location (isEdge trimRight withoutBreaks withoutFragment isSlash beginsWithSlash)

/-! ### Schemes -/

/-- The schemes whose addresses name a server whatever slashes they have. -/
def webSchemes : List String :=
  ["http", "https", "ws", "wss", "ftp"]

/-- A scheme in small letters, and what follows its colon. -/
def splitScheme? (cs : List Char) : Option (String × List Char) :=
  match cs.span isSchemeChar with
  | (c :: scheme, ':' :: rest) =>
    if c.isAlpha then some (String.ofList ((c :: scheme).map Char.toLower), rest) else none
  | _ => none

/-- Another address, if it is one. -/
def address (valid : Bool) : Destination :=
  if valid then .elsewhere else .nowhere

/-- Where an address leads, from its server on. -/
def toServer (cs : List Char) : Destination :=
  address (isServer isHost (cs.takeWhile fun c => !(endsAuthority c || c == '\\')))

/-- Where the address of a file leads: it must be on another host. -/
def toFile (cs : List Char) : Destination :=
  let host := (cs.drop 2).takeWhile fun c => !(endsAuthority c || c == '\\')
  address (beginsWithSlash cs && beginsWithSlash cs.tail && isHost host &&
    String.ofList (host.map Char.toLower) != "localhost")

/-- Whether a character is left as it is in an address without a server. -/
def isOpaquePlain (c : Char) : Bool :=
  0x20 ≤ c.toNat && c.toNat < 0x7F

/-- Where an address of any other scheme leads. One without a server must look like a server itself. -/
def toOther (scheme : String) (cs : List Char) : Destination :=
  match cs with
  | '/' :: '/' :: rest => address (isServer isPlainHost (rest.takeWhile fun c => !endsAuthority c))
  | _ => address (isAuthority (scheme.toList ++ ':' :: percentEncode isOpaquePlain cs))

/-! ### Resolution -/

/-- Where a reference without a scheme leads. -/
def relative (base : Location) (cs : List Char) : Destination :=
  if beginsWithSlash cs && beginsWithSlash cs.tail then
    toServer (match cs with
      | '/' :: '/' :: rest => rest
      | _ => cs.dropWhile isSlash)
  else .here (base.follow (withoutFragment cs))

/-- Resolves a reference that is met under the scheme `own`. -/
def resolve (own : String) (base : Location) (reference : String) : Destination :=
  let cs := withoutBreaks (trimRight (reference.toList.dropWhile isEdge))
  match splitScheme? cs with
  | none => relative base cs
  | some (scheme, rest) =>
    if scheme = own then
      if (rest.takeWhile isSlash).length < 2 then relative base rest
      else toServer (rest.dropWhile isSlash)
    else if webSchemes.contains scheme then toServer (rest.dropWhile isSlash)
    else if scheme = "file" then toFile rest
    else toOther scheme rest

end Reference

end DirectoryGateway.Text
