import DirectoryGateway.Text.Reference

/-!
# Whole web addresses

An address that a client can ask at: of the `http` or the `https` scheme, with the server that it names and the location on
that server. However many slashes stand before the server, and whichever way they lean, they are passed over.
-/

namespace DirectoryGateway.Text

/-- A server: the scheme to talk to it in, and its host and service with the name of a user, as they are written. -/
structure Server where
  scheme : String
  name : String
  deriving Repr, DecidableEq

structure Address where
  server : Server
  location : Location
  deriving Repr, DecidableEq

namespace Address

open Location (isEdge trimRight withoutBreaks isSlash)

def read? (text : String) : Option Address :=
  let cs := withoutBreaks (trimRight (text.toList.dropWhile isEdge))
  match Reference.splitScheme? cs with
  | some (scheme, rest) =>
    let (name, tail) := (rest.dropWhile isSlash).span fun c => !(endsAuthority c || c == '\\')
    if (scheme = "http" ∨ scheme = "https") ∧ isServer isHost name then
      some ⟨⟨scheme, String.ofList name⟩, .ofTail tail⟩
    else none
  | none => none

/-- Where a reference leads that is met at an address. -/
def follow (a : Address) (reference : String) : Destination :=
  Reference.resolve a.server.scheme a.location reference

end Address

end DirectoryGateway.Text
