import DirectoryGateway.Json.Attempt

/-!
# Registered claims

The claims that every token may have are looked at on their own: none of them may be given twice, and the issuer must be
named. One that cannot be read counts as absent, but reading goes on where it broke off, so that what follows must still
make up a record.
-/

namespace DirectoryGateway.Token

open Json (Stop attempt nextPart tryKey tryScalar closeList closeRecord skipBlanks)

/-! ### Values -/

/-- Whether a claim names an issuer: by itself, or in a list. -/
def namesIssuer (issuer : String) : Json → Bool
  | .text content => Json.decode? content == some issuer
  | .list items =>
    match items.mapM Json.toText? with
    | some names => names.contains issuer
    | none => false
  | _ => false

/-- Looks at a claim that should be a scalar; a list or record is only opened and closed. -/
def tryPlain (bytes : List UInt8) : Stop :=
  match skipBlanks bytes with
  | [] => .at []
  | b :: rest =>
    if b = '['.toUInt8 then closeList (.at rest)
    else if b = '\x7b'.toUInt8 then closeRecord (.at rest)
    else tryScalar (b :: rest)

/-- Looks at a claim that should be a text or null; a list or record is not even opened. -/
def tryWord (bytes : List UInt8) : Stop :=
  match skipBlanks bytes with
  | [] => .at []
  | b :: rest =>
    if b = '['.toUInt8 ∨ b = '\x7b'.toUInt8 then .at (b :: rest) else tryScalar (b :: rest)

def registeredNames : List String :=
  ["exp", "nbf", "sub", "iss", "aud"]

/-- Looks at the value of a claim: whether it names the issuer, and what is left; nothing if an unregistered claim is not
well formed. -/
def readRegistered (issuer name : String) (bytes : List UInt8) : Option (Bool × List UInt8) :=
  if name = "exp" ∨ name = "nbf" then some (false, (tryPlain bytes).rest)
  else if name = "sub" then some (false, (tryWord bytes).rest)
  else if name = "aud" then some (false, (attempt bytes).rest)
  else
    match name == "iss", Json.readValue (bytes.length + 1) bytes with
    | false, value => value.map fun p => (false, p.2)
    | true, some (v, _) =>
      let s := attempt bytes
      some (s.ok && namesIssuer issuer v, s.rest)
    | true, none => some (false, (attempt bytes).rest)

/-! ### Records -/

/-- Goes through the claims of a record that ends a document: whether no registered claim is given twice and the issuer
is named; `seen` holds the registered claims so far, and `fuel` bounds the number of claims. -/
def claimsInOrder (issuer : String) : (fuel : Nat) → (seen : List String) → (named first : Bool) →
    List UInt8 → Bool
  | 0, _, _, _, _ => false
  | fuel + 1, seen, named, first, bytes =>
    match nextPart '\x7d'.toUInt8 first bytes with
    | .error s => s.ok && named && (skipBlanks (s.rest.drop 1)).isEmpty
    | .ok part =>
      match tryKey part with
      | (none, _) => false
      | (some name, rest) =>
        if seen.contains name then false
        else
          match readRegistered issuer name rest with
          | none => false
          | some (names, rest) =>
            claimsInOrder issuer fuel (if registeredNames.contains name then name :: seen else seen)
              (named || names) false rest

/-- Whether the registered claims of a document are in order for an issuer. -/
def registeredInOrder (issuer : String) (bytes : List UInt8) : Bool :=
  match skipBlanks bytes with
  | [] => false
  | b :: rest => b = '\x7b'.toUInt8 && claimsInOrder issuer (bytes.length + 1) [] false true rest

end DirectoryGateway.Token
