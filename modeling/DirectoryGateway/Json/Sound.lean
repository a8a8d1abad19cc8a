import DirectoryGateway.Json.Double

/-!
# Values that can be held as a whole

A document may hold strings that are no text and numbers out of range where nobody looks. A value that is kept as a
whole, before it is known what is in it, may not, and its nesting is bounded.
-/

namespace DirectoryGateway.Json

mutual

/-- Whether every string is a text and every number has a double. -/
def isSound : Json → Bool
  | .text content => (decode? content).isSome
  | .number n => n.double?.isSome
  | .list items => areSound items
  | .record fields => areSoundFields fields
  | _ => true

def areSound : List Json → Bool
  | [] => true
  | v :: vs => isSound v && areSound vs

def areSoundFields : List (List UInt8 × Json) → Bool
  | [] => true
  | (key, v) :: rest => (decode? key).isSome && isSound v && areSoundFields rest

end

mutual

/-- The number of lists and records that stand in one another. -/
def depth : Json → Nat
  | .list items => depthOfItems items + 1
  | .record fields => depthOfFields fields + 1
  | _ => 0

def depthOfItems : List Json → Nat
  | [] => 0
  | v :: vs => max v.depth (depthOfItems vs)

def depthOfFields : List (List UInt8 × Json) → Nat
  | [] => 0
  | (_, v) :: rest => max v.depth (depthOfFields rest)

end

/-- The deepest nesting of a document that is held as a whole. -/
def maxDepth : Nat := 127

end DirectoryGateway.Json
