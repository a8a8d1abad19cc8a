import DirectoryGateway.Base64

/-!
# Public keys as PEM text

A public key's DER bytes in base64, cut into lines of sixty-four characters between a line that opens the
text and one that closes it. Every line ends with a newline.
-/

namespace DirectoryGateway.Pem

def opening : List UInt8 := "-----BEGIN PUBLIC KEY-----".toUTF8.toList

def closing : List UInt8 := "-----END PUBLIC KEY-----".toUTF8.toList

def newline : UInt8 := 10

/-- Cuts into pieces of `size` bytes, the last of them possibly shorter; `fuel` bounds their number. -/
def chunksWithin (size : Nat) : (fuel : Nat) → List UInt8 → List (List UInt8)
  | _, [] => []
  | 0, _ => []
  | fuel + 1, bytes => bytes.take size :: chunksWithin size fuel (bytes.drop size)

/-- The body lines of the text of a key. -/
def bodyLines (der : List UInt8) : List (List UInt8) :=
  let body := Base64.standard.encode true der
  chunksWithin 64 body.length body

def ofPublicKey (der : List UInt8) : List UInt8 :=
  ([opening] ++ bodyLines der ++ [closing]).flatMap (· ++ [newline])

/-- The lines of a text in which every line ends with a newline. -/
def lines : List UInt8 → List (List UInt8)
  | [] => []
  | b :: rest =>
    if b = newline then [] :: lines rest
    else
      match lines rest with
      | [] => [[b]]
      | l :: ls => (b :: l) :: ls

def toPublicKey? (text : List UInt8) : Option (List UInt8) :=
  match lines text with
  | first :: rest =>
    if first = opening ∧ rest.getLast? = some closing then
      (Base64.standard.decode .canonical (rest.dropLast.flatMap id)).toOption
    else none
  | [] => none

end DirectoryGateway.Pem
