import DirectoryGateway.Crypto.Sha256

/-!
# RS256 signatures

RSA with the padding of PKCS #1 v1.5 over a SHA-256 digest: a signature is the padded digest raised to the
private exponent, and it verifies if the public exponent gives the padded digest back.
-/

namespace DirectoryGateway.Crypto.Rsa

/-! ### Keys -/

structure PublicKey where
  modulus : Nat
  exponent : Nat
  deriving Repr, DecidableEq

/-- A private key; the public exponent is not needed to sign. -/
structure PrivateKey where
  modulus : Nat
  exponent : Nat
  deriving Repr, DecidableEq

def PublicKey.size (k : PublicKey) : Nat :=
  Bytes.width k.modulus

/-- The keys that signatures are checked with: an odd modulus of 2048 to 8192 bits, counted in whole bytes
at the lower end, and an odd public exponent from 3 to 2 ^ 33 - 1. -/
def PublicKey.admissible (k : PublicKey) : Bool :=
  k.modulus % 2 == 1 && 256 ≤ k.size && k.modulus < Nat.pow 2 8192 &&
    k.exponent % 2 == 1 && 3 ≤ k.exponent && k.exponent < Nat.pow 2 33

/-! ### Arithmetic -/

def powMod (base exponent modulus : Nat) : Nat :=
  if exponent = 0 then 1 % modulus
  else
    let half := powMod base (exponent / 2) modulus
    let square := half * half % modulus
    if exponent % 2 = 1 then square * base % modulus else square
termination_by exponent
decreasing_by omega

/-! ### Padding -/

/-- What stands before a SHA-256 digest: the algorithm and the head of the digest's octet string. -/
def digestHead : List UInt8 :=
  [0x30, 0x31, 0x30, 0x0d, 0x06, 0x09, 0x60, 0x86, 0x48, 0x01, 0x65, 0x03, 0x04, 0x02, 0x01, 0x05, 0x00,
    0x04, 0x20]

def paddedDigest (size : Nat) (message : List UInt8) : List UInt8 :=
  let tail := digestHead ++ Sha256.digest message
  [0x00, 0x01] ++ List.replicate (size - tail.length - 3) 0xff ++ [0x00] ++ tail

/-! ### Signatures -/

def PublicKey.verifies (k : PublicKey) (message signature : List UInt8) : Bool :=
  let s := Bytes.toNat signature
  k.admissible && signature.length == k.size && 0 < s && s < k.modulus &&
    Bytes.ofNat k.size (powMod s k.exponent k.modulus) == paddedDigest k.size message

def PrivateKey.sign (k : PrivateKey) (message : List UInt8) : List UInt8 :=
  let size := Bytes.width k.modulus
  Bytes.ofNat size (powMod (Bytes.toNat (paddedDigest size message)) k.exponent k.modulus)

end DirectoryGateway.Crypto.Rsa
