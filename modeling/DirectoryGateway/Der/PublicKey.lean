import DirectoryGateway.Der.Element

/-!
# RSA public keys in DER

`subjectPublicKeyInfo` writes a key as

    SEQUENCE
      SEQUENCE: OBJECT IDENTIFIER rsaEncryption, NULL
      BIT STRING: SEQUENCE: INTEGER modulus, INTEGER exponent

and `readSubjectPublicKeyInfo` reads that form back, strictly and to the last byte.
-/

namespace DirectoryGateway.Der

/-! ### Parts -/

/-- The arcs of rsaEncryption, 1.2.840.113549.1.1.1, as they are written. -/
def rsaEncryptionContent : List UInt8 :=
  [0x2a, 0x86, 0x48, 0x86, 0xf7, 0x0d, 0x01, 0x01, 0x01]

/-- The sequence that names the algorithm of an RSA key. -/
def rsaAlgorithm : List UInt8 :=
  element sequenceTag (element objectIdTag rsaEncryptionContent ++ element nullTag [])

/-! ### Writing -/

/-- The bare key: a sequence of modulus and exponent. -/
def rsaPublicKey (modulus exponent : List UInt8) : List UInt8 :=
  element sequenceTag (unsignedInteger modulus ++ unsignedInteger exponent)

/-- The key with its algorithm; the bit string has no unused bits. -/
def subjectPublicKeyInfo (modulus exponent : List UInt8) : List UInt8 :=
  element sequenceTag (rsaAlgorithm ++ element bitStringTag (0 :: rsaPublicKey modulus exponent))

/-! ### Reading -/

/-- Modulus and exponent of a bare key that takes up all bytes. -/
def readRsaPublicKey (bytes : List UInt8) : Option (Nat × Nat) :=
  match readElement sequenceTag bytes with
  | some (body, []) =>
    match readUnsigned body with
    | some (n, rest) =>
      match readUnsigned rest with
      | some (e, []) => some (n, e)
      | _ => none
    | none => none
  | _ => none

def readRsaAlgorithm (bytes : List UInt8) : Option (List UInt8) :=
  match readElement sequenceTag bytes with
  | some (body, after) =>
    match readElement objectIdTag body with
    | some (oid, rest) =>
      if oid = rsaEncryptionContent ∧ readElement nullTag rest = some ([], []) then some after else none
    | none => none
  | none => none

/-- Modulus and exponent of a key with its algorithm that takes up all bytes. -/
def readSubjectPublicKeyInfo (bytes : List UInt8) : Option (Nat × Nat) :=
  match readElement sequenceTag bytes with
  | some (body, []) =>
    match readRsaAlgorithm body with
    | some rest =>
      match readElement bitStringTag rest with
      | some (0 :: key, []) => readRsaPublicKey key
      | _ => none
    | none => none
  | _ => none

end DirectoryGateway.Der
