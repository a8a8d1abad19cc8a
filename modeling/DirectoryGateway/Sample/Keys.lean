import DirectoryGateway.Crypto.Rsa
import DirectoryGateway.Settings.Basic

/-!
# Known key pairs

Two fixed RSA key pairs with moduli of 2048 bits and public exponent 65537: the primary one, under whose key id and
issuer sample tokens are made, and a foreign one that is in no key set.
-/

namespace DirectoryGateway.Sample

open DirectoryGateway.Crypto

/-- The number whose digits of 64 bits are given, most significant first. -/
def ofWords (words : List Nat) : Nat :=
  words.foldl (fun n w => n * Nat.pow 2 64 + w) 0

def primaryKey : Rsa.PrivateKey where
  modulus := ofWords
    [0xb94840f6b16f6bab, 0xa6d818fd9aa5cc7c, 0x60683bc8da8f19ab, 0x8aa07ed67f8c3bc7,
    0x01dc9b3c8d1d95ed, 0xa179d848cabd901d, 0x00618eecf8368139, 0x57ec0cf317cb5072,
    0x0093291db9f8dad7, 0x76e01748aa691710, 0xb47269769004cfbd, 0xd3906c22785d9352,
    0x077b3d9450e39292, 0x2861deea78daaacd, 0x695ded676ed07ec1, 0x811fbc4892b44357,
    0xba0ce8c80cd26f0b, 0x25e82e95ebde74a7, 0x1fee77497ad01a17, 0x14c3fbacff66b032,
    0x846d5eab660228dd, 0x1fa3a6a09ff82abf, 0xb2d32b938d7a6bc2, 0xb0504cdc2eda77cc,
    0xb96be3777bdba9d6, 0xab4c9e01d985b1f3, 0x3ecc7c742c12c427, 0x3951ecbb0953eb76,
    0x6380bc9b358403bd, 0x5af150124d0bb11f, 0xaf283e1fa59bdb1f, 0x575015cef8f00c63]
  exponent := ofWords
    [0x000b18f375d32ad9, 0x481960d81e587a40, 0x6fdd5660e8fc2e40, 0xb0b047975141a7cf,
    0x421c2fc51c8601ea, 0x4e515da596b68df9, 0x69189cbf481ceb26, 0xd24871daff5f1823,
    0xb95afa2026fcfc95, 0x74525519ba95cfb5, 0x91f53ce51434e16a, 0x3a9f1c075e092ce6,
    0xfb5822098e2df4c8, 0xd2a2ede46c26d0f2, 0x14b0e599fd42a5e4, 0xf1b21f89d2244ca7,
    0xbbd466a1345d33d6, 0x99c170f23cc3e1ad, 0xd3057116152a82de, 0xb7e342597b601778,
    0x7352be119232ff96, 0x818521f6946335ae, 0xcc7cd15d30675cff, 0xf88f9d337bb11ed0,
    0x6f48f7aeeb3e6b87, 0x86ff19d12660d580, 0x2cc34006c1616899, 0xd46ec07736c4e367,
    0x79faf803221c8b12, 0x841e888934052fa2, 0x898c05d04de7525d, 0xc762d7061e6d1b31]

def foreignKey : Rsa.PrivateKey where
  modulus := ofWords
    [0xc11527f8121c9bea, 0xa06791aa3da19745, 0x44310c998fc1ac9f, 0x8175e46a8e86d491,
    0xf2e2778f04539a9d, 0x486a92d3be1e03df, 0x24ec2f2736680fcd, 0xe1f127c37fa00e44,
    0xbd5c16dd35061049, 0xdcf4b66ed3237b12, 0x9e2925097bcb1741, 0xf600e1edb5b9d7ba,
    0x90fa4dc3930a3fd2, 0x3334ee89f2501387, 0xd4685b15d8d5ca3b, 0x2a960971ba87bfaf,
    0xeaafd50ae7ed9e29, 0xced866623b1eb90a, 0x57adde4036bc124b, 0x3718c3aa5f88f4ff,
    0x2eb5ad8518d4bdc3, 0x0cdbe90e5b17e2ae, 0xd856110566e56716, 0x230a6584b17e77a8,
    0xb14fe2b15807002a, 0x84cce3a97e898c3e, 0xc61073345cb1ffb5, 0x721736dfd4278919,
    0x1ae3ebefa1b7b557, 0xd49e235d65d40b82, 0xdafe2488bd293942, 0xa1d461923e639c71]
  exponent := ofWords
    [0x216a55e67acbf4b7, 0xe056cc40d835b506, 0x49cceb4f502fc67e, 0x3c5b78d270242979,
    0xb0bd3ccfc581ea8a, 0x39d427e0f9501c7f, 0x6bd66c3aaf11c75a, 0x6c35de19d9668bd1,
    0x9dabe85114321e73, 0x8a07d7e2ca2ba3cb, 0x0f1033d6b653e98c, 0x82d498451964364f,
    0x95739c2db2aedd68, 0xb56ffdb065fd31c4, 0x1a208d52f499db4b, 0xee0cd549976c92e1,
    0xc3f7f6804f5e3083, 0x0f81aa123cbb7914, 0x46fd00a07c8af0fa, 0x17fe5c053d80bedf,
    0x0e068325e1924f67, 0x3997ad46bbd5313d, 0xd93a5bc37a0fd00d, 0x534d0fcc05b2cad2,
    0x56847fb4023d96da, 0x9bc86626d2d79881, 0xd0e5b880eaf104f2, 0x9e81addbdf2766c5,
    0x2c4b58201af0dc63, 0x3a6d3a56c4e8690e, 0x7d4335687a1666f4, 0x840767ba97bdfd21]

/-- The public exponent of both pairs. -/
def publicExponent : Nat := 65537

def primaryKeyId : String := "test-key-01"

def primaryIssuer : String :=
  Settings.poolIssuer "us-east-1" "us-east-1_TestPool"

end DirectoryGateway.Sample
