import MeasuredIdentity.Curve.Key
import MeasuredIdentity.Der.Primitive

/-!
Algorithm identifiers and public keys with their algorithm.
-/
namespace MeasuredIdentity.X509

open Der

structure AlgorithmId where
  oid : Oid
  parameters : Option Element
  deriving DecidableEq

namespace AlgorithmId

def encode (a : AlgorithmId) : Bytes :=
  element .sequence (a.oid.encode ++ (a.parameters.map Element.encode).getD [])

def decode : Decoder AlgorithmId := inside .sequence do
  return ⟨← Oid.decode, ← optional (fun _ => true) Element.decode⟩

/-- ECDSA with SHA-256; it has no parameters. -/
def ecdsaSha256 : AlgorithmId :=
  ⟨⟨[0x2a, 0x86, 0x48, 0xce, 0x3d, 0x04, 0x03, 0x02], by decide⟩, none⟩

end AlgorithmId

/-- The curve P-256. -/
def prime256v1 : Oid := ⟨[0x2a, 0x86, 0x48, 0xce, 0x3d, 0x03, 0x01, 0x07], by decide⟩

/-- A key on the curve P-256. -/
def AlgorithmId.p256 : AlgorithmId :=
  ⟨⟨[0x2a, 0x86, 0x48, 0xce, 0x3d, 0x02, 0x01], by decide⟩, some ⟨.oid, prime256v1.content⟩⟩

structure PublicKeyInfo where
  algorithm : AlgorithmId
  key : BitString
  deriving DecidableEq

namespace PublicKeyInfo

def encode (k : PublicKeyInfo) : Bytes := element .sequence (k.algorithm.encode ++ k.key.encode)

def decode : Decoder PublicKeyInfo := inside .sequence do
  return ⟨← AlgorithmId.decode, ← BitString.decode⟩

def ofKey (key : P256.PublicKey) : PublicKeyInfo := ⟨.p256, .ofBytes key.toOctets.toList⟩

/-- The size of the encoding of a P-256 key. -/
def p256Size : Nat := 91

end PublicKeyInfo

end MeasuredIdentity.X509
