import MeasuredIdentity.X509.Certificate

/-!
PKCS#10 certification requests, signed by the key they ask a certificate for.
-/
namespace MeasuredIdentity.X509

open Der

structure RequestAttribute where
  oid : Oid
  values : Bounded 1 Element
  deriving DecidableEq

namespace RequestAttribute

def encode (a : RequestAttribute) : Bytes :=
  element .sequence (a.oid.encode ++ element .set (a.values.toList.flatMap Element.encode))

def decode : Decoder RequestAttribute := inside .sequence do
  return ⟨← Oid.decode, ← inside .set (Bounded.decode Element.decode 1)⟩

end RequestAttribute

/-- The part of a request that is signed. Its version is always zero. -/
structure RequestInfo where
  subject : Name
  publicKey : PublicKeyInfo
  attributes : Bounded 1 RequestAttribute
  deriving DecidableEq

namespace RequestInfo

def encode (i : RequestInfo) : Bytes :=
  element .sequence (SmallUint.encode 0 ++ Name.encode i.subject ++ i.publicKey.encode
    ++ element (.context .zero true) (i.attributes.toList.flatMap RequestAttribute.encode))

def decode : Decoder RequestInfo := inside .sequence do
  Decoder.check ((← SmallUint.decode) = 0)
  return ⟨← Name.decode, ← PublicKeyInfo.decode,
    ← required (implicitField .zero true (Bounded.decode RequestAttribute.decode 1).whole)⟩

end RequestInfo

structure Request where
  info : RequestInfo
  algorithm : AlgorithmId
  signature : BitString
  deriving DecidableEq

namespace Request

def encode (r : Request) : Bytes :=
  element .sequence (r.info.encode ++ r.algorithm.encode ++ r.signature.encode)

def decode : Decoder Request := inside .sequence do
  return ⟨← RequestInfo.decode, ← AlgorithmId.decode, ← BitString.decode⟩

/-- A request of a key for itself, without attributes. -/
def create (key : P256.PrivateKey) (subject : NameParts) (capacity : Nat) :
    Except Error Bytes := do
  let info : RequestInfo := ⟨subject.toName, .ofKey key.publicKey, .empty⟩
  let signature ← signerOf key (← within maxTbsSize info.encode)
  within capacity (encode ⟨info, .ecdsaSha256, .ofBytes (encodeSignature signature)⟩)

/-- Checks the signature over the encoding of the request's first part. The form of the signature
is checked before that encoding is made, its range afterwards. -/
def verify (r : Request) : Except Error Unit := do
  unless r.algorithm = .ecdsaSha256 do throw .signature
  let some key := P256.PublicKey.ofSec1? r.info.publicKey.key.bytes | throw .signature
  let some (u, v) := decodeSignaturePair.whole r.signature.bytes | throw .signature
  let info ← within maxTbsSize r.info.encode
  let some signature := Ecdsa.Signature.ofPair? u v | throw .signature
  unless Ecdsa.verifies key info signature do throw .signature

end Request

end MeasuredIdentity.X509
