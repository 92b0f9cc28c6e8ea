import MeasuredIdentity.Der.Capacity
import MeasuredIdentity.X509.PublicKeyInfo

/-!
Private keys on named curves, with the curve and the public key as optional fields.
-/
namespace MeasuredIdentity.X509

open Der

structure EcPrivateKey where
  version : UInt8
  privateKey : Bytes
  parameters : Option Oid
  publicKey : Option BitString
  deriving DecidableEq

namespace EcPrivateKey

def encode (k : EcPrivateKey) : Bytes :=
  element .sequence (SmallUint.encode k.version ++ OctetString.encode k.privateKey
    ++ (k.parameters.map fun o => element (.context .zero true) o.encode).getD []
    ++ (k.publicKey.map fun p => element (.context .one true) p.encode).getD [])

def decode : Decoder EcPrivateKey := inside .sequence do
  return ⟨← SmallUint.decode, ← OctetString.decode, ← explicitField .zero Oid.decode,
    ← explicitField .one BitString.decode⟩

/-- Version 1, the scalar in full width, the curve and the uncompressed public key. -/
def ofKey (key : P256.PrivateKey) : EcPrivateKey :=
  ⟨1, key.toOctets.toList, some prime256v1, some (.ofBytes key.publicKey.toOctets.toList)⟩

/-- The size of the encoding of a P-256 key. -/
def p256Size : Nat := 121

end EcPrivateKey

/-- The encoding of a private key in a buffer of the given size. -/
def encodePrivateKey (key : P256.PrivateKey) (capacity : Nat) :
    Except Error Bytes :=
  within capacity (EcPrivateKey.ofKey key).encode

end MeasuredIdentity.X509
