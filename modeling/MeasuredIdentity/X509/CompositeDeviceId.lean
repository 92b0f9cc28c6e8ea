import MeasuredIdentity.Hash.Sha256
import MeasuredIdentity.X509.PublicKeyInfo

/-!
The identity that an alias certificate binds its key to: the public key of the device and the
measurement of the firmware that it runs.
-/
namespace MeasuredIdentity.X509

open Der

structure FirmwareId where
  hashAlgorithm : Oid
  digest : Bytes
  deriving DecidableEq

namespace FirmwareId

def encode (f : FirmwareId) : Bytes :=
  element .sequence (f.hashAlgorithm.encode ++ OctetString.encode f.digest)

def decode : Decoder FirmwareId := inside .sequence do
  return ⟨← Oid.decode, ← OctetString.decode⟩

end FirmwareId

structure CompositeDeviceId where
  version : UInt8
  device : PublicKeyInfo
  firmware : FirmwareId
  deriving DecidableEq

namespace CompositeDeviceId

def sha256Oid : Oid := ⟨[0x60, 0x86, 0x48, 0x01, 0x65, 0x03, 0x04, 0x02, 0x01], by decide⟩

def encode (c : CompositeDeviceId) : Bytes :=
  element .sequence (SmallUint.encode c.version ++ c.device.encode ++ c.firmware.encode)

def decode : Decoder CompositeDeviceId := inside .sequence do
  return ⟨← SmallUint.decode, ← PublicKeyInfo.decode, ← FirmwareId.decode⟩

def ofKey (device : P256.PublicKey) (firmware : Digest) : CompositeDeviceId :=
  ⟨1, .ofKey device, ⟨sha256Oid, firmware.toList⟩⟩

/-- The size of the encoding for a P-256 key and a SHA-256 digest. -/
def p256Size : Nat := 144

end CompositeDeviceId

end MeasuredIdentity.X509
