import MeasuredIdentity.KeyDerivation
import MeasuredIdentity.X509.AlternativeName
import MeasuredIdentity.X509.Certificate
import MeasuredIdentity.X509.CompositeDeviceId
import MeasuredIdentity.X509.KeyUsage

/-!
The two kinds of certificate: the alias certificate, which binds the key of the running firmware
to the device, and the certificate that the device signs for itself.
-/
namespace MeasuredIdentity.X509

open Der

/-- The names and the validity of a certificate. -/
structure Profile where
  issuer : NameParts
  subject : NameParts
  validity : Validity

namespace Profile

def body (p : Profile) (serial : Bytes) (key : P256.PublicKey) (extensions : Extensions) :
    TbsCertificate :=
  Certificate.body serial p.issuer.toName p.subject.toName p.validity (.ofKey key) extensions

end Profile

/-- The size of the buffers for the values of extensions. -/
def keyUsageSize : Nat := 4
def extendedKeyUsageSize : Nat := 12
def basicConstraintsSize : Nat := 8
def subjectKeyIdSize : Nat := KeyDerivation.keyIdSize + 2
def authorityKeyIdSize : Nat := KeyDerivation.keyIdSize + 4
def subjectAltNameSize : Nat := 192

/-- The name that carries the composite device identity. -/
def compositeName (device : P256.PublicKey) (firmware : Digest) : Except Error SubjectAltName := do
  let encoding ← within CompositeDeviceId.p256Size (CompositeDeviceId.ofKey device firmware).encode
  match OtherName.ofEncoded? OtherName.compositeDeviceOid encoding with
  | some name => return ⟨name⟩
  | none => throw (.invalidDer .malformed)

/-- An alias key signs TLS client handshakes. Its certificate names the key of the device that
signed it, and carries the device key and the firmware digest. -/
def aliasExtensions (device : P256.PublicKey) (firmware : Digest) : Except Error Extensions := do
  let authority ← KeyDerivation.keyId device
  let es ← Bounded.empty.add (← Extension.make Extension.keyUsageOid true keyUsageSize
    KeyUsage.digitalSignature.encode)
  let es ← es.add (← Extension.make Extension.extendedKeyUsageOid true extendedKeyUsageSize
    (ExtendedKeyUsage.encode (Bounded.cons ExtendedKeyUsage.clientAuth Bounded.empty)))
  let es ← es.add (← Extension.make Extension.authorityKeyIdOid false authorityKeyIdSize
    (AuthorityKeyId.encode ⟨some authority.toList⟩))
  es.add (← Extension.make Extension.subjectAltNameOid true subjectAltNameSize
    (← compositeName device firmware).encode)

/-- A device key is an authority for alias certificates only, and signs its own certificate. -/
def deviceExtensions (device : P256.PublicKey) : Except Error Extensions := do
  let keyId ← KeyDerivation.keyId device
  let es ← Bounded.empty.add (← Extension.make Extension.basicConstraintsOid true
    basicConstraintsSize (BasicConstraints.encode ⟨true, some 1⟩))
  let es ← es.add (← Extension.make Extension.keyUsageOid true keyUsageSize
    KeyUsage.keyCertSign.encode)
  let es ← es.add (← Extension.make Extension.subjectKeyIdOid false subjectKeyIdSize
    (SubjectKeyId.encode keyId.toList))
  es.add (← Extension.make Extension.authorityKeyIdOid false authorityKeyIdSize
    (AuthorityKeyId.encode ⟨some keyId.toList⟩))

/-- The alias certificate, signed by the device. -/
def aliasCertificate (device : P256.PrivateKey) (subject : P256.PublicKey) (firmware : Digest)
    (profile : Profile) (capacity : Nat) : Except Error Bytes := do
  let serial ← KeyDerivation.serialNumber subject
  let extensions ← aliasExtensions device.publicKey firmware
  Certificate.assemble (profile.body serial.toList subject extensions) (signerOf device) capacity

/-- The certificate of a device, signed by its own key. -/
def deviceCertificate (device : P256.PrivateKey) (profile : Profile) (capacity : Nat) :
    Except Error Bytes := do
  let serial ← KeyDerivation.serialNumber device.publicKey
  let extensions ← deviceExtensions device.publicKey
  Certificate.assemble (profile.body serial.toList device.publicKey extensions) (signerOf device)
    capacity

end MeasuredIdentity.X509
