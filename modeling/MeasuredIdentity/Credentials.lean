import MeasuredIdentity.Measurement
import MeasuredIdentity.Pem
import MeasuredIdentity.Registration
import MeasuredIdentity.X509.EcPrivateKey
import MeasuredIdentity.X509.Issue
import MeasuredIdentity.X509.Request

/-!
The two layers of keys behind a compound device identifier, and the credentials issued with them.
The device key depends on the core image and the secret alone, the alias key on the firmware too.
-/
namespace MeasuredIdentity

open X509

/-- What a device shows for its own key. -/
inductive DeviceCertificateForm where
  | selfSigned
  | request
  deriving DecidableEq, Repr

def standardName : NameParts := ⟨"devkitdice", "DEVKIT_TEST", "US"⟩

/-- Names, validity and form of the issued certificates. The common name of the alias is replaced
by the registration id. -/
structure IssuePolicy where
  deviceName : NameParts := standardName
  aliasName : NameParts := standardName
  validity : ValidityPeriod := .standard
  deviceCertificate : DeviceCertificateForm := .selfSigned
  deriving DecidableEq

/-- The device key, and the alias key for the firmware with a certain digest. -/
structure LayerKeys where
  device : P256.PrivateKey
  aliasKey : P256.PrivateKey
  firmware : Digest
  deriving DecidableEq

namespace LayerKeys

def deviceLabel : Bytes := Text.Utf8.encode "Identity"
def aliasLabel : Bytes := Text.Utf8.encode "Alias"

/-- The seed of the device key. The identifier itself is never key material. -/
def deviceSeed (cdi : Cdi) : Digest := sha256 cdi.bytes.toList

def aliasSeed (cdi : Cdi) (firmware : Digest) : Digest :=
  sha256 ((deviceSeed cdi).toList ++ firmware.toList)

def ofCdi (cdi : Cdi) (firmwareImage : Bytes) : Except Error LayerKeys := do
  let device ← KeyDerivation.privateKey (deviceSeed cdi).toList deviceLabel
  let firmware := sha256 firmwareImage
  let aliasKey ← KeyDerivation.privateKey (aliasSeed cdi firmware).toList aliasLabel
  return ⟨device, aliasKey, firmware⟩

end LayerKeys

/-- What a device authenticates with. -/
structure Credentials where
  registrationId : RegistrationId
  firmware : Digest
  form : DeviceCertificateForm
  devicePublicKey : Pem
  aliasKey : Pem
  aliasCertificate : Pem
  deviceCertificate : Pem

namespace LayerKeys

/-- The certificate of the device, or its request for one. -/
def deviceDocument (keys : LayerKeys) (policy : IssuePolicy) (validity : Validity) :
    Except Error Pem := do
  match policy.deviceCertificate with
  | .selfSigned =>
    let profile := ⟨policy.deviceName, policy.deviceName, validity⟩
    Pem.encode Pem.certificateLabel (← X509.deviceCertificate keys.device profile maxTbsSize)
  | .request =>
    Pem.encode Pem.certificateRequestLabel
      (← Request.create keys.device policy.deviceName maxTbsSize)

/-- Issues all credentials or none. -/
def issue (keys : LayerKeys) (id : RegistrationId) (policy : IssuePolicy) :
    Except Error Credentials := do
  let validity ← policy.validity.toValidity
  let devicePublicKey ← Pem.encode Pem.publicKeyLabel
    (← Der.within PublicKeyInfo.p256Size (PublicKeyInfo.ofKey keys.device.publicKey).encode)
  let aliasKey ← Pem.encode Pem.ecPrivateKeyLabel
    (← encodePrivateKey keys.aliasKey EcPrivateKey.p256Size)
  let profile := ⟨policy.deviceName, policy.aliasName.withCommon id.text, validity⟩
  let aliasCertificate ← Pem.encode Pem.certificateLabel
    (← X509.aliasCertificate keys.device keys.aliasKey.publicKey keys.firmware profile maxTbsSize)
  let deviceCertificate ← keys.deviceDocument policy validity
  return {
    registrationId := id
    firmware := keys.firmware
    form := policy.deviceCertificate
    devicePublicKey, aliasKey, aliasCertificate, deviceCertificate }

end LayerKeys

/-- The credentials for an identifier and a firmware image. -/
def credentialsOf (cdi : Cdi) (id : RegistrationId) (firmwareImage : Bytes)
    (policy : IssuePolicy) : Except Error Credentials := do
  (← LayerKeys.ofCdi cdi firmwareImage).issue id policy

end MeasuredIdentity
