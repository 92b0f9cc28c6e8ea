import MeasuredIdentity.Proofs.IssuedDocuments
import MeasuredIdentity.Proofs.PemCodec
import MeasuredIdentity.Proofs.Sequencing

/-!
The credentials as a function of the keys, the registration id, the policy and two signatures:
issuing gives exactly them, where the validity has an encoding, both documents are signed and
both fit into their buffers.
-/
namespace MeasuredIdentity

namespace Pem

/-- The labels of all texts. -/
def labels : List String :=
  [publicKeyLabel, ecPrivateKeyLabel, certificateLabel, certificateRequestLabel]

/-- The text for some data, whatever its size. -/
def ofData (label : String) (data : Bytes) : Pem := ⟨label, render (Text.Utf8.encode label) data⟩

theorem length_label_le : ∀ label ∈ labels, (Text.Utf8.encode label).length ≤ 19 := by
  decide +kernel

theorem isReadableLabel_of_mem : ∀ label ∈ labels,
    isReadableLabel (Text.Utf8.encode label) = true := by
  decide +kernel

theorem isLabel_of_mem {label : String} (h : label ∈ labels) :
    isLabel (Text.Utf8.encode label) = true := by
  have hreadable := isReadableLabel_of_mem label h
  rw [isReadableLabel, Bool.and_eq_true] at hreadable
  exact hreadable.1

/-- The buffer of a text is large enough for every document. -/
theorem neededSize_le {labelSize dataSize : ℕ} (hlabel : labelSize ≤ 19)
    (hdata : dataSize ≤ X509.maxTbsSize) : neededSize labelSize dataSize ≤ maxSize := by
  unfold X509.maxTbsSize at hdata
  unfold neededSize maxSize
  dsimp only
  omega

theorem encode_eq {label : String} (h : label ∈ labels) {data : Bytes}
    (hdata : data.length ≤ X509.maxTbsSize) : encode label data = .ok (ofData label data) := by
  have hfits := neededSize_le (length_label_le label h) hdata
  rw [encode_eq_of_isLabel (isLabel_of_mem h)]
  exact if_neg (Nat.not_lt.2 hfits)

/-- The text holds these data: they are read from it into every buffer that they fit into. -/
def Holds (p : Pem) (data : Bytes) : Prop :=
  ∀ capacity, data.length ≤ capacity → p.toDer capacity = .ok data

theorem holds_ofData {label : String} (h : label ∈ labels) {data : Bytes} (hdata : data ≠ []) :
    (ofData label data).Holds data := by
  intro capacity hcapacity
  rw [toDer, ofData, decode_render (isReadableLabel_of_mem label h) hdata hcapacity]
  rfl

end Pem

namespace X509

open Der

theorem instant_eq_ok_iff {seconds : ℕ} {t : UtcTime} : instant seconds = .ok t ↔ t.seconds = seconds := by
  constructor
  · intro h
    unfold instant at h
    split_ifs at h
    cases h
    rfl
  · rintro rfl
    have hlimit := t.lt_limit
    have hyear := Calendar.year_ofDays (show t.seconds / 86400 < 29220 by omega)
    have hlast : ¬ lastSecond < t.seconds := by
      unfold lastSecond
      omega
    rw [instant, if_neg hlast]
    exact dif_pos (Nat.le_of_lt_succ hyear.2)

theorem ValidityPeriod.toValidity_eq_ok_iff {p : ValidityPeriod} {v : Validity} :
    p.toValidity = .ok v ↔ v.notBefore.seconds = p.notBefore ∧ v.notAfter.seconds = p.notAfter := by
  simp only [toValidity, bind_eq_ok_iff, instant_eq_ok_iff, pure_eq_ok_iff]
  constructor
  · rintro ⟨_, hbefore, _, hafter, rfl⟩
    exact ⟨hbefore, hafter⟩
  · rintro ⟨hbefore, hafter⟩
    exact ⟨_, hbefore, _, hafter, rfl⟩

/-- A signed document, from its first part and what the signature makes of it. -/
def signDocument (sign : Signer) (first : Bytes) (complete : Ecdsa.Signature → Bytes)
    (capacity : ℕ) : Except Error Bytes := do
  let signature ← sign (← within maxTbsSize first)
  within capacity (complete signature)

theorem signDocument_eq_ok_iff {sign : Signer} {first b : Bytes}
    {complete : Ecdsa.Signature → Bytes} {capacity : ℕ} :
    signDocument sign first complete capacity = .ok b ↔ first.length ≤ maxTbsSize ∧
      ∃ s, sign first = .ok s ∧ complete s = b ∧ b.length ≤ capacity ∧ b.length ≤ maxLength := by
  simp only [signDocument, bind_eq_ok_iff, within_eq_ok_iff]
  constructor
  · rintro ⟨_, ⟨rfl, hfirst, -⟩, s, hs, hcomplete⟩
    exact ⟨hfirst, s, hs, hcomplete⟩
  · rintro ⟨hfirst, s, hs, hcomplete⟩
    exact ⟨first, ⟨rfl, hfirst, le_maxLength hfirst⟩, s, hs, hcomplete⟩

theorem Certificate.length_tbs_le (c : Certificate) : c.tbs.encode.length ≤ c.encode.length := by
  rw [Certificate.encode, length_element, List.length_append, List.length_append]
  omega

theorem Request.length_info_le (r : Request) : r.info.encode.length ≤ r.encode.length := by
  rw [Request.encode, length_element, List.length_append, List.length_append]
  omega

/-- A body with its signature. -/
def Certificate.signed (tbs : TbsCertificate) (s : Ecdsa.Signature) : Certificate :=
  ⟨tbs, .ecdsaSha256, .ofBytes (encodeSignature s)⟩

theorem Certificate.assemble_eq (tbs : TbsCertificate) (sign : Signer) (capacity : ℕ) :
    Certificate.assemble tbs sign capacity =
      signDocument sign tbs.encode (fun s => (Certificate.signed tbs s).encode) capacity := by
  unfold assemble assembleWith signDocument
  refine bind_congr fun first => ?_
  dsimp only
  cases sign first <;> rfl

def Request.signed (info : RequestInfo) (s : Ecdsa.Signature) : Request :=
  ⟨info, .ecdsaSha256, .ofBytes (encodeSignature s)⟩

/-- The first part of a request of a key for itself. -/
def RequestInfo.ofKey (key : P256.PublicKey) (subject : NameParts) : RequestInfo :=
  ⟨subject.toName, .ofKey key, .empty⟩

theorem Request.create_eq (key : P256.PrivateKey) (subject : NameParts) (capacity : ℕ) :
    Request.create key subject capacity = signDocument (signerOf key)
      (RequestInfo.ofKey key.publicKey subject).encode
      (fun s => (Request.signed (.ofKey key.publicKey subject) s).encode) capacity := rfl

/-- The body of an alias certificate. -/
def aliasBody (device subject : P256.PublicKey) (firmware : Digest) (profile : Profile) :
    TbsCertificate :=
  profile.body (KeyDerivation.serialOf subject).toList subject (aliasExtensionsOf device firmware)

theorem aliasCertificate_eq (device : P256.PrivateKey) (subject : P256.PublicKey)
    (firmware : Digest) (profile : Profile) (capacity : ℕ) :
    aliasCertificate device subject firmware profile capacity = Certificate.assemble
      (aliasBody device.publicKey subject firmware profile) (signerOf device) capacity := by
  rw [aliasCertificate, KeyDerivation.serialNumber_eq, ok_bind, aliasExtensions_eq, ok_bind,
    aliasBody]

/-- The body of the certificate of a device. -/
def deviceBody (device : P256.PublicKey) (profile : Profile) : TbsCertificate :=
  profile.body (KeyDerivation.serialOf device).toList device (deviceExtensionsOf device)

theorem deviceCertificate_eq (device : P256.PrivateKey) (profile : Profile) (capacity : ℕ) :
    deviceCertificate device profile capacity =
      Certificate.assemble (deviceBody device.publicKey profile) (signerOf device) capacity := by
  rw [deviceCertificate, KeyDerivation.serialNumber_eq, ok_bind, deviceExtensions_eq, ok_bind,
    deviceBody]

end X509

open X509 Der

namespace IssuePolicy

def aliasProfile (policy : IssuePolicy) (id : RegistrationId) (validity : Validity) : Profile :=
  ⟨policy.deviceName, policy.aliasName.withCommon id.text, validity⟩

def deviceProfile (policy : IssuePolicy) (validity : Validity) : Profile :=
  ⟨policy.deviceName, policy.deviceName, validity⟩

end IssuePolicy

def DeviceCertificateForm.label : DeviceCertificateForm → String
  | .selfSigned => Pem.certificateLabel
  | .request => Pem.certificateRequestLabel

theorem DeviceCertificateForm.label_mem (form : DeviceCertificateForm) : form.label ∈ Pem.labels := by
  cases form <;> decide

namespace LayerKeys

open KeyDerivation in
/-- The keys for an identifier and a firmware image are derived from a seed each. -/
theorem ofCdi_eq_ok_iff {cdi : Cdi} {image : Bytes} {keys : LayerKeys} :
    ofCdi cdi image = .ok keys ↔
      privateKey (deviceSeed cdi).toList deviceLabel = .ok keys.device ∧
      privateKey (aliasSeed cdi (sha256 image)).toList aliasLabel = .ok keys.aliasKey ∧
      keys.firmware = sha256 image := by
  simp only [ofCdi, bind_eq_ok_iff, pure_eq_ok_iff]
  constructor
  · rintro ⟨device, hdevice, aliasKey, halias, rfl⟩
    exact ⟨hdevice, halias, rfl⟩
  · rintro ⟨hdevice, halias, hfirmware⟩
    exact ⟨keys.device, hdevice, keys.aliasKey, halias, by rw [← hfirmware]⟩

variable (keys : LayerKeys) (id : RegistrationId) (policy : IssuePolicy) (validity : Validity)

def aliasBody : TbsCertificate :=
  X509.aliasBody keys.device.publicKey keys.aliasKey.publicKey keys.firmware
    (policy.aliasProfile id validity)

def deviceBody : TbsCertificate :=
  X509.deviceBody keys.device.publicKey (policy.deviceProfile validity)

def requestInfo : RequestInfo := .ofKey keys.device.publicKey policy.deviceName

/-- What the device signs about itself. -/
def deviceMessage : Bytes :=
  match policy.deviceCertificate with
  | .selfSigned => (keys.deviceBody policy validity).encode
  | .request => (keys.requestInfo policy).encode

/-- What it makes of the signature. -/
def deviceDer (s : Ecdsa.Signature) : Bytes :=
  match policy.deviceCertificate with
  | .selfSigned => (Certificate.signed (keys.deviceBody policy validity) s).encode
  | .request => (Request.signed (keys.requestInfo policy) s).encode

/-- All that the device signs when it issues. -/
def messages : List Bytes :=
  [(keys.aliasBody id policy validity).encode, keys.deviceMessage policy validity]

/-- The credentials, with the signatures of the alias certificate and of the device's document. -/
def credentials (aliasSignature deviceSignature : Ecdsa.Signature) : Credentials where
  registrationId := id
  firmware := keys.firmware
  form := policy.deviceCertificate
  devicePublicKey := .ofData Pem.publicKeyLabel (PublicKeyInfo.ofKey keys.device.publicKey).encode
  aliasKey := .ofData Pem.ecPrivateKeyLabel (EcPrivateKey.ofKey keys.aliasKey).encode
  aliasCertificate := .ofData Pem.certificateLabel
    (Certificate.signed (keys.aliasBody id policy validity) aliasSignature).encode
  deviceCertificate := .ofData policy.deviceCertificate.label
    (keys.deviceDer policy validity deviceSignature)

/-- The alias certificate as a text. -/
def aliasDocument : Except Error Pem := do
  Pem.encode Pem.certificateLabel (← X509.aliasCertificate keys.device keys.aliasKey.publicKey
    keys.firmware (policy.aliasProfile id validity) maxTbsSize)

theorem aliasDocument_eq : keys.aliasDocument id policy validity =
    signDocument (signerOf keys.device) (keys.aliasBody id policy validity).encode
      (fun s => (Certificate.signed (keys.aliasBody id policy validity) s).encode) maxTbsSize
        >>= Pem.encode Pem.certificateLabel := by
  rw [aliasDocument, X509.aliasCertificate_eq, Certificate.assemble_eq]
  rfl

theorem deviceDocument_eq : keys.deviceDocument policy validity =
    signDocument (signerOf keys.device) (keys.deviceMessage policy validity)
      (keys.deviceDer policy validity) maxTbsSize >>= Pem.encode policy.deviceCertificate.label := by
  unfold deviceDocument deviceMessage deviceDer
  cases policy.deviceCertificate with
  | selfSigned =>
    dsimp only
    rw [X509.deviceCertificate_eq, Certificate.assemble_eq]
    rfl
  | request =>
    dsimp only
    rw [Request.create_eq]
    rfl

/-- A signed document that becomes a text. -/
theorem signDocument_bind_eq_ok_iff {sign : Signer} {first : Bytes}
    {complete : Ecdsa.Signature → Bytes} {label : String} (hlabel : label ∈ Pem.labels) {p : Pem} :
    (signDocument sign first complete maxTbsSize >>= Pem.encode label) = .ok p ↔
      first.length ≤ maxTbsSize ∧ ∃ s, sign first = .ok s ∧ (complete s).length ≤ maxTbsSize ∧
        p = .ofData label (complete s) := by
  simp only [bind_eq_ok_iff, signDocument_eq_ok_iff]
  constructor
  · rintro ⟨b, ⟨hfirst, s, hs, rfl, hle, -⟩, hp⟩
    rw [Pem.encode_eq hlabel hle, Except.ok.injEq] at hp
    exact ⟨hfirst, s, hs, hle, hp.symm⟩
  · rintro ⟨hfirst, s, hs, hle, rfl⟩
    exact ⟨complete s, ⟨hfirst, s, hs, rfl, hle, le_maxLength hle⟩, Pem.encode_eq hlabel hle⟩

theorem length_deviceMessage_le (s : Ecdsa.Signature) :
    (keys.deviceMessage policy validity).length ≤ (keys.deviceDer policy validity s).length := by
  unfold deviceMessage deviceDer
  cases policy.deviceCertificate with
  | selfSigned => exact (Certificate.signed _ s).length_tbs_le
  | request => exact (Request.signed _ s).length_info_le

/-- The texts of the keys never fail to be made, so issuing is about the two documents. -/
theorem issue_eq : keys.issue id policy = (do
    let validity ← policy.validity.toValidity
    let aliasCertificate ← keys.aliasDocument id policy validity
    let deviceCertificate ← keys.deviceDocument policy validity
    return {
      registrationId := id
      firmware := keys.firmware
      form := policy.deviceCertificate
      devicePublicKey :=
        .ofData Pem.publicKeyLabel (PublicKeyInfo.ofKey keys.device.publicKey).encode
      aliasKey := .ofData Pem.ecPrivateKeyLabel (EcPrivateKey.ofKey keys.aliasKey).encode
      aliasCertificate, deviceCertificate }) := by
  have hpublicLength := PublicKeyInfo.length_encode_ofKey keys.device.publicKey
  have hprivateLength := EcPrivateKey.length_encode_ofKey keys.aliasKey
  have hpublic : within PublicKeyInfo.p256Size (PublicKeyInfo.ofKey keys.device.publicKey).encode =
      .ok (PublicKeyInfo.ofKey keys.device.publicKey).encode :=
    within_of_le hpublicLength.le (hpublicLength.trans_le (by decide))
  have hprivate : encodePrivateKey keys.aliasKey EcPrivateKey.p256Size =
      .ok (EcPrivateKey.ofKey keys.aliasKey).encode :=
    within_of_le hprivateLength.le (hprivateLength.trans_le (by decide))
  have hpublicText := Pem.encode_eq (show Pem.publicKeyLabel ∈ Pem.labels by decide)
    (hpublicLength.trans_le (by decide))
  have hprivateText := Pem.encode_eq (show Pem.ecPrivateKeyLabel ∈ Pem.labels by decide)
    (hprivateLength.trans_le (by decide))
  simp only [issue, hpublic, hprivate, hpublicText, hprivateText, ok_bind, aliasDocument, bind_assoc]
  rfl

variable {keys id policy} in
/-- Issuing succeeds for a validity with an encoding and two signed documents that fit, and then
gives the credentials made of them. -/
theorem issue_eq_ok_iff {c : Credentials} : keys.issue id policy = .ok c ↔
    ∃ validity aliasSignature deviceSignature, policy.validity.toValidity = .ok validity ∧
      Ecdsa.sign? keys.device (keys.aliasBody id policy validity).encode = some aliasSignature ∧
      (Certificate.signed (keys.aliasBody id policy validity) aliasSignature).encode.length
        ≤ maxTbsSize ∧
      Ecdsa.sign? keys.device (keys.deviceMessage policy validity) = some deviceSignature ∧
      (keys.deviceDer policy validity deviceSignature).length ≤ maxTbsSize ∧
      c = keys.credentials id policy validity aliasSignature deviceSignature := by
  simp only [issue_eq, bind_eq_ok_iff, pure_eq_ok_iff, aliasDocument_eq, deviceDocument_eq,
    signDocument_bind_eq_ok_iff (show Pem.certificateLabel ∈ Pem.labels by decide),
    signDocument_bind_eq_ok_iff (DeviceCertificateForm.label_mem _), signerOf_eq_ok_iff]
  constructor
  · rintro ⟨validity, hvalidity, _, ⟨-, s₁, hs₁, hle₁, rfl⟩, _, ⟨-, s₂, hs₂, hle₂, rfl⟩, rfl⟩
    exact ⟨validity, s₁, s₂, hvalidity, hs₁, hle₁, hs₂, hle₂, rfl⟩
  · rintro ⟨validity, s₁, s₂, hvalidity, hs₁, hle₁, hs₂, hle₂, rfl⟩
    have hfirst₁ : (keys.aliasBody id policy validity).encode.length ≤ maxTbsSize :=
      (Certificate.signed (keys.aliasBody id policy validity) s₁).length_tbs_le.trans hle₁
    have hfirst₂ := (keys.length_deviceMessage_le policy validity s₂).trans hle₂
    exact ⟨validity, hvalidity, _, ⟨hfirst₁, s₁, hs₁, hle₁, rfl⟩, _, ⟨hfirst₂, s₂, hs₂, hle₂, rfl⟩,
      rfl⟩

end LayerKeys

end MeasuredIdentity
