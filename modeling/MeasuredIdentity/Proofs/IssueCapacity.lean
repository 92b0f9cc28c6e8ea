import MeasuredIdentity.Proofs.IssuedCredentials

/-!
The buffers are large enough. Every part of a document has a fixed size except its names and its
signature; under the standard names a document is well below the size of its buffer, whatever the
registration id is and however long the integers of the signature are.
-/
namespace MeasuredIdentity

namespace X509

open Der KeyDerivation

theorem length_encode_serialOf (key : P256.PublicKey) :
    (Uint.ofBytes (serialOf key).toList).encode.length = 10 := by
  rw [Uint.encode, length_element_eq, content_serialOf, Octets.length_toList]
  rfl

theorem length_encode_aliasExtensionsOf (device : P256.PublicKey) (firmware : Digest) :
    (Extensions.encode (aliasExtensionsOf device firmware)).length = 255 := by
  have hkeyUsage : KeyUsage.digitalSignature.encode.length = 4 := by decide
  have hpurpose : (ExtendedKeyUsage.encode (Bounded.cons ExtendedKeyUsage.clientAuth
    Bounded.empty)).length = 12 := by decide
  simp only [Extensions.length_encode, aliasExtensionsOf, List.map_cons, List.map_nil,
    Extension.length_encode, hkeyUsage, hpurpose, AuthorityKeyId.length_encode_some,
    Octets.length_toList, length_encode_compositeNameOf]
  simp [elementSize, lengthWidth, keyIdSize, Extension.keyUsageOid, Extension.extendedKeyUsageOid,
    Extension.authorityKeyIdOid, Extension.subjectAltNameOid]

theorem length_encode_deviceExtensionsOf (device : P256.PublicKey) :
    (Extensions.encode (deviceExtensionsOf device)).length = 102 := by
  have hconstraints : (BasicConstraints.encode ⟨true, some 1⟩).length = 8 := by decide
  have hkeyUsage : KeyUsage.keyCertSign.encode.length = 4 := by decide
  simp only [Extensions.length_encode, deviceExtensionsOf, List.map_cons, List.map_nil,
    Extension.length_encode, hconstraints, hkeyUsage, SubjectKeyId.encode,
    OctetString.length_encode, AuthorityKeyId.length_encode_some, Octets.length_toList]
  simp [elementSize, lengthWidth, keyIdSize, Extension.basicConstraintsOid, Extension.keyUsageOid,
    Extension.subjectKeyIdOid, Extension.authorityKeyIdOid]

theorem length_encode_aliasBody (device subject : P256.PublicKey) (firmware : Digest)
    (profile : Profile) : (aliasBody device subject firmware profile).encode.length =
      elementSize (408 + (Name.encode profile.issuer.toName).length
        + (Name.encode profile.subject.toName).length) := by
  have hextensions : elementSize 255 = 258 := by decide
  rw [aliasBody, Profile.body, Certificate.length_encode_body, length_encode_serialOf,
    length_encode_aliasExtensionsOf, hextensions]
  exact congrArg elementSize (by omega)

theorem length_encode_deviceBody (device : P256.PublicKey) (profile : Profile) :
    (deviceBody device profile).encode.length =
      elementSize (254 + (Name.encode profile.issuer.toName).length
        + (Name.encode profile.subject.toName).length) := by
  have hextensions : elementSize 102 = 104 := by decide
  rw [deviceBody, Profile.body, Certificate.length_encode_body, length_encode_serialOf,
    length_encode_deviceExtensionsOf, hextensions]
  exact congrArg elementSize (by omega)

theorem RequestInfo.length_encode_ofKey (key : P256.PublicKey) (subject : NameParts) :
    (RequestInfo.ofKey key subject).encode.length =
      elementSize (96 + (Name.encode subject.toName).length) := by
  have hversion : (SmallUint.encode 0).length = 3 := by decide
  have hattributes : (element (.context .zero true) []).length = 2 := by decide
  simp only [RequestInfo.encode, ofKey, length_element_eq, List.length_append,
    PublicKeyInfo.length_encode_ofKey, hversion, Bounded.empty, List.flatMap_nil]
  rw [← length_element_eq (.context .zero true), hattributes]
  exact congrArg elementSize (by omega)

end X509

open X509 Der

theorem length_encode_standardName : (Name.encode standardName.toName).length = 58 := by
  decide +kernel

/-- The standard name of an alias with a registration id in it. -/
theorem length_encode_standardName_withCommon (id : RegistrationId) :
    (Name.encode (standardName.withCommon id.text).toName).length ≤ 180 := by
  rw [NameParts.length_encode_toName]
  exact nameSize_mono id.length_encode_le (show (Text.Utf8.encode "DEVKIT_TEST").length ≤ 11 by
    decide +kernel) (show (Text.Utf8.encode "US").length ≤ 2 by decide +kernel)

namespace LayerKeys

variable {keys : LayerKeys} {policy : IssuePolicy}

theorem length_aliasCertificate_le (hdevice : policy.deviceName = standardName)
    (halias : policy.aliasName = standardName) (id : RegistrationId) (validity : Validity)
    (s : Ecdsa.Signature) :
    (Certificate.signed (keys.aliasBody id policy validity) s).encode.length ≤ maxTbsSize := by
  have hissuer : (Name.encode policy.deviceName.toName).length = 58 := by
    rw [hdevice, length_encode_standardName]
  have hsubject : (Name.encode (policy.aliasName.withCommon id.text).toName).length ≤ 180 := by
    rw [halias]
    exact length_encode_standardName_withCommon id
  have hbody : (keys.aliasBody id policy validity).encode.length ≤ elementSize 646 := by
    rw [aliasBody, length_encode_aliasBody]
    apply elementSize_mono
    dsimp only [IssuePolicy.aliasProfile]
    omega
  exact (length_signed_le hbody s).trans (by decide)

theorem length_deviceDer_le (hdevice : policy.deviceName = standardName) (validity : Validity)
    (s : Ecdsa.Signature) : (keys.deviceDer policy validity s).length ≤ maxTbsSize := by
  have hname : (Name.encode policy.deviceName.toName).length = 58 := by
    rw [hdevice, length_encode_standardName]
  have hbody : (keys.deviceBody policy validity).encode.length ≤ elementSize 370 := by
    rw [deviceBody, length_encode_deviceBody]
    apply elementSize_mono
    dsimp only [IssuePolicy.deviceProfile]
    omega
  have hinfo : (keys.requestInfo policy).encode.length ≤ elementSize 154 := by
    rw [requestInfo, RequestInfo.length_encode_ofKey, hname]
  unfold deviceDer
  cases policy.deviceCertificate with
  | selfSigned => exact (length_signed_le hbody s).trans (by decide)
  | request => exact (length_signed_le hinfo s).trans (by decide)

/-- Signatures over the two messages are all that issuing under the standard names needs. -/
theorem issue_eq_ok_of_standardName (hdevice : policy.deviceName = standardName)
    (halias : policy.aliasName = standardName) {id : RegistrationId} {validity : Validity}
    (hvalidity : policy.validity.toValidity = .ok validity)
    (hsign : ∀ message ∈ keys.messages id policy validity,
      (Ecdsa.sign? keys.device message).isSome) :
    ∃ c, keys.issue id policy = .ok c := by
  simp only [messages, List.forall_mem_cons, List.not_mem_nil, false_implies, forall_const,
    and_true, Option.isSome_iff_exists] at hsign
  obtain ⟨⟨s₁, hs₁⟩, s₂, hs₂⟩ := hsign
  exact ⟨_, issue_eq_ok_iff.2 ⟨validity, s₁, s₂, hvalidity, hs₁,
    length_aliasCertificate_le hdevice halias id validity s₁, hs₂,
    length_deviceDer_le hdevice validity s₂, rfl⟩⟩

/-- Under the standard names, and with a validity that ends before 2050, nothing is too large: if
the device can sign the two messages, it issues. -/
theorem issue_isOk_of_standardName (hdevice : policy.deviceName = standardName)
    (halias : policy.aliasName = standardName) (hbefore : policy.validity.notBefore < 2524608000)
    (hafter : policy.validity.notAfter < 2524608000) (id : RegistrationId)
    (hsign : ∀ message ∈ keys.messages id policy
      ⟨⟨policy.validity.notBefore, hbefore⟩, ⟨policy.validity.notAfter, hafter⟩⟩,
      (Ecdsa.sign? keys.device message).isSome) :
    ∃ c, keys.issue id policy = .ok c ∧ ∀ cdi firmwareImage,
      LayerKeys.ofCdi cdi firmwareImage = .ok keys →
        credentialsOf cdi id firmwareImage policy = .ok c := by
  obtain ⟨c, hissue⟩ := issue_eq_ok_of_standardName hdevice halias
    (ValidityPeriod.toValidity_eq_ok_iff.2 ⟨rfl, rfl⟩) hsign
  refine ⟨c, hissue, ?_⟩
  intro cdi firmwareImage hkeys
  rw [credentialsOf, hkeys, ok_bind, hissue]

end LayerKeys

/-- Signing goes by the digest of the message. -/
theorem Ecdsa.sign?_isSome_of_digest {key : P256.PrivateKey} {message : Bytes} (digest : Digest)
    (hdigest : sha256 message = digest)
    (hsign : ((nonce? key digest).bind fun k => signWith? key k (digestScalar digest)).isSome) :
    (sign? key message).isSome := by
  subst hdigest
  exact hsign

namespace LayerKeys

/-- The keys for an identifier of zeros and an empty firmware image. -/
def zeroCdiKeys : LayerKeys where
  device := ⟨28517849116364800789883983169860558074785758778156591741982679068652317219889,
    by decide, by decide⟩
  aliasKey := ⟨85083890061888925592905979177344426184478681193910328420208346002349890928170,
    by decide, by decide⟩
  firmware := sha256 []

theorem ofCdi_zeroCdi : LayerKeys.ofCdi .wiped [] = .ok zeroCdiKeys := by decide +kernel

def shortId : RegistrationId := ⟨"a", by decide, by decide, by decide⟩

theorem sign?_zeroCdiKeys : ∀ message ∈ zeroCdiKeys.messages shortId {}
    ⟨⟨1483228800, by decide⟩, ⟨2114380800, by decide⟩⟩,
    (Ecdsa.sign? zeroCdiKeys.device message).isSome := by
  refine List.forall_mem_cons.2 ⟨?_, List.forall_mem_singleton.2 ?_⟩
  · exact Ecdsa.sign?_isSome_of_digest
      (Octets.ofNat 32 0x07512b1f254208b2420a5c71ffafdf267ad03c8285bcb85ef08fe42ab4070d84)
      (by decide +kernel) (by decide +kernel)
  · exact Ecdsa.sign?_isSome_of_digest
      (Octets.ofNat 32 0xed1d275c8381649dd5ffd1ce4587fe2e87b8379a8a125290853ba15f5cef7dba)
      (by decide +kernel) (by decide +kernel)

theorem issue_isOk_zeroCdi : ∃ c, zeroCdiKeys.issue shortId {} = .ok c ∧
    credentialsOf .wiped shortId [] {} = .ok c := by
  obtain ⟨c, hissue, hcredentials⟩ := issue_isOk_of_standardName rfl rfl (by decide) (by decide)
    shortId sign?_zeroCdiKeys
  exact ⟨c, hissue, hcredentials .wiped [] ofCdi_zeroCdi⟩

end LayerKeys

end MeasuredIdentity
