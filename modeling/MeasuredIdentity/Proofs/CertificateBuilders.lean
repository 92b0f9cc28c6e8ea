import MeasuredIdentity.Proofs.CertificateAssembly
import MeasuredIdentity.Proofs.IssueFailure

/-!
The outcome of the three builders of certificates. A builder looks at the size of its buffer only to
see whether the complete certificate fits, and none of the buffers for the parts is ever too small.
What it makes is read as a certificate unless it was given an empty serial number, or an object
identifier that cannot be read.
-/
namespace MeasuredIdentity

namespace X509

open Der Decoder

/-- The bytes of a signature: two integers of at most 32 bytes in a sequence. -/
def IsEncodedSignature (b : Bytes) : Prop := ∃ u v, IsIntegerPair b u v

theorem IsEncodedSignature.length_le {b : Bytes} (h : IsEncodedSignature b) : b.length ≤ 72 := by
  obtain ⟨u, v, huv⟩ := h
  exact IsIntegerPair.length_le huv

/-- The standard period of validity, as it stands in a certificate. -/
def Validity.standard : Validity := ⟨⟨1483228800, by decide⟩, ⟨2114380800, by decide⟩⟩

theorem Extension.length_value_le (e : Extension) :
    (OctetString.encode e.value).length ≤ e.encode.length := by
  rw [encode, length_element, List.length_append]
  omega

theorem Extensions.length_le_of_mem {es : Extensions} {e : Extension} (h : e ∈ es.toList) :
    e.encode.length ≤ (encode es).length := by
  have hsum : e.encode.length ≤ (es.toList.map fun e => e.encode.length).sum :=
    List.le_sum_of_mem (List.mem_map_of_mem h)
  rw [encode, length_element, List.length_flatMap]
  omega

namespace TbsCertificate

variable {t : TbsCertificate}

/-- Both names and the values of the extensions have encodings. -/
structure HasEncodableParts (t : TbsCertificate) : Prop where
  issuer : (Name.encode t.issuer).length ≤ maxLength
  subject : (Name.encode t.subject).length ≤ maxLength
  extensions : ∀ es ∈ t.extensions, ∀ e ∈ es.toList,
    (OctetString.encode e.value).length ≤ maxLength

/-- Each part of a body is an element inside it, so it is no larger than the body. -/
theorem hasEncodableParts (h : t.encode.length ≤ maxLength) : t.HasEncodableParts := by
  have hparts := length_le_of_element h
  simp only [List.length_append] at hparts
  refine ⟨by omega, by omega, ?_⟩
  intro es hes e he
  have hextensions : (element (.context .three true) (Extensions.encode es)).length ≤ maxLength := by
    have hes : t.extensions = some es := hes
    simp only [hes, Option.map_some, Option.getD_some] at hparts
    omega
  calc (OctetString.encode e.value).length
    _ ≤ e.encode.length := e.length_value_le
    _ ≤ (Extensions.encode es).length := Extensions.length_le_of_mem he
    _ ≤ maxLength := length_le_of_element hextensions

end TbsCertificate

namespace Certificate

/-- What is assembled is read as a certificate exactly if it was given a serial number of at least one
byte and no object identifier that cannot be read. -/
theorem decode_assembled_iff {serial : Bytes} {issuer subject : Name} {validity : Validity}
    {key : PublicKeyInfo} {extensions : Extensions} {sign : Bytes → Except Error Bytes}
    {capacity : ℕ} {der : Bytes}
    (h : assembleWith (body serial issuer subject validity key extensions) sign capacity =
      .ok der) : (∃ c, decode.whole der = some c) ↔
        serial ≠ [] ∧ (givenOids issuer subject key extensions).all Oid.isReadable = true := by
  obtain ⟨-, signature, -, rfl, -, hmax⟩ := assembleWith_eq_ok_iff.1 h
  simp [decode_whole_assembled hmax, isReadable_assembled_iff]

/-- A body with this serial number, no names and no extensions. -/
def numberedBody (serial : Bytes) : TbsCertificate :=
  body serial .empty .empty .standard ⟨.p256, .ofBytes []⟩ .empty

theorem decode_assembled_iff_zeros : ∃ der c,
    assembleWith (numberedBody [0x00, 0x00]) sampleSigner 1024 = .ok der ∧
      decode.whole der = some c := by
  have hassembled : ∃ der, assembleWith (numberedBody [0x00, 0x00]) sampleSigner 1024 = .ok der :=
    ⟨_, assembleWith_eq_ok_iff.2
      ⟨by decide +kernel, _, rfl, rfl, by decide +kernel, by decide +kernel⟩⟩
  obtain ⟨der, hder⟩ := hassembled
  obtain ⟨c, hc⟩ := (decode_assembled_iff hder).2 ⟨List.cons_ne_nil _ _, by decide⟩
  exact ⟨der, c, hder, hc⟩

/-- With an empty serial number something is made that is not read. -/
theorem assembled_not_decoded : ∃ der,
    assembleWith (numberedBody []) sampleSigner 1024 = .ok der ∧ decode.whole der = none := by
  refine ⟨encode ⟨numberedBody [], .ecdsaSha256,
    .ofBytes [0x30, 0x06, 0x02, 0x01, 0x01, 0x02, 0x01, 0x01]⟩, ?_, by decide +kernel⟩
  exact assembleWith_eq_ok_iff.2
    ⟨by decide +kernel, _, rfl, rfl, by decide +kernel, by decide +kernel⟩

end Certificate

/-- The signer signs the encoding of a body that fits into its buffer. -/
def Signs (sign : Bytes → Except Error Bytes) (tbs : TbsCertificate) : Prop :=
  tbs.encode.length ≤ maxTbsSize →
    ∃ signature, sign tbs.encode = .ok signature ∧ IsEncodedSignature signature

/-- The complete encoding of a certificate with this body, signed by this signer. -/
def IsComplete (sign : Bytes → Except Error Bytes) (tbs : TbsCertificate) (der : Bytes) : Prop :=
  ∃ signature, sign tbs.encode = .ok signature ∧
    der = Certificate.encode ⟨tbs, .ecdsaSha256, .ofBytes signature⟩

/-- What a builder makes in a buffer of each size goes by what fits: the parts have encodings, the
body fits into its own buffer, and the complete certificate into the one that is given. What is made
in one buffer is made in every other one with room for it, and there is no other error than that of
size. -/
structure GoesByFit (sign : Bytes → Except Error Bytes) (tbs : TbsCertificate)
    (build : ℕ → Except Error Bytes) : Prop where
  isOk_iff : ∀ n, (∃ der, build n = .ok der) ↔ tbs.HasEncodableParts ∧
    tbs.encode.length ≤ maxTbsSize ∧ ∃ der, IsComplete sign tbs der ∧ der.length ≤ n
  same : ∀ n der, build n = .ok der →
    IsComplete sign tbs der ∧ ∀ m, build m = .ok der ↔ der.length ≤ m
  error_eq : ∀ n e, build n = .error e → e = .invalidDer .overlength

section Builder

variable {sign : Bytes → Except Error Bytes} {tbs : TbsCertificate}

theorem IsComplete.length_le (hsign : Signs sign tbs) (hfirst : tbs.encode.length ≤ maxTbsSize)
    {der : Bytes} (h : IsComplete sign tbs der) : der.length ≤ maxLength := by
  obtain ⟨signature, hsignature, rfl⟩ := h
  obtain ⟨signature', hsignature', hencoded⟩ := hsign hfirst
  obtain rfl : signature = signature' := Except.ok.inj (hsignature.symm.trans hsignature')
  let bits : BitString := .ofBytes signature
  have hbits : bits.bytes.length ≤ 72 := hencoded.length_le
  exact (length_signedBits_le hfirst hbits).trans (by decide)

theorem assembleWith_eq_ok_iff_complete (hsign : Signs sign tbs) {n : ℕ} {der : Bytes} :
    Certificate.assembleWith tbs sign n = .ok der ↔
      tbs.encode.length ≤ maxTbsSize ∧ IsComplete sign tbs der ∧ der.length ≤ n := by
  rw [Certificate.assembleWith_eq_ok_iff]
  constructor
  · rintro ⟨hfirst, signature, hsignature, heq, hfits, -⟩
    exact ⟨hfirst, ⟨signature, hsignature, heq⟩, hfits⟩
  · rintro ⟨hfirst, hcomplete, hfits⟩
    have hmax := hcomplete.length_le hsign hfirst
    obtain ⟨signature, hsignature, heq⟩ := hcomplete
    exact ⟨hfirst, signature, hsignature, heq, hfits, hmax⟩

theorem assembleWith_error (hsign : Signs sign tbs) {n : ℕ} {e : Error}
    (h : Certificate.assembleWith tbs sign n = .error e) : e = .invalidDer .overlength := by
  have hsigned : tbs.encode.length ≤ maxTbsSize → ∃ signature, sign tbs.encode = .ok signature := by
    intro hfirst
    obtain ⟨signature, hsignature, -⟩ := hsign hfirst
    exact ⟨signature, hsignature⟩
  exact eq_overlength_of_signed hsigned h

theorem goesByFit_assembleWith (hsign : Signs sign tbs) :
    GoesByFit sign tbs (Certificate.assembleWith tbs sign) where
  isOk_iff := by
    intro n
    simp only [assembleWith_eq_ok_iff_complete hsign]
    constructor
    · rintro ⟨der, hfirst, hder⟩
      exact ⟨TbsCertificate.hasEncodableParts (le_maxLength hfirst), hfirst, der, hder⟩
    · rintro ⟨-, hfirst, der, hder⟩
      exact ⟨der, hfirst, hder⟩
  same := by
    intro n der h
    obtain ⟨hfirst, hcomplete, -⟩ := (assembleWith_eq_ok_iff_complete hsign).1 h
    refine ⟨hcomplete, fun m => ?_⟩
    rw [assembleWith_eq_ok_iff_complete hsign]
    exact ⟨fun h => h.2.2, fun hfits => ⟨hfirst, hcomplete, hfits⟩⟩
  error_eq := fun _ _ => assembleWith_error hsign

/-- Where the body fits and is signed, there is one certificate, which is made in exactly the buffers
that have room for it. -/
theorem GoesByFit.exists_made {build : ℕ → Except Error Bytes} (h : GoesByFit sign tbs build)
    (hsign : Signs sign tbs) (hfirst : tbs.encode.length ≤ maxTbsSize) :
    ∃ der, ∀ n, build n = .ok der ↔ der.length ≤ n := by
  obtain ⟨signature, hsignature, -⟩ := hsign hfirst
  obtain ⟨der, hder⟩ := (h.isOk_iff _).2 ⟨TbsCertificate.hasEncodableParts (le_maxLength hfirst), hfirst,
    _, ⟨signature, hsignature, rfl⟩, Nat.le_refl _⟩
  exact ⟨der, (h.same _ der hder).2⟩

end Builder

/-- The signer of a key that gives the bytes of its signatures. -/
def encodedSigner (key : P256.PrivateKey) : Bytes → Except Error Bytes :=
  fun message => (signerOf key message).map encodeSignature

theorem signs_encodedSigner {key : P256.PrivateKey} {tbs : TbsCertificate}
    (h : tbs.encode.length ≤ maxTbsSize → ∃ s, Ecdsa.sign? key tbs.encode = some s) :
    Signs (encodedSigner key) tbs := by
  intro hfirst
  obtain ⟨s, hs⟩ := h hfirst
  refine ⟨encodeSignature s, ?_, _, _, isIntegerPair_encodeSignature s⟩
  rw [encodedSigner, signerOf_eq_ok_iff.2 hs]
  rfl

theorem signs_sampleSigner (tbs : TbsCertificate) : Signs Certificate.sampleSigner tbs := by
  intro _
  refine ⟨_, rfl, .ofBytes [0x01], .ofBytes [0x01], ?_, ?_, by decide⟩
  · exact ⟨by decide, by decide⟩
  · exact ⟨by decide, by decide⟩

variable {device : P256.PrivateKey} {aliasKey : P256.PublicKey} {firmware : Digest}
  {profile : Profile}

theorem goesByFit_aliasCertificate
    (hsign : Signs (encodedSigner device) (aliasBody device.publicKey aliasKey firmware profile)) :
    GoesByFit (encodedSigner device) (aliasBody device.publicKey aliasKey firmware profile)
      (aliasCertificate device aliasKey firmware profile) := by
  have hbuild : aliasCertificate device aliasKey firmware profile = Certificate.assembleWith
      (aliasBody device.publicKey aliasKey firmware profile) (encodedSigner device) :=
    funext (aliasCertificate_eq device aliasKey firmware profile)
  rw [hbuild]
  exact goesByFit_assembleWith hsign

theorem goesByFit_deviceCertificate
    (hsign : Signs (encodedSigner device) (deviceBody device.publicKey profile)) :
    GoesByFit (encodedSigner device) (deviceBody device.publicKey profile)
      (deviceCertificate device profile) := by
  have hbuild : deviceCertificate device profile = Certificate.assembleWith
      (deviceBody device.publicKey profile) (encodedSigner device) :=
    funext (deviceCertificate_eq device profile)
  rw [hbuild]
  exact goesByFit_assembleWith hsign

/-- All three builders go by what fits, where the signer does its part. The buffers for the
extensions of the two kinds of certificate and the one for the composite identity have room for what
goes into them, whatever the key of the device and the firmware are. -/
theorem builders_go_by_fit (device : P256.PrivateKey) (aliasKey : P256.PublicKey)
    (firmware : Digest) (aliasProfile deviceProfile : Profile) (serial : Bytes)
    (issuer subject : Name) (validity : Validity) (key : PublicKeyInfo) (extensions : Extensions)
    (sign : Bytes → Except Error Bytes) :
    (Signs (encodedSigner device) (aliasBody device.publicKey aliasKey firmware aliasProfile) →
      GoesByFit (encodedSigner device) (aliasBody device.publicKey aliasKey firmware aliasProfile)
        (aliasCertificate device aliasKey firmware aliasProfile)) ∧
    (Signs (encodedSigner device) (deviceBody device.publicKey deviceProfile) →
      GoesByFit (encodedSigner device) (deviceBody device.publicKey deviceProfile)
        (deviceCertificate device deviceProfile)) ∧
    (Signs sign (Certificate.body serial issuer subject validity key extensions) →
      GoesByFit sign (Certificate.body serial issuer subject validity key extensions)
        (Certificate.assembleWith (Certificate.body serial issuer subject validity key extensions)
          sign)) ∧
    aliasExtensions device.publicKey firmware =
      .ok (aliasExtensionsOf device.publicKey firmware) ∧
    deviceExtensions device.publicKey = .ok (deviceExtensionsOf device.publicKey) ∧
    compositeName device.publicKey firmware = .ok (compositeNameOf device.publicKey firmware) ∧
    (CompositeDeviceId.ofKey device.publicKey firmware).encode.length =
      CompositeDeviceId.p256Size :=
  ⟨goesByFit_aliasCertificate, goesByFit_deviceCertificate, goesByFit_assembleWith,
    aliasExtensions_eq _ _, deviceExtensions_eq _, compositeName_eq _ _,
    CompositeDeviceId.length_encode_ofKey _ _⟩

end X509

namespace LayerKeys

open X509

theorem builders_go_by_fit_zeroCdiKeys : ∃ aliasDer deviceDer der,
    (∀ n, aliasCertificate zeroCdiKeys.device zeroCdiKeys.aliasKey.publicKey zeroCdiKeys.firmware
      (IssuePolicy.aliasProfile {} shortId .standard) n = .ok aliasDer ↔
        aliasDer.length ≤ n) ∧
    (∀ n, deviceCertificate zeroCdiKeys.device (IssuePolicy.deviceProfile {} .standard) n =
      .ok deviceDer ↔ deviceDer.length ≤ n) ∧
    ∀ n, Certificate.assembleWith (Certificate.numberedBody [0x00, 0x80]) Certificate.sampleSigner n =
      .ok der ↔ der.length ≤ n := by
  obtain ⟨s₁, hs₁⟩ := Option.isSome_iff_exists.1 (sign?_zeroCdiKeys _ List.mem_cons_self)
  obtain ⟨s₂, hs₂⟩ := Option.isSome_iff_exists.1
    (sign?_zeroCdiKeys _ (List.mem_cons_of_mem _ List.mem_cons_self))
  have halias : Signs (encodedSigner zeroCdiKeys.device)
      (zeroCdiKeys.aliasBody shortId {} .standard) := signs_encodedSigner fun _ => ⟨s₁, hs₁⟩
  have hdevice : Signs (encodedSigner zeroCdiKeys.device)
      (zeroCdiKeys.deviceBody {} .standard) := signs_encodedSigner fun _ => ⟨s₂, hs₂⟩
  have haliasFits : (zeroCdiKeys.aliasBody shortId {} .standard).encode.length ≤ maxTbsSize :=
    (Certificate.signed _ s₁).length_tbs_le.trans
      (length_aliasCertificate_le rfl rfl shortId .standard s₁)
  have hsize : (zeroCdiKeys.deviceDer {} .standard s₂).length ≤ maxTbsSize :=
    length_deviceDer_le rfl .standard s₂
  have hdeviceFits : (zeroCdiKeys.deviceBody {} .standard).encode.length ≤ maxTbsSize :=
    (Certificate.signed _ s₂).length_tbs_le.trans hsize
  have hrawFits : (Certificate.numberedBody [0x00, 0x80]).encode.length ≤ maxTbsSize := by
    decide +kernel
  obtain ⟨goesAlias, goesDevice, goesRaw, -⟩ := builders_go_by_fit zeroCdiKeys.device
    zeroCdiKeys.aliasKey.publicKey zeroCdiKeys.firmware
    (IssuePolicy.aliasProfile {} shortId .standard)
    (IssuePolicy.deviceProfile {} .standard) [0x00, 0x80] .empty .empty .standard
    ⟨.p256, .ofBytes []⟩ .empty Certificate.sampleSigner
  obtain ⟨aliasDer, haliasDer⟩ := (goesAlias halias).exists_made halias haliasFits
  obtain ⟨deviceDer, hdeviceDer⟩ := (goesDevice hdevice).exists_made hdevice hdeviceFits
  obtain ⟨der, hder⟩ := (goesRaw (signs_sampleSigner _)).exists_made (signs_sampleSigner _) hrawFits
  exact ⟨aliasDer, deviceDer, der, haliasDer, hdeviceDer, hder⟩

end LayerKeys

end MeasuredIdentity
