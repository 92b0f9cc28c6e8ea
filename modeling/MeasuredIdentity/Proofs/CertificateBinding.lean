import MeasuredIdentity.Proofs.CredentialChain
import MeasuredIdentity.Proofs.PointForms
import MeasuredIdentity.Proofs.UniqueEncoding

/-!
The text of an alias certificate determines all that it vouches for. A text is read in one way
only, so equal texts have one body; and a body gives back both keys, the measurement, the names and
the validity that it was made of.
-/
namespace MeasuredIdentity

open Der X509

theorem P256.PublicKey.toOctets_injective : Function.Injective P256.PublicKey.toOctets := by
  rintro ⟨x, y, hx, hy⟩ ⟨x', y', hx', hy'⟩ h
  have hlist : (0x04 : UInt8) :: (Bytes.ofNat 32 x ++ Bytes.ofNat 32 y) =
      0x04 :: (Bytes.ofNat 32 x' ++ Bytes.ofNat 32 y') := congrArg Octets.toList h
  have hlength : (Bytes.ofNat 32 x).length = (Bytes.ofNat 32 x').length := by
    rw [Bytes.length_ofNat, Bytes.length_ofNat]
  obtain ⟨-, hcoordinates⟩ := List.cons.inj hlist
  obtain ⟨hxs, hys⟩ := List.append_inj hcoordinates hlength
  have hxs := congrArg Bytes.toNat hxs
  have hys := congrArg Bytes.toNat hys
  rw [toNat_ofNat_coordinate hx, toNat_ofNat_coordinate hx'] at hxs
  rw [toNat_ofNat_coordinate hy, toNat_ofNat_coordinate hy'] at hys
  obtain rfl : x = x' := hxs
  obtain rfl : y = y' := hys
  rfl

namespace X509

theorem NameParts.toName_injective : Function.Injective NameParts.toName := by
  rintro ⟨common, organization, country⟩ ⟨common', organization', country'⟩ h
  simp only [NameParts.toName, Bounded.mk.injEq, List.cons.injEq, Attribute.mk.injEq,
    Element.mk.injEq, true_and, and_true] at h
  obtain ⟨hcommon, horganization, hcountry⟩ := h
  obtain rfl := Text.Utf8.encode_injective hcommon
  obtain rfl := Text.Utf8.encode_injective horganization
  obtain rfl := Text.Utf8.encode_injective hcountry
  rfl

theorem PublicKeyInfo.ofKey_injective : Function.Injective PublicKeyInfo.ofKey := by
  intro k k' h
  have hbytes : k.toOctets.toList = k'.toOctets.toList := congrArg (fun i => i.key.bytes) h
  exact P256.PublicKey.toOctets_injective (Octets.ext hbytes)

/-- The composite identity is read back through the element that holds it. -/
theorem compositeNameOf_inj {device device' : P256.PublicKey} {firmware firmware' : Digest}
    (h : compositeNameOf device firmware = compositeNameOf device' firmware') :
    device = device' ∧ firmware = firmware' := by
  have hencode : (CompositeDeviceId.ofKey device firmware).encode =
      (CompositeDeviceId.ofKey device' firmware').encode :=
    congrArg (fun n => n.otherName.value.encode) h
  have hlength := CompositeDeviceId.length_encode_ofKey device firmware
  have hcomposite :=
    CompositeDeviceId.unambiguous.distinct _ _ (hlength.trans_le (by decide)) hencode
  exact ⟨PublicKeyInfo.ofKey_injective (congrArg CompositeDeviceId.device hcomposite),
    Octets.ext (congrArg (fun c => c.firmware.digest) hcomposite)⟩

theorem aliasExtensionsOf_inj {device device' : P256.PublicKey} {firmware firmware' : Digest}
    (h : aliasExtensionsOf device firmware = aliasExtensionsOf device' firmware') :
    device = device' ∧ firmware = firmware' := by
  have hlist := congrArg Bounded.toList h
  simp only [aliasExtensionsOf, List.cons.injEq, Extension.mk.injEq, true_and, and_true] at hlist
  have hlength := length_encode_compositeNameOf device firmware
  exact compositeNameOf_inj
    (SubjectAltName.unambiguous.distinct _ _ (hlength.trans_le (by decide)) hlist.2)

/-- The body of an alias certificate gives back all that it is made of. -/
theorem aliasBody_inj {device device' subject subject' : P256.PublicKey}
    {firmware firmware' : Digest} {profile profile' : Profile}
    (h : aliasBody device subject firmware profile = aliasBody device' subject' firmware' profile') :
    device = device' ∧ subject = subject' ∧ firmware = firmware' ∧ profile = profile' := by
  obtain ⟨issuer, name, validity⟩ := profile
  obtain ⟨issuer', name', validity'⟩ := profile'
  simp only [aliasBody, Profile.body, Certificate.body, TbsCertificate.mk.injEq, true_and,
    Option.some.injEq] at h
  obtain ⟨-, hissuer, rfl, hname, hkey, hextensions⟩ := h
  obtain ⟨hdevice, hfirmware⟩ := aliasExtensionsOf_inj hextensions
  obtain rfl := NameParts.toName_injective hissuer
  obtain rfl := NameParts.toName_injective hname
  exact ⟨hdevice, PublicKeyInfo.ofKey_injective hkey, hfirmware, rfl⟩

end X509

theorem Pem.Holds.data_eq {p q : Pem} {data data' : Bytes} (hp : p.Holds data) (hq : q.Holds data')
    (htext : p.text = q.text) : data = data' := by
  have hread : p.toDer (data.length + data'.length) = q.toDer (data.length + data'.length) := by
    rw [toDer, toDer, htext]
  rw [hp _ (Nat.le_add_right _ _), hq _ (Nat.le_add_left _ _)] at hread
  exact Except.ok.inj hread

theorem Pem.Carries.value_eq {α : Type} {dec : Decoder α} {p q : Pem} {label label' : String}
    {data data' : Bytes} {value value' : α} (hp : p.Carries label dec data value)
    (hq : q.Carries label' dec data' value') (htext : p.text = q.text) : value = value' := by
  have hdata := hp.holds.data_eq hq.holds htext
  have hvalue := hp.decodes
  rw [hdata, hq.decodes] at hvalue
  exact (Option.some.inj hvalue).symm

attribute [ext] RegistrationId X509.ValidityPeriod

namespace LayerKeys

/-- The text of an alias certificate carries its body. -/
theorem carries_aliasCertificate {keys : LayerKeys} {id : RegistrationId} {policy : IssuePolicy}
    {validity : Validity} {s t : Ecdsa.Signature}
    (hle : (Certificate.signed (keys.aliasBody id policy validity) s).encode.length ≤ maxTbsSize) :
    (keys.credentials id policy validity s t).aliasCertificate.Carries Pem.certificateLabel
      Certificate.decode (Certificate.signed (keys.aliasBody id policy validity) s).encode
      (Certificate.signed (keys.aliasBody id policy validity) s) := by
  have hserial : (keys.aliasBody id policy validity).HasSerial :=
    KeyDerivation.magnitude_serialOf_ne_nil keys.aliasKey.publicKey
  exact carries_signed hserial rfl hle

/-- Alias certificates with the same text are about the same registration, measurement and keys,
under the same names and for the same time, whichever devices have issued them. -/
theorem aliasCertificate_determines {keys keys' : LayerKeys} {id id' : RegistrationId}
    {policy policy' : IssuePolicy} {c c' : Credentials} (h : keys.issue id policy = .ok c)
    (h' : keys'.issue id' policy' = .ok c')
    (htext : c.aliasCertificate.text = c'.aliasCertificate.text) :
    id = id' ∧ c.firmware = c'.firmware ∧
      keys.device.publicKey = keys'.device.publicKey ∧
      keys.aliasKey.publicKey = keys'.aliasKey.publicKey ∧
      policy.deviceName = policy'.deviceName ∧
      policy.aliasName.organization = policy'.aliasName.organization ∧
      policy.aliasName.country = policy'.aliasName.country ∧
      policy.validity = policy'.validity := by
  obtain ⟨validity, s, _, hvalidity, -, hle, -, -, rfl⟩ := issue_eq_ok_iff.1 h
  obtain ⟨validity', s', _, hvalidity', -, hle', -, -, rfl⟩ := issue_eq_ok_iff.1 h'
  have hcertificate := (carries_aliasCertificate hle).value_eq (carries_aliasCertificate hle') htext
  have hbody := congrArg Certificate.tbs hcertificate
  obtain ⟨hdevice, halias, hfirmware, hprofile⟩ := aliasBody_inj hbody
  simp only [IssuePolicy.aliasProfile, Profile.mk.injEq, NameParts.withCommon,
    NameParts.mk.injEq] at hprofile
  obtain ⟨hname, ⟨hid, horganization, hcountry⟩, rfl⟩ := hprofile
  obtain ⟨hbefore, hafter⟩ := ValidityPeriod.toValidity_eq_ok_iff.1 hvalidity
  obtain ⟨hbefore', hafter'⟩ := ValidityPeriod.toValidity_eq_ok_iff.1 hvalidity'
  exact ⟨RegistrationId.ext hid, hfirmware, hdevice, halias, hname, horganization, hcountry,
    ValidityPeriod.ext (hbefore.symm.trans hbefore') (hafter.symm.trans hafter')⟩

/-- The standard policy, but for the common name of the alias, which is replaced by the id. -/
def unnamedPolicy : IssuePolicy where
  aliasName := ⟨"", "DEVKIT_TEST", "US"⟩

theorem aliasCertificate_determines_zeroCdi :
    ∃ c c', zeroCdiKeys.issue shortId {} = .ok c ∧ zeroCdiKeys.issue shortId unnamedPolicy = .ok c' ∧
      c.aliasCertificate.text = c'.aliasCertificate.text ∧ c.firmware = c'.firmware ∧
      standardName.organization = unnamedPolicy.aliasName.organization ∧
      ValidityPeriod.standard = unnamedPolicy.validity := by
  obtain ⟨c, hc⟩ := issue_eq_ok_of_standardName rfl rfl
    (ValidityPeriod.toValidity_eq_ok_iff.2 ⟨rfl, rfl⟩) sign?_zeroCdiKeys
  obtain ⟨validity, s, t, hvalidity, hs, hle, ht, hle', rfl⟩ := issue_eq_ok_iff.1 hc
  have hc' : zeroCdiKeys.issue shortId unnamedPolicy =
      .ok (zeroCdiKeys.credentials shortId unnamedPolicy validity s t) :=
    issue_eq_ok_iff.2 ⟨validity, s, t, hvalidity, hs, hle, ht, hle', rfl⟩
  obtain ⟨-, hfirmware, -, -, -, horganization, -, hperiod⟩ := aliasCertificate_determines hc hc' rfl
  exact ⟨_, _, hc, hc', rfl, hfirmware, horganization, hperiod⟩

end LayerKeys

end MeasuredIdentity
