import MeasuredIdentity.Proofs.IssueCapacity

/-!
What a device shows for itself does not depend on its firmware, its registration or the name of its
alias, and what its alias shows does not depend on the form of the device's own document. The texts
are compared, not the keys alone: equal messages get equal signatures, since signing is a function.
-/
namespace MeasuredIdentity

open X509

namespace IssuePolicy

/-- The policies say the same about the device. A request has no validity. -/
structure AgreeOnDevice (p q : IssuePolicy) : Prop where
  deviceName : p.deviceName = q.deviceName
  form : p.deviceCertificate = q.deviceCertificate
  validity : p.deviceCertificate = .selfSigned → p.validity = q.validity

/-- The policies say the same about the alias. Its common name is the registration id. -/
structure AgreeOnAlias (p q : IssuePolicy) : Prop where
  deviceName : p.deviceName = q.deviceName
  organization : p.aliasName.organization = q.aliasName.organization
  country : p.aliasName.country = q.aliasName.country
  validity : p.validity = q.validity

variable {p q : IssuePolicy}

theorem AgreeOnAlias.aliasProfile_eq (h : p.AgreeOnAlias q) (id : RegistrationId)
    (validity : Validity) : p.aliasProfile id validity = q.aliasProfile id validity := by
  simp only [aliasProfile, NameParts.withCommon, h.deviceName, h.organization, h.country]

end IssuePolicy

namespace LayerKeys

theorem device_eq_of_ofCdi {cdi : Cdi} {image image' : Bytes} {keys keys' : LayerKeys}
    (h : ofCdi cdi image = .ok keys) (h' : ofCdi cdi image' = .ok keys') :
    keys.device = keys'.device := by
  obtain ⟨hdevice, -⟩ := ofCdi_eq_ok_iff.1 h
  obtain ⟨hdevice', -⟩ := ofCdi_eq_ok_iff.1 h'
  exact Except.ok.inj (hdevice.symm.trans hdevice')

section Device

variable {keys keys' : LayerKeys} {policy policy' : IssuePolicy} {validity validity' : Validity}
  (hkey : keys.device = keys'.device) (hpolicy : policy.AgreeOnDevice policy')
  (hvalidity : policy.deviceCertificate = .selfSigned → validity = validity')

include hkey hpolicy

theorem requestInfo_eq : keys.requestInfo policy = keys'.requestInfo policy' := by
  rw [requestInfo, requestInfo, hkey, hpolicy.deviceName]

include hvalidity

theorem deviceBody_eq (hform : policy.deviceCertificate = .selfSigned) :
    keys.deviceBody policy validity = keys'.deviceBody policy' validity' := by
  rw [deviceBody, deviceBody, IssuePolicy.deviceProfile, IssuePolicy.deviceProfile, hkey,
    hpolicy.deviceName, hvalidity hform]

theorem deviceMessage_eq :
    keys.deviceMessage policy validity = keys'.deviceMessage policy' validity' := by
  unfold deviceMessage
  rw [← hpolicy.form]
  cases hform : policy.deviceCertificate with
  | selfSigned => exact congrArg TbsCertificate.encode (deviceBody_eq hkey hpolicy hvalidity hform)
  | request => exact congrArg RequestInfo.encode (requestInfo_eq hkey hpolicy)

theorem deviceDer_eq (s : Ecdsa.Signature) :
    keys.deviceDer policy validity s = keys'.deviceDer policy' validity' s := by
  unfold deviceDer
  rw [← hpolicy.form]
  cases hform : policy.deviceCertificate with
  | selfSigned =>
    dsimp only
    rw [deviceBody_eq hkey hpolicy hvalidity hform]
  | request =>
    dsimp only
    rw [requestInfo_eq hkey hpolicy]

end Device

variable {keys keys' : LayerKeys} {id id' : RegistrationId} {policy policy' : IssuePolicy}
  {c c' : Credentials}

/-- The same device key and the same policy for the device give the same texts for the device. -/
theorem device_texts_eq (h : keys.issue id policy = .ok c) (h' : keys'.issue id' policy' = .ok c')
    (hkey : keys.device = keys'.device) (hpolicy : policy.AgreeOnDevice policy') :
    c.devicePublicKey = c'.devicePublicKey ∧ c.deviceCertificate = c'.deviceCertificate := by
  obtain ⟨validity, _, s, hvalidity, -, -, hs, -, rfl⟩ := issue_eq_ok_iff.1 h
  obtain ⟨validity', _, s', hvalidity', -, -, hs', -, rfl⟩ := issue_eq_ok_iff.1 h'
  have hsame : policy.deviceCertificate = .selfSigned → validity = validity' := by
    intro hform
    rw [hpolicy.validity hform] at hvalidity
    exact Except.ok.inj (hvalidity.symm.trans hvalidity')
  have hsignature : s = s' := by
    rw [deviceMessage_eq hkey hpolicy hsame, hkey, hs'] at hs
    exact Option.some.inj hs.symm
  constructor
  · simp only [credentials, hkey]
  · simp only [credentials, hpolicy.form, deviceDer_eq hkey hpolicy hsame, hsignature]

/-- The same keys and the same policy for the alias give the same texts for the alias. -/
theorem alias_texts_eq (h : keys.issue id policy = .ok c) (h' : keys.issue id policy' = .ok c')
    (hpolicy : policy.AgreeOnAlias policy') :
    c.aliasCertificate = c'.aliasCertificate ∧ c.aliasKey = c'.aliasKey ∧
      c.devicePublicKey = c'.devicePublicKey ∧ c.firmware = c'.firmware := by
  obtain ⟨validity, s, _, hvalidity, hs, -, -, -, rfl⟩ := issue_eq_ok_iff.1 h
  obtain ⟨validity', s', _, hvalidity', hs', -, -, -, rfl⟩ := issue_eq_ok_iff.1 h'
  have hsame : validity = validity' := by
    rw [hpolicy.validity] at hvalidity
    exact Except.ok.inj (hvalidity.symm.trans hvalidity')
  have hbody : keys.aliasBody id policy validity = keys.aliasBody id policy' validity' := by
    rw [aliasBody, aliasBody, hpolicy.aliasProfile_eq, hsame]
  have hsignature : s = s' := by
    rw [hbody, hs'] at hs
    exact Option.some.inj hs.symm
  refine ⟨?_, rfl, rfl, rfl⟩
  simp only [credentials, hbody, hsignature]

end LayerKeys

/-- Two runs over one identifier. Where the policies agree on the device, its public key and its
certificate or request are the same texts, whatever the images, the registration ids and the alias
names are. Where the runs agree on all that the alias certificate is about, the form of the device's
document makes no difference to the texts of the alias. -/
theorem credentialsOf_separation {cdi : Cdi} {id id' : RegistrationId} {image image' : Bytes}
    {policy policy' : IssuePolicy} {c c' : Credentials}
    (h : credentialsOf cdi id image policy = .ok c)
    (h' : credentialsOf cdi id' image' policy' = .ok c') :
    (policy.AgreeOnDevice policy' →
      c.devicePublicKey = c'.devicePublicKey ∧ c.deviceCertificate = c'.deviceCertificate) ∧
    (image = image' → id = id' → policy.AgreeOnAlias policy' →
      c.aliasCertificate = c'.aliasCertificate ∧ c.aliasKey = c'.aliasKey ∧
        c.devicePublicKey = c'.devicePublicKey ∧ c.firmware = c'.firmware) := by
  obtain ⟨keys, hkeys, hissue⟩ := bind_eq_ok_iff.1 h
  obtain ⟨keys', hkeys', hissue'⟩ := bind_eq_ok_iff.1 h'
  constructor
  · intro hpolicy
    exact LayerKeys.device_texts_eq hissue hissue' (LayerKeys.device_eq_of_ofCdi hkeys hkeys') hpolicy
  · rintro rfl rfl hpolicy
    obtain rfl : keys = keys' := Except.ok.inj (hkeys.symm.trans hkeys')
    exact LayerKeys.alias_texts_eq hissue hissue' hpolicy

namespace LayerKeys

/-- The keys for the identifier of zeros and a firmware image of one byte. -/
def patchedKeys : LayerKeys where
  device := zeroCdiKeys.device
  aliasKey := ⟨47968431619950278972866806800717014240183243830954979505677998957432350997491,
    by decide, by decide⟩
  firmware := sha256 [0x01]

theorem ofCdi_patched : ofCdi .wiped [0x01] = .ok patchedKeys := by decide +kernel

def renewedId : RegistrationId := ⟨"b-2", by decide, by decide, by decide⟩

def renewedPolicy : IssuePolicy where
  aliasName := ⟨"", "ALIAS", "DE"⟩
  validity := ⟨86400, 1893456000⟩
  deviceCertificate := .request

def renewedValidity : Validity := ⟨⟨86400, by decide⟩, ⟨1893456000, by decide⟩⟩

theorem sign?_zeroCdiRequest :
    (Ecdsa.sign? zeroCdiKeys.device (zeroCdiKeys.requestInfo {}).encode).isSome :=
  Ecdsa.sign?_isSome_of_digest
    (Octets.ofNat 32 0x424cef86242d1c8fc2d3157ac5f2df2f014aad30e7fdd8f53cbdfab20e0482e8)
    (by decide +kernel) (by decide +kernel)

theorem credentialsOf_patched :
    ∃ c, credentialsOf .wiped renewedId [0x01] renewedPolicy = .ok c := by
  let body := patchedKeys.aliasBody renewedId renewedPolicy renewedValidity
  have hsign : (Ecdsa.sign? patchedKeys.device body.encode).isSome :=
    Ecdsa.sign?_isSome_of_digest
      (Octets.ofNat 32 0x4de1c1b19191c94ac1f4bb9ca46ed73319391e294f8eafb4d476a03f2aa1f82d)
      (by decide +kernel) (by decide +kernel)
  have hbody : body.encode.length ≤ 600 := by
    rw [show body = X509.aliasBody _ _ _ _ from rfl, length_encode_aliasBody]
    decide +kernel
  obtain ⟨s, hs⟩ := Option.isSome_iff_exists.1 hsign
  obtain ⟨t, ht⟩ := Option.isSome_iff_exists.1 sign?_zeroCdiRequest
  have hissue := issue_eq_ok_iff.2 ⟨renewedValidity, s, t,
    ValidityPeriod.toValidity_eq_ok_iff.2 ⟨rfl, rfl⟩, hs,
    (length_signed_le hbody s).trans (by decide), ht,
    length_deviceDer_le rfl renewedValidity t, rfl⟩
  exact ⟨_, bind_eq_ok_iff.2 ⟨patchedKeys, ofCdi_patched, hissue⟩⟩

theorem credentialsOf_zeroCdi (form : DeviceCertificateForm) :
    ∃ c, credentialsOf .wiped shortId [] { deviceCertificate := form } = .ok c := by
  have hmessages := List.forall_mem_cons.1 sign?_zeroCdiKeys
  have hsign : ∀ message ∈ zeroCdiKeys.messages shortId { deviceCertificate := form }
      ⟨⟨1483228800, by decide⟩, ⟨2114380800, by decide⟩⟩,
      (Ecdsa.sign? zeroCdiKeys.device message).isSome := by
    cases form with
    | selfSigned => exact sign?_zeroCdiKeys
    | request =>
      exact List.forall_mem_cons.2 ⟨hmessages.1, List.forall_mem_singleton.2 sign?_zeroCdiRequest⟩
  obtain ⟨c, hissue⟩ := issue_eq_ok_of_standardName rfl rfl
    (ValidityPeriod.toValidity_eq_ok_iff.2 ⟨rfl, rfl⟩) hsign
  exact ⟨c, bind_eq_ok_iff.2 ⟨zeroCdiKeys, ofCdi_zeroCdi, hissue⟩⟩

/-- Another image, registration id, alias name and validity leave the texts of the device as they
are, and the form of the device's document those of the alias. -/
theorem credentialsOf_separation_zeroCdi :
    ∃ c r p, credentialsOf .wiped shortId [] { deviceCertificate := .selfSigned } = .ok c ∧
      credentialsOf .wiped shortId [] { deviceCertificate := .request } = .ok r ∧
      credentialsOf .wiped renewedId [0x01] renewedPolicy = .ok p ∧
      r.devicePublicKey = p.devicePublicKey ∧ r.deviceCertificate = p.deviceCertificate ∧
      c.aliasCertificate = r.aliasCertificate ∧ c.aliasKey = r.aliasKey ∧
      c.devicePublicKey = r.devicePublicKey ∧ c.firmware = r.firmware := by
  obtain ⟨c, hc⟩ := credentialsOf_zeroCdi .selfSigned
  obtain ⟨r, hr⟩ := credentialsOf_zeroCdi .request
  obtain ⟨p, hp⟩ := credentialsOf_patched
  have hdevice : IssuePolicy.AgreeOnDevice { deviceCertificate := .request } renewedPolicy :=
    ⟨rfl, rfl, fun hform => nomatch hform⟩
  have halias : IssuePolicy.AgreeOnAlias { deviceCertificate := .selfSigned }
      { deviceCertificate := .request } := ⟨rfl, rfl, rfl, rfl⟩
  obtain ⟨hpublic, hdocument⟩ := (credentialsOf_separation hr hp).1 hdevice
  exact ⟨c, r, p, hc, hr, hp, hpublic, hdocument,
    (credentialsOf_separation hc hr).2 rfl rfl halias⟩

end LayerKeys

end MeasuredIdentity
