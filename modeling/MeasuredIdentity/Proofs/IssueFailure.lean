import MeasuredIdentity.Proofs.IssueCapacity

/-!
Issuing fails for two reasons only: a bound of the validity has no UTCTime, or one of the two signed
documents is larger than its buffer. Every other buffer has room for what a document that fits leaves
in it, and the texts have room for every document.
-/
namespace MeasuredIdentity

namespace Der

theorem eq_overlength_of_within {capacity : ℕ} {a : Bytes} {e : Error}
    (h : within capacity a = .error e) : e = overlength := by
  unfold within at h
  split at h
  · cases h
  · cases h
    rfl

/-- The first second without a UTCTime. -/
def UtcTime.limit : ℕ := 2524608000

/-- It begins the year 2050. -/
example : Calendar.ofDays (UtcTime.limit / 86400) = ⟨2050, 1, 1⟩ ∧ UtcTime.limit % 86400 = 0 := by
  decide +kernel

end Der

namespace X509

open Der

theorem instant_error {seconds : ℕ} {e : Error} (h : instant seconds = .error e) :
    ∃ cause, e = .invalidDer cause ∧ cause ≠ .overlength := by
  unfold instant at h
  split_ifs at h
  · cases h
    exact ⟨.dateTime, rfl, by decide⟩
  · cases h
    exact ⟨.utcTimeRange, rfl, by decide⟩

namespace ValidityPeriod

/-- Both bounds lie before 2050. -/
structure HasUtcTimes (p : ValidityPeriod) : Prop where
  notBefore : p.notBefore < UtcTime.limit
  notAfter : p.notAfter < UtcTime.limit

theorem hasUtcTimes_iff {p : ValidityPeriod} : p.HasUtcTimes ↔ ∃ v, p.toValidity = .ok v := by
  constructor
  · rintro ⟨hbefore, hafter⟩
    exact ⟨⟨⟨_, hbefore⟩, ⟨_, hafter⟩⟩, toValidity_eq_ok_iff.2 ⟨rfl, rfl⟩⟩
  · rintro ⟨v, hv⟩
    obtain ⟨hbefore, hafter⟩ := toValidity_eq_ok_iff.1 hv
    exact ⟨hbefore ▸ v.notBefore.lt_limit, hafter ▸ v.notAfter.lt_limit⟩

theorem toValidity_error {p : ValidityPeriod} {e : Error} (h : p.toValidity = .error e) :
    ∃ cause, e = .invalidDer cause ∧ cause ≠ .overlength := by
  simp only [toValidity, bind_eq_error_iff] at h
  obtain h | ⟨_, -, h | ⟨_, -, h⟩⟩ := h
  · exact instant_error h
  · exact instant_error h
  · cases h

end ValidityPeriod

/-- Where signing succeeds on a first part that fits, a signed document has no way to fail but its
size. -/
theorem eq_overlength_of_signed {σ : Type} {sign : Bytes → Except Error σ} {first : Bytes}
    {complete : σ → Bytes} {capacity : ℕ}
    (hsign : first.length ≤ maxTbsSize → ∃ s, sign first = .ok s) {e : Error}
    (h : (within maxTbsSize first >>= fun message =>
      sign message >>= fun s => within capacity (complete s)) = .error e) : e = overlength := by
  simp only [bind_eq_error_iff] at h
  obtain h | ⟨_, hfirst, h | ⟨_, -, h⟩⟩ := h
  · exact eq_overlength_of_within h
  · obtain ⟨rfl, hle, -⟩ := within_eq_ok hfirst
    obtain ⟨s, hs⟩ := hsign hle
    rw [hs] at h
    cases h
  · exact eq_overlength_of_within h

/-- What is made becomes a text under every label. -/
theorem eq_overlength_of_signDocument {sign : Signer} {first : Bytes}
    {complete : Ecdsa.Signature → Bytes} {label : String} (hlabel : label ∈ Pem.labels)
    (hsign : first.length ≤ maxTbsSize → ∃ s, sign first = .ok s) {e : Error}
    (h : (signDocument sign first complete maxTbsSize >>= Pem.encode label) = .error e) :
    e = overlength := by
  rcases bind_eq_error_iff.1 h with h | ⟨der, hder, h⟩
  · exact eq_overlength_of_signed hsign h
  · obtain ⟨-, _, -, -, hle, -⟩ := signDocument_eq_ok_iff.1 hder
    rw [Pem.encode_eq hlabel hle] at h
    cases h

theorem le_nameSize (common organization country : ℕ) :
    common ≤ nameSize common organization country := by
  unfold nameSize relativeNameSize elementSize
  omega

end X509

open X509 Der

namespace LayerKeys

variable {keys : LayerKeys} {id : RegistrationId} {policy : IssuePolicy}

/-- Signing succeeds whenever issuing asks for it. No message is signed that does not fit into its
buffer. -/
def SignsMessages (keys : LayerKeys) (id : RegistrationId) (policy : IssuePolicy) : Prop :=
  ∀ validity, policy.validity.toValidity = .ok validity →
    ∀ message ∈ keys.messages id policy validity, message.length ≤ maxTbsSize →
      (Ecdsa.sign? keys.device message).isSome

/-- The complete encodings of the alias certificate and of the device's document, each with its
signature. -/
def DocumentsAre (keys : LayerKeys) (id : RegistrationId) (policy : IssuePolicy)
    (aliasDer deviceDer : Bytes) : Prop :=
  ∃ validity aliasSignature deviceSignature, policy.validity.toValidity = .ok validity ∧
    Ecdsa.sign? keys.device (keys.aliasBody id policy validity).encode = some aliasSignature ∧
    Ecdsa.sign? keys.device (keys.deviceMessage policy validity) = some deviceSignature ∧
    aliasDer = (Certificate.signed (keys.aliasBody id policy validity) aliasSignature).encode ∧
    deviceDer = keys.deviceDer policy validity deviceSignature

theorem issue_isOk_iff : (∃ c, keys.issue id policy = .ok c) ↔ ∃ aliasDer deviceDer,
    keys.DocumentsAre id policy aliasDer deviceDer ∧ aliasDer.length ≤ maxTbsSize ∧
      deviceDer.length ≤ maxTbsSize := by
  simp only [issue_eq_ok_iff]
  constructor
  · rintro ⟨_, validity, s, t, hvalidity, hs, hle, ht, hle', -⟩
    exact ⟨_, _, ⟨validity, s, t, hvalidity, hs, ht, rfl, rfl⟩, hle, hle'⟩
  · rintro ⟨_, _, ⟨validity, s, t, hvalidity, hs, ht, rfl, rfl⟩, hle, hle'⟩
    exact ⟨_, validity, s, t, hvalidity, hs, hle, ht, hle', rfl⟩

theorem DocumentsAre.hasUtcTimes {aliasDer deviceDer : Bytes}
    (h : keys.DocumentsAre id policy aliasDer deviceDer) : policy.validity.HasUtcTimes := by
  obtain ⟨validity, _, _, hvalidity, -⟩ := h
  exact ValidityPeriod.hasUtcTimes_iff.2 ⟨validity, hvalidity⟩

theorem issue_error (hsign : keys.SignsMessages id policy) {e : Error}
    (h : keys.issue id policy = .error e) :
    ∃ cause, e = .invalidDer cause ∧ (cause = .overlength ↔ policy.validity.HasUtcTimes) := by
  rw [issue_eq] at h
  obtain h | ⟨validity, hvalidity, h⟩ := bind_eq_error_iff.1 h
  · have hnone : ¬ policy.validity.HasUtcTimes := by
      rw [ValidityPeriod.hasUtcTimes_iff, h]
      rintro ⟨_, hok⟩
      cases hok
    obtain ⟨cause, rfl, hcause⟩ := ValidityPeriod.toValidity_error h
    exact ⟨cause, rfl, iff_of_false hcause hnone⟩
  · have hsome : policy.validity.HasUtcTimes :=
      ValidityPeriod.hasUtcTimes_iff.2 ⟨validity, hvalidity⟩
    have hsigner : ∀ message ∈ keys.messages id policy validity, message.length ≤ maxTbsSize →
        ∃ s, signerOf keys.device message = .ok s := by
      intro message hmem hle
      obtain ⟨s, hs⟩ := Option.isSome_iff_exists.1 (hsign validity hvalidity message hmem hle)
      exact ⟨s, signerOf_eq_ok_iff.2 hs⟩
    -- The validity is fine, so it is one of the documents that fails.
    refine ⟨.overlength, ?_, iff_of_true rfl hsome⟩
    obtain h | ⟨_, -, h⟩ := bind_eq_error_iff.1 h
    · rw [aliasDocument_eq] at h
      exact eq_overlength_of_signDocument (by decide) (hsigner _ List.mem_cons_self) h
    obtain h | ⟨_, -, h⟩ := bind_eq_error_iff.1 h
    · rw [deviceDocument_eq] at h
      exact eq_overlength_of_signDocument (DeviceCertificateForm.label_mem _)
        (hsigner _ (List.mem_cons_of_mem _ List.mem_cons_self)) h
    · cases h

/-- If signing succeeds, issuing succeeds exactly for a validity before 2050 and complete documents
that fit into their buffers. What it fails with otherwise is an error of the encoding: about the
size, where the validity is not to blame. -/
theorem issue_isOk_iff_fits (hsign : keys.SignsMessages id policy) :
    ((∃ c, keys.issue id policy = .ok c) ↔
      policy.validity.HasUtcTimes ∧ ∃ aliasDer deviceDer,
        keys.DocumentsAre id policy aliasDer deviceDer ∧
        aliasDer.length ≤ maxTbsSize ∧ deviceDer.length ≤ maxTbsSize) ∧
    ∀ e, keys.issue id policy = .error e →
      ∃ cause, e = .invalidDer cause ∧ (cause = .overlength ↔ policy.validity.HasUtcTimes) := by
  constructor
  · rw [issue_isOk_iff]
    constructor
    · rintro ⟨aliasDer, deviceDer, hdocuments, hle⟩
      exact ⟨hdocuments.hasUtcTimes, aliasDer, deviceDer, hdocuments, hle⟩
    · rintro ⟨-, hdocuments⟩
      exact hdocuments
  · intro e he
    exact issue_error hsign he

/-- Under the standard names the keys for an identifier of zeros sign both messages. -/
theorem signsMessages_zeroCdiKeys : zeroCdiKeys.SignsMessages shortId {} := by
  intro validity hvalidity message hmem _
  have hstandard : ValidityPeriod.standard.toValidity =
      .ok ⟨⟨1483228800, by decide⟩, ⟨2114380800, by decide⟩⟩ :=
    ValidityPeriod.toValidity_eq_ok_iff.2 ⟨rfl, rfl⟩
  cases hstandard.symm.trans hvalidity
  exact sign?_zeroCdiKeys message hmem

/-- A common name of the device that is larger than a buffer is in both messages. -/
theorem lt_length_of_mem_messages
    (hlong : maxTbsSize < (Text.Utf8.encode policy.deviceName.common).length) {validity : Validity}
    {message : Bytes} (h : message ∈ keys.messages id policy validity) :
    maxTbsSize < message.length := by
  have hname : maxTbsSize < (Name.encode policy.deviceName.toName).length := by
    rw [NameParts.length_encode_toName]
    exact hlong.trans_le (le_nameSize _ _ _)
  simp only [messages, List.mem_cons, List.not_mem_nil, or_false] at h
  rcases h with rfl | rfl
  · rw [aliasBody, length_encode_aliasBody, elementSize]
    dsimp only [IssuePolicy.aliasProfile]
    omega
  · unfold deviceMessage
    cases policy.deviceCertificate with
    | selfSigned =>
      dsimp only
      rw [deviceBody, length_encode_deviceBody, elementSize]
      dsimp only [IssuePolicy.deviceProfile]
      omega
    | request =>
      dsimp only
      rw [requestInfo, RequestInfo.length_encode_ofKey, elementSize]
      omega

theorem length_encode_replicate (n : ℕ) :
    (Text.Utf8.encode (String.ofList (List.replicate n 'a'))).length = n := by
  rw [Text.Utf8.length_encode, String.toList_ofList, List.length_replicate]
  intro c hc
  rw [String.toList_ofList] at hc
  rw [List.eq_of_mem_replicate hc]
  decide

def longName : String := String.ofList (List.replicate 1100 'a')

/-- The standard policy for a device with a long name. -/
def longNamed : IssuePolicy where
  deviceName := { standardName with common := longName }

theorem lt_length_longName : maxTbsSize < (Text.Utf8.encode longNamed.deviceName.common).length :=
  (show maxTbsSize < 1100 by decide).trans_eq (length_encode_replicate 1100).symm

/-- Under a long name there is nothing to sign. -/
theorem signsMessages_longNamed : zeroCdiKeys.SignsMessages shortId longNamed := by
  intro validity _ message hmem hle
  exact absurd hle (lt_length_of_mem_messages lt_length_longName hmem).not_ge

/-- Under the standard names both documents fit; under a long name neither does. -/
theorem issue_isOk_iff_fits_zeroCdi :
    (∃ aliasDer deviceDer, zeroCdiKeys.DocumentsAre shortId {} aliasDer deviceDer ∧
      aliasDer.length ≤ maxTbsSize ∧ deviceDer.length ≤ maxTbsSize) ∧
    zeroCdiKeys.issue shortId longNamed = .error (.invalidDer .overlength) := by
  constructor
  · have hissued : ∃ c, zeroCdiKeys.issue shortId {} = .ok c :=
      issue_eq_ok_of_standardName rfl rfl (ValidityPeriod.toValidity_eq_ok_iff.2 ⟨rfl, rfl⟩)
        sign?_zeroCdiKeys
    exact ((issue_isOk_iff_fits signsMessages_zeroCdiKeys).1.1 hissued).2
  · obtain ⟨hiff, herror⟩ := issue_isOk_iff_fits signsMessages_longNamed
    rcases hissue : zeroCdiKeys.issue shortId longNamed with e | c
    · obtain ⟨cause, rfl, hcause⟩ := herror e hissue
      rw [hcause.2 ⟨by decide, by decide⟩]
    · obtain ⟨-, _, _, ⟨validity, s, _, -, -, -, rfl, -⟩, hle, -⟩ := hiff.1 ⟨c, hissue⟩
      have hfirst : (zeroCdiKeys.aliasBody shortId longNamed validity).encode.length ≤ maxTbsSize :=
        (Certificate.signed (zeroCdiKeys.aliasBody shortId longNamed validity) s).length_tbs_le.trans
          hle
      have hlong : maxTbsSize < (zeroCdiKeys.aliasBody shortId longNamed validity).encode.length :=
        lt_length_of_mem_messages lt_length_longName List.mem_cons_self
      exact absurd hfirst hlong.not_ge

end LayerKeys

end MeasuredIdentity
