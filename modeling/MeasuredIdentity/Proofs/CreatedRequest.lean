import MeasuredIdentity.Proofs.CredentialChain
import MeasuredIdentity.Proofs.RequestVerification
import MeasuredIdentity.Proofs.SignatureScheme
import MeasuredIdentity.Proofs.StableIdentity

/-!
A request that is made is one that is accepted. Making it fails for want of space only, and what is
made is read as a request of the key for itself, whose signature is verified over the bytes received.
-/
namespace MeasuredIdentity.X509

open Der Decoder

namespace Request

/-- The bytes are read as this request, in which a key asks for a certificate in a name: version 1,
the key in uncompressed form, no attributes, and the key's signature over the bytes of all this. -/
structure IsOwn (key : P256.PrivateKey) (subject : NameParts) (b : Bytes) (r : Request) : Prop where
  decoded : decode.whole b = some r
  version : ∃ rest, r.info.encode = element .sequence (SmallUint.encode 0 ++ rest)
  subject_eq : r.info.subject = subject.toName
  algorithm_eq : r.info.publicKey.algorithm = .p256
  key_uncompressed : key.publicKey.IsUncompressed r.info.publicKey.key.bytes
  no_attributes : r.info.attributes.toList = []
  signature : ∃ info, firstMember? b = some info ∧ r.info.encode = info ∧
    IsSignature key info r.signature

theorem encode_ofKey (key : P256.PublicKey) (subject : NameParts) :
    (RequestInfo.ofKey key subject).encode = element .sequence (SmallUint.encode 0 ++
      (Name.encode subject.toName ++ (PublicKeyInfo.ofKey key).encode
        ++ element (.context .zero true) [])) := by
  simp only [RequestInfo.encode, RequestInfo.ofKey, List.append_assoc]
  rfl

/-- A first part that fits leaves the whole request within what can be encoded. -/
theorem length_signed_le_maxLength {info : RequestInfo} (h : info.encode.length ≤ maxTbsSize)
    (s : Ecdsa.Signature) : (signed info s).encode.length ≤ maxLength :=
  (length_signed_le h s).trans (by decide)

variable {key : P256.PrivateKey} {subject : NameParts} {s : Ecdsa.Signature}

theorem isOwn_signed (hsign : Ecdsa.sign? key (RequestInfo.ofKey key.publicKey subject).encode = some s)
    (hlength : (signed (.ofKey key.publicKey subject) s).encode.length ≤ maxLength) :
    (signed (.ofKey key.publicKey subject) s).IsOwn key subject
      (signed (.ofKey key.publicKey subject) s).encode where
  decoded := readsBackIf.decode_self rfl hlength
  version := ⟨_, encode_ofKey _ _⟩
  subject_eq := rfl
  algorithm_eq := rfl
  key_uncompressed := key.isUncompressed_publicKey
  no_attributes := rfl
  signature := by
    have hcontent := length_le_of_element hlength
    rw [List.append_assoc] at hcontent
    exact ⟨_, firstMember?_encode hcontent, rfl, isSignature_of_sign? hsign⟩

theorem verify_signed (hsign : Ecdsa.sign? key (RequestInfo.ofKey key.publicKey subject).encode = some s)
    (hlength : (RequestInfo.ofKey key.publicKey subject).encode.length ≤ maxTbsSize) :
    (signed (.ofKey key.publicKey subject) s).verify = .ok () :=
  (verify_eq_ok_iff _).2 ⟨rfl, hlength, key.publicKey, s, Or.inl key.isUncompressed_publicKey, rfl,
    Ecdsa.verifies_of_sign? hsign⟩

/-- Where the key signs, what is made is the request with that signature, if there is room for it. -/
theorem create_eq_ok_iff
    (hsign : Ecdsa.sign? key (RequestInfo.ofKey key.publicKey subject).encode = some s)
    {capacity : ℕ} {b : Bytes} : create key subject capacity = .ok b ↔
      (RequestInfo.ofKey key.publicKey subject).encode.length ≤ maxTbsSize ∧
        (signed (.ofKey key.publicKey subject) s).encode = b ∧ b.length ≤ capacity := by
  rw [create_eq, signDocument_eq_ok_iff]
  constructor
  · rintro ⟨hinfo, s', hs', rfl, hle, -⟩
    obtain rfl := Option.some.inj (hsign.symm.trans (signerOf_eq_ok_iff.1 hs'))
    exact ⟨hinfo, rfl, hle⟩
  · rintro ⟨hinfo, rfl, hle⟩
    exact ⟨hinfo, s, signerOf_eq_ok_iff.2 hsign, rfl, hle, length_signed_le_maxLength hinfo s⟩

/-- Where the key signs, making a request succeeds exactly if its first part and the whole fit into
their buffers. What is made is read as a request of the key for itself and verified. -/
theorem create_accepted
    (hsign : Ecdsa.sign? key (RequestInfo.ofKey key.publicKey subject).encode = some s) (capacity : ℕ) :
    ((∃ b, create key subject capacity = .ok b) ↔
      (RequestInfo.ofKey key.publicKey subject).encode.length ≤ maxTbsSize ∧
        (signed (.ofKey key.publicKey subject) s).encode.length ≤ capacity) ∧
    ∀ b, create key subject capacity = .ok b →
      ∃ r : Request, r.IsOwn key subject b ∧ r.verify = .ok () := by
  constructor
  · constructor
    · rintro ⟨b, hb⟩
      obtain ⟨hinfo, rfl, hle⟩ := (create_eq_ok_iff hsign).1 hb
      exact ⟨hinfo, hle⟩
    · rintro ⟨hinfo, hle⟩
      exact ⟨_, (create_eq_ok_iff hsign).2 ⟨hinfo, rfl, hle⟩⟩
  · intro b hb
    obtain ⟨hinfo, rfl, -⟩ := (create_eq_ok_iff hsign).1 hb
    exact ⟨_, isOwn_signed hsign (length_signed_le_maxLength hinfo s), verify_signed hsign hinfo⟩

theorem create_accepted_zeroCdiKeys :
    ∃ b, create LayerKeys.zeroCdiKeys.device standardName maxTbsSize = .ok b ∧
      ∃ r : Request, r.IsOwn LayerKeys.zeroCdiKeys.device standardName b ∧ r.verify = .ok () := by
  obtain ⟨s, hs⟩ := Option.isSome_iff_exists.1 LayerKeys.sign?_zeroCdiRequest
  obtain ⟨hfits, haccepted⟩ := create_accepted hs maxTbsSize
  have hinfo : (RequestInfo.ofKey LayerKeys.zeroCdiKeys.device.publicKey standardName
      ).encode.length ≤ 200 := by
    rw [RequestInfo.length_encode_ofKey, length_encode_standardName]
    decide
  obtain ⟨b, hb⟩ := hfits.2 ⟨hinfo.trans (by decide), (length_signed_le hinfo s).trans (by decide)⟩
  exact ⟨b, hb, haccepted b hb⟩

end Request

end MeasuredIdentity.X509
