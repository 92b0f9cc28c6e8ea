import MeasuredIdentity.Credentials
import MeasuredIdentity.Proofs.IdGrammar
import MeasuredIdentity.Proofs.PrimitiveCodec
import MeasuredIdentity.Proofs.SignatureCodec
import MeasuredIdentity.Proofs.UtcTimeCodec

/-!
Sizes of encodings. The size of an element depends on the size of its content alone and grows with
it, so the sizes of nested structures are computed, and bounds on their parts carry over.
-/
namespace MeasuredIdentity

namespace RegistrationId

theorem length_encode_le (id : RegistrationId) : (Text.Utf8.encode id.text).length ≤ 128 := by
  have hascii : ∀ c ∈ id.text.toList, c.utf8Size = 1 := fun c hc =>
    utf8Size_of_isIdChar (List.all_eq_true.1 id.all_chars c hc)
  rw [Text.Utf8.length_encode hascii]
  exact id.length_le

end RegistrationId

namespace Der

/-- The size of an element with content of this size. -/
def elementSize (n : ℕ) : ℕ := 2 + lengthWidth n + n

theorem length_element_eq (tag : Tag) (c : Bytes) : (element tag c).length = elementSize c.length :=
  length_element tag c

theorem elementSize_mono : Monotone elementSize := by
  intro m n h
  unfold elementSize lengthWidth
  split_ifs <;> omega

/-- More content makes an element longer by at least as much. -/
theorem elementSize_add_le (m k : ℕ) : elementSize m + k ≤ elementSize (m + k) := by
  unfold elementSize lengthWidth
  split_ifs <;> omega

/-- A content below 128 bytes has a header of two bytes. -/
theorem element_eq_of_length {tag : Tag} {c : Bytes} {n : ℕ} (hlength : c.length = n) (h : n < 0x80) :
    element tag c = [tag.octet, UInt8.ofNat n] ++ c := by
  simp [element, Element.encode, encodeLength, hlength, h]

theorem Element.length_encode_eq (e : Element) : e.encode.length = elementSize e.content.length :=
  e.length_encode

theorem Oid.length_encode (o : Oid) : o.encode.length = elementSize o.content.length :=
  length_element _ _

theorem Oid.length_content_le (o : Oid) : o.content.length ≤ 39 := by
  obtain ⟨content, hvalid⟩ := o
  cases content with
  | nil => simp
  | cons root arcs =>
    simp only [isContent, Bool.and_eq_true, decide_eq_true_eq] at hvalid
    simp only [List.length_cons]
    omega

theorem OctetString.length_encode (b : Bytes) : (encode b).length = elementSize b.length :=
  length_element _ b

theorem BitString.length_encode (s : BitString) :
    s.encode.length = elementSize (s.bytes.length + 1) := length_element _ _

theorem BitString.length_encode_ofBytes (b : Bytes) :
    (ofBytes b).encode.length = elementSize (b.length + 1) := (ofBytes b).length_encode

theorem UtcTime.length_encode (t : UtcTime) : t.encode.length = 15 := by
  rw [UtcTime.encode, length_element_eq, UtcTime.length_content]
  rfl

end Der

namespace X509

open Der

theorem Validity.length_encode (v : Validity) : v.encode.length = 32 := by
  rw [Validity.encode, length_element_eq, List.length_append, UtcTime.length_encode,
    UtcTime.length_encode]
  rfl

theorem AlgorithmId.length_encode_ecdsaSha256 : AlgorithmId.ecdsaSha256.encode.length = 12 := by
  decide

/-- The size of a relative name with a text of this size. -/
def relativeNameSize (n : ℕ) : ℕ := elementSize (elementSize (5 + elementSize n))

/-- The size of the name made of three texts. -/
def nameSize (common organization country : ℕ) : ℕ :=
  elementSize (relativeNameSize common + relativeNameSize organization + relativeNameSize country)

theorem nameSize_mono {common common' organization organization' country country' : ℕ}
    (h₁ : common ≤ common') (h₂ : organization ≤ organization') (h₃ : country ≤ country') :
    nameSize common organization country ≤ nameSize common' organization' country' := by
  have hmono : Monotone relativeNameSize := by
    intro m n h
    exact elementSize_mono (elementSize_mono (Nat.add_le_add_left (elementSize_mono h) 5))
  exact elementSize_mono (Nat.add_le_add (Nat.add_le_add (hmono h₁) (hmono h₂)) (hmono h₃))

theorem NameParts.length_encode_toName (parts : NameParts) : (Name.encode parts.toName).length =
    nameSize (Text.Utf8.encode parts.common).length (Text.Utf8.encode parts.organization).length
      (Text.Utf8.encode parts.country).length := by
  simp only [Name.encode, RelativeName.encode, Attribute.encode, NameParts.toName, length_element_eq,
    List.flatMap_cons, List.flatMap_nil, List.append_nil, List.length_append,
    Element.length_encode_eq, Oid.length_encode, nameSize, Nat.add_assoc]
  rfl

theorem PublicKeyInfo.length_encode_ofKey (key : P256.PublicKey) :
    (PublicKeyInfo.ofKey key).encode.length = 91 := by
  have halgorithm : AlgorithmId.p256.encode.length = 21 := by decide
  rw [PublicKeyInfo.encode, length_element_eq, List.length_append, ofKey,
    BitString.length_encode_ofBytes, Octets.length_toList, halgorithm]
  rfl

theorem EcPrivateKey.length_encode_ofKey (key : P256.PrivateKey) :
    (EcPrivateKey.ofKey key).encode.length = 121 := by
  have hversion : (SmallUint.encode 1).length = 3 := by decide
  simp only [EcPrivateKey.encode, ofKey, length_element_eq, List.length_append,
    OctetString.length_encode, Octets.length_toList, Option.map_some, Option.getD_some,
    BitString.length_encode_ofBytes, Oid.length_encode, hversion]
  rfl

theorem CompositeDeviceId.length_encode_ofKey (device : P256.PublicKey) (firmware : Digest) :
    (CompositeDeviceId.ofKey device firmware).encode.length = 144 := by
  have hversion : (SmallUint.encode 1).length = 3 := by decide
  simp only [CompositeDeviceId.encode, FirmwareId.encode, ofKey, length_element_eq,
    List.length_append, PublicKeyInfo.length_encode_ofKey, OctetString.length_encode,
    Octets.length_toList, Oid.length_encode, hversion]
  rfl

theorem SubjectAltName.length_encode (n : SubjectAltName) : n.encode.length =
    elementSize (elementSize (elementSize n.otherName.typeId.content.length
      + elementSize n.otherName.value.encode.length)) := by
  simp only [SubjectAltName.encode, OtherName.content, length_element_eq, List.length_append,
    Oid.length_encode]

theorem AuthorityKeyId.length_encode_some (k : Bytes) :
    (AuthorityKeyId.encode ⟨some k⟩).length = elementSize (elementSize k.length) := by
  simp only [AuthorityKeyId.encode, Option.map_some, Option.getD_some, length_element_eq]

theorem Extension.length_encode (e : Extension) : e.encode.length =
    elementSize (elementSize e.oid.content.length + (if e.critical then 3 else 0)
      + elementSize e.value.length) := by
  simp only [Extension.encode, length_element_eq, List.length_append, Boolean.length_encodeDefault,
    OctetString.length_encode, Oid.length_encode]

theorem Extensions.length_encode (es : Extensions) :
    (Extensions.encode es).length = elementSize (es.toList.map fun e => e.encode.length).sum := by
  rw [Extensions.encode, length_element_eq, List.length_flatMap]

theorem IsIntegerPair.length_le {b : Bytes} {u v : Uint} (h : IsIntegerPair b u v) :
    b.length ≤ 72 := by
  obtain ⟨⟨-, hu⟩, ⟨-, hv⟩, rfl⟩ := h
  rw [length_element_eq, List.length_append]
  exact elementSize_mono (Nat.add_le_add (length_encode_uint_le hu) (length_encode_uint_le hv))

theorem length_encodeSignature_le (s : Ecdsa.Signature) : (encodeSignature s).length ≤ 72 :=
  (isIntegerPair_encodeSignature s).length_le

/-- The algorithm and the signature add at most 87 bytes to what is signed. -/
theorem length_signedBits_le {first : Bytes} {n : ℕ} (h : first.length ≤ n) {signature : BitString}
    (hsignature : signature.bytes.length ≤ 72) :
    (element .sequence (first ++ AlgorithmId.ecdsaSha256.encode ++ signature.encode)).length ≤
      elementSize (n + 87) := by
  have hbits : signature.encode.length ≤ 75 := by
    rw [BitString.length_encode]
    exact elementSize_mono (Nat.succ_le_succ hsignature)
  rw [length_element_eq, List.length_append, List.length_append,
    AlgorithmId.length_encode_ecdsaSha256]
  exact elementSize_mono (by omega)

theorem length_signed_le {first : Bytes} {n : ℕ} (h : first.length ≤ n) (s : Ecdsa.Signature) :
    (element .sequence (first ++ AlgorithmId.ecdsaSha256.encode
      ++ (BitString.ofBytes (encodeSignature s)).encode)).length ≤ elementSize (n + 87) :=
  length_signedBits_le h (length_encodeSignature_le s)

/-- A version 3 body has its fixed fields, a serial number, two names and the extensions. -/
theorem Certificate.length_encode_body (serial : Bytes) (issuer subject : Name) (validity : Validity)
    (key : P256.PublicKey) (es : Extensions) :
    (Certificate.body serial issuer subject validity (.ofKey key) es).encode.length =
      elementSize (140 + (Uint.ofBytes serial).encode.length + (Name.encode issuer).length
        + (Name.encode subject).length + elementSize (Extensions.encode es).length) := by
  have hversion : Version.v3.encodeDefault.length = 5 := by decide
  simp only [Certificate.body, TbsCertificate.encode, length_element_eq, List.length_append,
    Option.map_none, Option.map_some, Option.getD_none, Option.getD_some, List.length_nil,
    AlgorithmId.length_encode_ecdsaSha256, Validity.length_encode,
    PublicKeyInfo.length_encode_ofKey, hversion]
  exact congrArg elementSize (by omega)

theorem le_maxLength {n : ℕ} (h : n ≤ maxTbsSize) : n ≤ maxLength := h.trans (by decide)

end X509

end MeasuredIdentity
