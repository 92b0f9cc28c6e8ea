import MeasuredIdentity.Proofs.EncodingSize
import MeasuredIdentity.Proofs.FieldCodec

/-!
What is signed when a device issues. Identifiers, serial numbers and extensions never fail to be
made, so the parts to be signed are functions of the keys, the names and the validity. What can
fail is the size of a document, and its signature.
-/
namespace MeasuredIdentity

namespace KeyDerivation

open P256

/-- The output of an expansion of admissible length. -/
def expansion (salt keyMaterial info : Bytes) {length : ℕ} (h : length ≤ Hkdf.maxLength) :
    Octets length :=
  (Hkdf.derive salt keyMaterial info length).get ((Hkdf.expand_isSome_iff _ _ _).2 h)

theorem expand_eq (salt keyMaterial info : Bytes) {length : ℕ} (h : length ≤ Hkdf.maxLength) :
    expand salt keyMaterial info length = .ok (expansion salt keyMaterial info h) := by
  obtain ⟨o, ho⟩ := Option.isSome_iff_exists.1
    ((Hkdf.expand_isSome_iff (Hkdf.extract salt keyMaterial).toList info length).2 h)
  have hderive : Hkdf.derive salt keyMaterial info length = some o := ho
  simp only [expand, expansion, hderive, Option.get_some]

/-- The identifier of a key. -/
def identifierOf (key : PublicKey) : Octets keyIdSize :=
  expansion identifierSalt key.toOctets.toList keyIdInfo (by decide)

theorem keyId_eq (key : PublicKey) : keyId key = .ok (identifierOf key) := expand_eq _ _ _ _

theorem serial_length_le : 8 ≤ Hkdf.maxLength := by decide

/-- The serial number that belongs to a key. -/
def serialOf (key : PublicKey) : Octets 8 :=
  ⟨positive (expansion identifierSalt key.toOctets.toList serialInfo serial_length_le).toList,
    by simp⟩

theorem serialNumber_eq (key : PublicKey) : serialNumber key = .ok (serialOf key) := by
  rw [serialNumber, expand_eq _ _ _ serial_length_le]
  rfl

theorem positive_byte : ∀ x : UInt8, (x &&& 0x7f) ||| 0x01 ≠ 0 ∧ (x &&& 0x7f) ||| 0x01 < 0x80 := by
  decide +kernel

/-- A serial number begins with a byte that is neither zero nor a sign byte. -/
theorem serialOf_eq_cons (key : PublicKey) :
    ∃ x rest, (serialOf key).toList = x :: rest ∧ rest.length = 7 ∧ x ≠ 0 ∧ x < 0x80 := by
  have hlength := (expansion identifierSalt key.toOctets.toList serialInfo
    serial_length_le).length_toList
  obtain ⟨x, rest, heq⟩ := List.exists_cons_of_length_eq_add_one hlength
  rw [heq, List.length_cons] at hlength
  refine ⟨(x &&& 0x7f) ||| 0x01, rest, ?_, by omega, positive_byte x⟩
  exact congrArg positive heq

theorem magnitude_serialOf (key : PublicKey) :
    (Der.Uint.ofBytes (serialOf key).toList).magnitude = (serialOf key).toList := by
  obtain ⟨x, rest, heq, -, hne, -⟩ := serialOf_eq_cons key
  rw [Der.Uint.ofBytes, heq]
  apply Der.Uint.strip_eq_self
  intro y tail hcons
  exact hne (List.cons.inj hcons).1

theorem magnitude_serialOf_ne_nil (key : PublicKey) :
    (Der.Uint.ofBytes (serialOf key).toList).magnitude ≠ [] := by
  obtain ⟨x, rest, heq, -⟩ := serialOf_eq_cons key
  rw [magnitude_serialOf, heq]
  exact List.cons_ne_nil x rest

theorem content_serialOf (key : PublicKey) :
    (Der.Uint.ofBytes (serialOf key).toList).content = (serialOf key).toList := by
  obtain ⟨x, rest, heq, -, -, hlt⟩ := serialOf_eq_cons key
  rw [Der.Uint.content, magnitude_serialOf, heq]
  exact if_pos hlt

end KeyDerivation

namespace Der

theorem within_eq_ok_iff {capacity : ℕ} {a b : Bytes} :
    within capacity a = .ok b ↔ a = b ∧ b.length ≤ capacity ∧ b.length ≤ maxLength := by
  constructor
  · intro h
    obtain ⟨rfl, hle, hmax⟩ := within_eq_ok h
    exact ⟨rfl, hle, hmax⟩
  · rintro ⟨rfl, hle, hmax⟩
    exact within_of_le hle hmax

end Der

namespace X509

open Der KeyDerivation

/-- A composite device identity is one element. -/
def CompositeDeviceId.toElement (c : CompositeDeviceId) : Element :=
  ⟨.sequence, SmallUint.encode c.version ++ c.device.encode ++ c.firmware.encode⟩

theorem CompositeDeviceId.encode_toElement (c : CompositeDeviceId) : c.toElement.encode = c.encode :=
  rfl

/-- The name that carries the composite device identity. -/
def compositeNameOf (device : P256.PublicKey) (firmware : Digest) : SubjectAltName :=
  ⟨⟨OtherName.compositeDeviceOid, (CompositeDeviceId.ofKey device firmware).toElement⟩⟩

theorem length_encode_compositeNameOf (device : P256.PublicKey) (firmware : Digest) :
    (compositeNameOf device firmware).encode.length = 165 := by
  rw [SubjectAltName.length_encode, compositeNameOf, CompositeDeviceId.encode_toElement,
    CompositeDeviceId.length_encode_ofKey]
  simp [elementSize, lengthWidth, OtherName.compositeDeviceOid]

theorem compositeName_eq (device : P256.PublicKey) (firmware : Digest) :
    compositeName device firmware = .ok (compositeNameOf device firmware) := by
  have hlength := CompositeDeviceId.length_encode_ofKey device firmware
  have hmax : (CompositeDeviceId.ofKey device firmware).encode.length ≤ maxLength := by
    rw [hlength]
    decide
  have hread : Element.decode.whole (CompositeDeviceId.ofKey device firmware).encode =
      some (CompositeDeviceId.ofKey device firmware).toElement :=
    Element.readsBack.decode_whole hmax
  unfold compositeName
  rw [within_of_le (show _ ≤ CompositeDeviceId.p256Size from hlength.le) hmax]
  simp only [Except.bind, bind, OtherName.ofEncoded?, if_pos hmax, hread]
  rfl

namespace Extension

theorem make_eq {oid : Oid} {critical : Bool} {capacity : ℕ} {value : Bytes}
    (h : value.length ≤ capacity) (hcapacity : capacity ≤ maxLength) :
    make oid critical capacity value = .ok ⟨oid, critical, value⟩ := by
  rw [make, within_of_le h (h.trans hcapacity)]
  rfl

end Extension

/-- Key usage, extended key usage, the identifier of the device key, and its composite identity. -/
def aliasExtensionsOf (device : P256.PublicKey) (firmware : Digest) : Extensions :=
  ⟨[⟨Extension.keyUsageOid, true, KeyUsage.digitalSignature.encode⟩,
    ⟨Extension.extendedKeyUsageOid, true,
      ExtendedKeyUsage.encode (Bounded.cons ExtendedKeyUsage.clientAuth Bounded.empty)⟩,
    ⟨Extension.authorityKeyIdOid, false,
      AuthorityKeyId.encode ⟨some (identifierOf device).toList⟩⟩,
    ⟨Extension.subjectAltNameOid, true, (compositeNameOf device firmware).encode⟩],
    (by decide : 4 ≤ 5)⟩

theorem aliasExtensions_eq (device : P256.PublicKey) (firmware : Digest) :
    aliasExtensions device firmware = .ok (aliasExtensionsOf device firmware) := by
  have hauthority : (AuthorityKeyId.encode ⟨some (identifierOf device).toList⟩).length ≤
      authorityKeyIdSize := by
    rw [AuthorityKeyId.length_encode_some, Octets.length_toList]
    decide
  have hname : (compositeNameOf device firmware).encode.length ≤ subjectAltNameSize := by
    rw [length_encode_compositeNameOf]
    decide
  unfold aliasExtensions
  rw [keyId_eq, compositeName_eq, Extension.make_eq (by decide) (by decide)]
  simp only [Except.bind, bind, Extension.make_eq hauthority (by decide),
    Extension.make_eq hname (by decide),
    Extension.make_eq (show (ExtendedKeyUsage.encode (Bounded.cons ExtendedKeyUsage.clientAuth
      Bounded.empty)).length ≤ extendedKeyUsageSize by decide) (by decide)]
  rfl

/-- Basic constraints, key usage, and the identifier of the key as subject and as authority. -/
def deviceExtensionsOf (device : P256.PublicKey) : Extensions :=
  ⟨[⟨Extension.basicConstraintsOid, true, BasicConstraints.encode ⟨true, some 1⟩⟩,
    ⟨Extension.keyUsageOid, true, KeyUsage.keyCertSign.encode⟩,
    ⟨Extension.subjectKeyIdOid, false, SubjectKeyId.encode (identifierOf device).toList⟩,
    ⟨Extension.authorityKeyIdOid, false,
      AuthorityKeyId.encode ⟨some (identifierOf device).toList⟩⟩],
    (by decide : 4 ≤ 5)⟩

theorem deviceExtensions_eq (device : P256.PublicKey) :
    deviceExtensions device = .ok (deviceExtensionsOf device) := by
  have hsubject : (SubjectKeyId.encode (identifierOf device).toList).length ≤ subjectKeyIdSize := by
    rw [SubjectKeyId.encode, OctetString.length_encode, Octets.length_toList]
    decide
  have hauthority : (AuthorityKeyId.encode ⟨some (identifierOf device).toList⟩).length ≤
      authorityKeyIdSize := by
    rw [AuthorityKeyId.length_encode_some, Octets.length_toList]
    decide
  unfold deviceExtensions
  rw [keyId_eq, Extension.make_eq (by decide) (by decide)]
  simp only [Except.bind, bind, Extension.make_eq hsubject (by decide),
    Extension.make_eq hauthority (by decide),
    Extension.make_eq (show KeyUsage.keyCertSign.encode.length ≤ keyUsageSize by decide) (by decide)]
  rfl

end X509

end MeasuredIdentity
