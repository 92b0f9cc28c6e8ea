import MeasuredIdentity.Proofs.CertificateCodec
import MeasuredIdentity.Proofs.EncodingSize
import MeasuredIdentity.Proofs.RequestVerification
import MeasuredIdentity.Proofs.SignatureScheme

/-!
What a request declares of its key, against what its verification looks at. The bits of the key are
read as a point of the curve whichever key type the request declares for them, and how many bits of
the last byte count is looked at neither for the key nor for the signature.
-/
namespace MeasuredIdentity.X509

open Der Decoder

theorem RequestAttribute.yields : Yields (fun a => a.oids.all Oid.isReadable) decode := by
  apply Yields.inside
  intro c a rest h
  simp only [bind_eq_some_iff, pure_eq_some_iff] at h
  obtain ⟨oid, _, ho, values, _, -, rfl, -⟩ := h
  exact (Bool.and_true _).trans (Oid.yields _ _ _ ho)

theorem RequestInfo.yields : Yields (fun i => i.oids.all Oid.isReadable) decode := by
  apply Yields.inside
  intro c i rest h
  simp only [bind_eq_some_iff, pure_eq_some_iff] at h
  obtain ⟨_, _, -, _, _, -, subject, _, hsubject, key, _, hkey, attributes, _, ha, rfl, -⟩ := h
  obtain ⟨_, hmembers, -⟩ := eq_element_of_required_zero ha
  have hattributes := RequestAttribute.yields.members 1 _ _ _ (whole_eq_some_iff.1 hmembers)
  simp only [oids, List.all_append, List.all_flatMap, Bool.and_eq_true]
  exact ⟨⟨Name.yields _ _ _ hsubject, PublicKeyInfo.yields _ _ _ hkey⟩, hattributes⟩

namespace Request

variable {key : P256.PrivateKey} {info : RequestInfo} {unused : ℕ}

theorem isReadable_info_of_decode {b : Bytes} {r : Request} (h : decode.whole b = some r) :
    r.info.oids.all Oid.isReadable = true := by
  obtain ⟨c, hc, -, -⟩ := eq_element_of_inside (whole_eq_some_iff.1 h)
  simp only [bind_eq_some_iff, pure_eq_some_iff] at hc
  obtain ⟨info, _, hinfo, _, _, -, _, _, -, rfl, -⟩ := hc
  exact RequestInfo.yields _ _ _ hinfo

/-- A first part with the bits of a key that fits into its buffer and can be read has a signature that
is verified, whatever number of unused bits the signature comes with. -/
theorem exists_verified (hkey : key.publicKey.IsForm info.publicKey.key.bytes)
    (hlength : info.encode.length ≤ maxTbsSize) (hunused : unused ≤ 7)
    (hoids : info.oids.all Oid.isReadable = true) :
    ∃ r, decode.whole r.encode = some r ∧ r.verify = .ok () ∧ r.info = info ∧
      r.signature.unused = unused := by
  obtain ⟨s, hs⟩ := Ecdsa.exists_verifies key info.encode
  have hbytes : encodeSignature s = [] → unused = 0 := fun h => absurd h (element_ne_nil _ _)
  let r : Request := ⟨info, .ecdsaSha256, ⟨unused, encodeSignature s, hunused, hbytes⟩⟩
  have hsize : r.encode.length ≤ maxLength :=
    (length_signedBits_le hlength (length_encodeSignature_le s)).trans (by decide)
  have hverify : r.verify = .ok () :=
    (verify_eq_ok_iff r).2 ⟨rfl, hlength, key.publicKey, s, hkey, rfl, hs⟩
  have hreadable : r.oids.all Oid.isReadable = true := by
    rw [oids, List.all_append, Bool.and_eq_true]
    exact ⟨hoids, rfl⟩
  exact ⟨r, readsBackIf.decode_self hreadable hsize, hverify, rfl, rfl⟩

/-- Verification leaves open what a request declares. A first part with the bits of a key and a
number of unused signature bits occur in a request that is read and verified exactly if the first
part fits into its buffer, all the identifiers in it can be read, and the number is one that a bit string
can have. Neither the declared algorithm nor the unused bits of the key take part in this. -/
theorem exists_verified_iff (hkey : key.publicKey.IsForm info.publicKey.key.bytes) :
    (∃ b r, decode.whole b = some r ∧ r.verify = .ok () ∧ r.info = info ∧
      r.signature.unused = unused) ↔
    info.encode.length ≤ maxTbsSize ∧ unused ≤ 7 ∧ info.oids.all Oid.isReadable = true := by
  constructor
  · rintro ⟨b, r, hread, hverify, rfl, rfl⟩
    obtain ⟨-, hlength, -⟩ := (verify_eq_ok_iff r).1 hverify
    exact ⟨hlength, r.signature.unused_le, isReadable_info_of_decode hread⟩
  · rintro ⟨hlength, hunused, hoids⟩
    obtain ⟨r, hr⟩ := exists_verified hkey hlength hunused hoids
    exact ⟨r.encode, r, hr⟩

/-- An RSA key with parameters NULL. -/
def rsaAlgorithm : AlgorithmId :=
  ⟨⟨[0x2a, 0x86, 0x48, 0x86, 0xf7, 0x0d, 0x01, 0x01, 0x01], by decide⟩, some ⟨⟨0x05, by decide⟩, []⟩⟩

/-- The bits of a P-256 key, four of them not to count, declared as an RSA key. -/
def rsaInfo (key : P256.PublicKey) : RequestInfo :=
  ⟨.empty, ⟨rsaAlgorithm, ⟨4, key.toOctets.toList, by decide, fun h => absurd h (List.cons_ne_nil _ _)⟩⟩,
    .empty⟩

theorem exists_verified_iff_rsaInfo : ∃ key : P256.PrivateKey, ∃ b r, decode.whole b = some r ∧
    r.verify = .ok () ∧ r.info = rsaInfo key.publicKey ∧ r.signature.unused = 3 := by
  let key : P256.PrivateKey := ⟨7, by decide, by decide⟩
  have hkey : key.publicKey.IsForm (rsaInfo key.publicKey).publicKey.key.bytes :=
    Or.inl key.isUncompressed_publicKey
  have hlength : (rsaInfo key.publicKey).encode.length ≤ maxTbsSize := by decide +kernel
  exact ⟨key, (exists_verified_iff hkey).2 ⟨hlength, by decide, rfl⟩⟩

/-- A request with a key that is declared as an RSA key, with unused bits in the key and in the
signature. -/
def rsaKeyExample : Bytes := [
  0x30, 0x81, 0xb4, 0x30, 0x5c, 0x02, 0x01, 0x00, 0x30, 0x00, 0x30, 0x53, 0x30, 0x0d, 0x06, 0x09,
  0x2a, 0x86, 0x48, 0x86, 0xf7, 0x0d, 0x01, 0x01, 0x01, 0x05, 0x00, 0x03, 0x42, 0x04, 0x04, 0x8e,
  0x53, 0x3b, 0x6f, 0xa0, 0xbf, 0x7b, 0x46, 0x25, 0xbb, 0x30, 0x66, 0x7c, 0x01, 0xfb, 0x60, 0x7e,
  0xf9, 0xf8, 0xb8, 0xa8, 0x0f, 0xef, 0x5b, 0x30, 0x06, 0x28, 0x70, 0x31, 0x87, 0xb2, 0xa3, 0x73,
  0xeb, 0x1d, 0xbd, 0xe0, 0x33, 0x18, 0x36, 0x6d, 0x06, 0x9f, 0x83, 0xa6, 0xf5, 0x90, 0x00, 0x53,
  0xc7, 0x36, 0x33, 0xcb, 0x04, 0x1b, 0x21, 0xc5, 0x5e, 0x1a, 0x86, 0xc1, 0xf4, 0x00, 0xb4, 0xa0,
  0x00, 0x30, 0x0a, 0x06, 0x08, 0x2a, 0x86, 0x48, 0xce, 0x3d, 0x04, 0x03, 0x02, 0x03, 0x48, 0x03,
  0x30, 0x45, 0x02, 0x20, 0x3e, 0xd1, 0x13, 0xb7, 0x88, 0x3b, 0x4c, 0x59, 0x06, 0x38, 0x37, 0x9d,
  0xb0, 0xc2, 0x1c, 0xda, 0x16, 0x74, 0x2e, 0xd0, 0x25, 0x50, 0x48, 0xbf, 0x43, 0x33, 0x91, 0xd3,
  0x74, 0xbc, 0x21, 0xd1, 0x02, 0x21, 0x00, 0xcc, 0x36, 0x29, 0x2e, 0xfd, 0xca, 0xd2, 0x0b, 0xad,
  0x75, 0x57, 0x87, 0x15, 0x20, 0x2c, 0xb8, 0xb2, 0x8c, 0x9a, 0x23, 0xbe, 0xfc, 0x51, 0x0c, 0xe1,
  0xb0, 0x5f, 0x78, 0x65, 0x63, 0x75, 0x6f]

/-- A verified request need not declare a P-256 key, nor be made of whole bytes. -/
theorem verify_accepts_rsaKeyExample : ∃ r, decode.whole rsaKeyExample = some r ∧
    r.verify = .ok () ∧ r.info.publicKey.algorithm = rsaAlgorithm ∧ rsaAlgorithm ≠ .p256 ∧
    r.info.publicKey.key.unused = 4 ∧ r.signature.unused = 3 := by
  have hread : (decode.whole rsaKeyExample).isSome = true := by decide +kernel
  obtain ⟨r, hr⟩ := Option.isSome_iff_exists.1 hread
  have hverify : (decode.whole rsaKeyExample).all (fun r => r.verify matches .ok ()) = true := by
    decide +kernel
  have hdeclares : (decode.whole rsaKeyExample).all (fun r =>
      r.info.publicKey.algorithm = rsaAlgorithm ∧ r.info.publicKey.key.unused = 4 ∧
        r.signature.unused = 3) = true := by decide +kernel
  rw [hr, Option.all_some] at hverify hdeclares
  obtain ⟨halgorithm, hkey, hsignature⟩ := of_decide_eq_true hdeclares
  refine ⟨r, hr, ?_, halgorithm, by decide, hkey, hsignature⟩
  split at hverify
  · assumption
  · simp at hverify

end Request

end MeasuredIdentity.X509
