import MeasuredIdentity.Proofs.CertificateCodec
import MeasuredIdentity.Proofs.IssuedCredentials
import MeasuredIdentity.Proofs.RequestCanonical

/-!
A certificate carries what it is assembled from. Its first part is encoded twice, once for the
signer and once inside the certificate; both encodings are the slice that a reader finds there, and
encoding what the reader has decoded gives the slice again. The reader refuses a certificate for the sake
of one object identifier that cannot be read.
-/
namespace MeasuredIdentity

namespace Der

/-- The second byte string is the first one without its leading zeros. Of zeros alone one is kept. -/
def DropsZeros (b m : Bytes) : Prop :=
  (∃ zeros, b = List.replicate zeros 0 ++ m) ∧ (m = [0] ∨ ∃ x rest, m = x :: rest ∧ x ≠ 0)

namespace Uint

theorem exists_replicate_append_strip (b : Bytes) : ∃ zeros, b = List.replicate zeros 0 ++ strip b := by
  fun_induction strip b with
  | case1 x rest ih =>
    obtain ⟨zeros, hzeros⟩ := ih
    refine ⟨zeros + 1, ?_⟩
    rw [List.replicate_succ, List.cons_append, ← hzeros]
  | case2 b _ => exact ⟨0, rfl⟩

theorem dropsZeros_strip {b : Bytes} (h : b ≠ []) : DropsZeros b (strip b) := by
  refine ⟨exists_replicate_append_strip b, ?_⟩
  obtain ⟨x, rest, heq⟩ := List.exists_cons_of_ne_nil (strip_ne_nil h)
  by_cases hx : x = 0
  · subst hx
    cases rest with
    | nil => exact Or.inl heq
    | cons y rest => exact absurd heq (strip_ne b y rest)
  · exact Or.inr ⟨x, rest, heq, hx⟩

end Uint

end Der

namespace X509

open Der Decoder

/-- The body is made of these parts: version 3, signed with ECDSA and SHA-256, the serial number
without leading zeros, and no unique identifiers. -/
structure TbsCertificate.IsMadeOf (t : TbsCertificate) (serial : Bytes) (issuer subject : Name)
    (validity : Validity) (key : PublicKeyInfo) (extensions : Extensions) : Prop where
  version : t.version = .v3
  serial : DropsZeros serial t.serial.magnitude
  signature : t.signature = .ecdsaSha256
  issuer : t.issuer = issuer
  validity : t.validity = validity
  subject : t.subject = subject
  publicKey : t.publicKey = key
  issuerId : t.issuerId = none
  subjectId : t.subjectId = none
  extensions : t.extensions = some extensions

namespace Certificate

variable {serial : Bytes} {issuer subject : Name} {validity : Validity} {key : PublicKeyInfo}
  {extensions : Extensions} {sign : Bytes → Except Error Bytes} {capacity : ℕ} {der : Bytes}

theorem isMadeOf_body (h : serial ≠ []) :
    (body serial issuer subject validity key extensions).IsMadeOf serial issuer subject validity key
      extensions :=
  ⟨rfl, Uint.dropsZeros_strip h, rfl, rfl, rfl, rfl, rfl, rfl, rfl, rfl⟩

theorem hasSerial_body_iff :
    (body serial issuer subject validity key extensions).HasSerial ↔ serial ≠ [] := by
  refine ⟨?_, Uint.strip_ne_nil⟩
  rintro h rfl
  exact h rfl

/-- The object identifiers that a body is given: those in its names, its key and its extensions. -/
def givenOids (issuer subject : Name) (key : PublicKeyInfo) (extensions : Extensions) : List Oid :=
  Name.oids issuer ++ Name.oids subject ++ key.oids ++ Extensions.oids extensions

theorem isReadable_assembled_iff {signature : BitString} :
    Certificate.isReadable ⟨body serial issuer subject validity key extensions, .ecdsaSha256, signature⟩
      = true ↔ serial ≠ [] ∧ (givenOids issuer subject key extensions).all Oid.isReadable = true := by
  have halgorithm : AlgorithmId.ecdsaSha256.oids.all Oid.isReadable = true := by decide
  rw [isReadable_eq_true_iff, hasSerial_body_iff, oids, TbsCertificate.oids, givenOids]
  simp only [List.all_append, List.all_flatMap, all_toList, body, halgorithm, Option.all_some,
    Bool.true_and, Bool.and_true]

/-- The slice of a certificate that holds its body. -/
theorem firstMember?_encode {c : Certificate} (h : c.encode.length ≤ maxLength) :
    firstMember? c.encode = some c.tbs.encode := by
  have hcontent := length_le_of_element h
  rw [List.append_assoc] at hcontent
  rw [encode, List.append_assoc]
  exact firstMember?_element hcontent

theorem assembleWith_eq_ok_iff {tbs : TbsCertificate} :
    assembleWith tbs sign capacity = .ok der ↔ tbs.encode.length ≤ maxTbsSize ∧
      ∃ signature, sign tbs.encode = .ok signature ∧
        der = encode ⟨tbs, .ecdsaSha256, .ofBytes signature⟩ ∧
        der.length ≤ capacity ∧ der.length ≤ maxLength := by
  simp only [assembleWith, bind_eq_ok_iff, within_eq_ok_iff]
  constructor
  · rintro ⟨_, ⟨rfl, hfirst, -⟩, signature, hsign, heq, hlength⟩
    exact ⟨hfirst, signature, hsign, heq.symm, hlength⟩
  · rintro ⟨hfirst, signature, hsign, heq, hlength⟩
    exact ⟨tbs.encode, ⟨rfl, hfirst, le_maxLength hfirst⟩, signature, hsign, heq.symm, hlength⟩

theorem decode_whole_assembled {tbs : TbsCertificate} {signature : BitString}
    (hmax : (encode ⟨tbs, .ecdsaSha256, signature⟩).length ≤ maxLength) {certificate : Certificate} :
    decode.whole (encode ⟨tbs, .ecdsaSha256, signature⟩) = some certificate ↔
      Certificate.isReadable ⟨tbs, .ecdsaSha256, signature⟩ = true ∧
        certificate = ⟨tbs, .ecdsaSha256, signature⟩ :=
  readsBackIf.decode_whole_eq_some_iff hmax

/-- An assembled certificate consists of the body, the algorithm, and what the signer makes of the slice
that holds the body. It is read exactly if the identifiers that it was given can be read, and then as a
certificate with exactly the given parts, whose body has that slice as its encoding. -/
theorem assembleWith_carries (hserial : serial ≠ [])
    (h : assembleWith (body serial issuer subject validity key extensions) sign capacity =
      .ok der) :
    ∃ first signature, firstMember? der = some first ∧ sign first = .ok signature ∧
      der = element .sequence
        (first ++ AlgorithmId.ecdsaSha256.encode ++ (BitString.ofBytes signature).encode) ∧
      ((∃ certificate, decode.whole der = some certificate) ↔
        (givenOids issuer subject key extensions).all Oid.isReadable = true) ∧
      ∀ certificate, decode.whole der = some certificate →
        certificate.tbs.IsMadeOf serial issuer subject validity key extensions ∧
        certificate.algorithm = .ecdsaSha256 ∧
        certificate.tbs.encode = first ∧
        certificate.signature = .ofBytes signature := by
  obtain ⟨-, signature, hsign, rfl, -, hmax⟩ := assembleWith_eq_ok_iff.1 h
  simp only [decode_whole_assembled hmax, isReadable_assembled_iff]
  refine ⟨_, signature, firstMember?_encode hmax, hsign, rfl, ?_, ?_⟩
  · simp [hserial]
  · rintro _ ⟨-, rfl⟩
    exact ⟨isMadeOf_body hserial, rfl, rfl, rfl⟩

/-- Five extensions, among them two alike, one without a value and one that is not critical. -/
def sampleExtensions : Extensions :=
  ⟨[⟨Extension.keyUsageOid, true, [0x05, 0x00]⟩, ⟨Extension.keyUsageOid, true, [0x05, 0x00]⟩,
    ⟨Extension.subjectKeyIdOid, false, []⟩, ⟨Extension.basicConstraintsOid, true, [0xff]⟩,
    ⟨Extension.authorityKeyIdOid, false, List.replicate 200 0⟩], by decide⟩

/-- A body with a serial number that has leading zeros and a high bit. -/
def sampleBody : TbsCertificate :=
  body [0x00, 0x00, 0x80, 0x01] .empty (NameParts.mk "a" "b" "c").toName
    ⟨⟨86399, by decide⟩, ⟨951782400, by decide⟩⟩ ⟨.p256, .ofBytes []⟩ sampleExtensions

/-- The signature with both numbers one, for every message. -/
def sampleSigner : Bytes → Except Error Bytes :=
  fun _ => .ok [0x30, 0x06, 0x02, 0x01, 0x01, 0x02, 0x01, 0x01]

theorem assembleWith_carries_sample : ∃ der certificate,
    assembleWith sampleBody sampleSigner 1024 = .ok der ∧ decode.whole der = some certificate ∧
    DropsZeros [0x00, 0x00, 0x80, 0x01] certificate.tbs.serial.magnitude ∧
    certificate.tbs.extensions = some sampleExtensions ∧
    firstMember? der = some certificate.tbs.encode := by
  have hassembled : ∃ der, assembleWith sampleBody sampleSigner 1024 = .ok der :=
    ⟨_, assembleWith_eq_ok_iff.2
      ⟨by decide +kernel, _, rfl, rfl, by decide +kernel, by decide +kernel⟩⟩
  obtain ⟨der, hder⟩ := hassembled
  obtain ⟨first, signature, hfirst, -, -, hread, hparts⟩ :=
    assembleWith_carries (List.cons_ne_nil _ _) hder
  obtain ⟨certificate, hdecode⟩ := hread.2 (by decide)
  obtain ⟨hbody, -, rfl, -⟩ := hparts certificate hdecode
  exact ⟨der, certificate, hder, hdecode, hbody.serial, hbody.extensions, hfirst⟩

/-- With a serial number, no names, and an extension of the type 1.2.3 something is made that is not
read. -/
theorem assembled_not_read : ∃ der,
    assembleWith (body [0x01] .empty .empty ⟨⟨86399, by decide⟩, ⟨951782400, by decide⟩⟩
      ⟨.p256, .ofBytes []⟩ ⟨[⟨⟨[0x2a, 0x03], by decide⟩, false, []⟩], by decide⟩) sampleSigner 1024 =
        .ok der ∧ decode.whole der = none := by
  refine ⟨encode ⟨_, .ecdsaSha256, .ofBytes [0x30, 0x06, 0x02, 0x01, 0x01, 0x02, 0x01, 0x01]⟩,
    assembleWith_eq_ok_iff.2 ⟨by decide +kernel, _, rfl, rfl, by decide +kernel, by decide +kernel⟩,
    by decide +kernel⟩

end Certificate

end X509

end MeasuredIdentity
