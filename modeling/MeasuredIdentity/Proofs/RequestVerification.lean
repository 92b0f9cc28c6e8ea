import MeasuredIdentity.Proofs.PointForms
import MeasuredIdentity.Proofs.RequestCanonical
import MeasuredIdentity.Proofs.SignatureCodec

/-!
The verification of a request judges the bytes that were received: the signature is checked over
the slice that holds the signed part, although that part is encoded anew for the check.
-/
namespace MeasuredIdentity.X509

open Der Decoder

namespace Request

/-- The checks of a verification, in their order. -/
theorem verify_eq (r : Request) : r.verify =
    if r.algorithm = .ecdsaSha256 then
      match P256.PublicKey.ofSec1? r.info.publicKey.key.bytes,
        decodeSignaturePair.whole r.signature.bytes with
      | some key, some (u, v) =>
        if r.info.encode.length ≤ maxTbsSize then
          if (Ecdsa.Signature.ofPair? u v).any (Ecdsa.verifies key r.info.encode) then .ok ()
          else .error .signature
        else .error overlength
      | _, _ => .error .signature
    else .error .signature := by
  unfold verify
  by_cases halg : r.algorithm = .ecdsaSha256
  · simp only [halg, if_true]
    cases P256.PublicKey.ofSec1? r.info.publicKey.key.bytes with
    | none => rfl
    | some key =>
      cases decodeSignaturePair.whole r.signature.bytes with
      | none => rfl
      | some pair =>
        obtain ⟨u, v⟩ := pair
        by_cases hlen : r.info.encode.length ≤ maxTbsSize
        · simp only [within_of_le hlen (hlen.trans (by decide)), hlen, if_true]
          cases Ecdsa.Signature.ofPair? u v with
          | none => rfl
          | some s =>
            rw [Option.any_some]
            change (if Ecdsa.verifies key r.info.encode s = true then _ else _) = _
            split <;> rfl
        · simp only [within_of_lt (Nat.lt_of_not_le hlen), hlen, if_false]
          rfl
  · simp only [halg]
    rfl

/-- A request is accepted for a key and a signature that verifies over its encoded first part. -/
theorem verify_eq_ok_iff (r : Request) : r.verify = .ok () ↔
    r.algorithm = .ecdsaSha256 ∧ r.info.encode.length ≤ maxTbsSize ∧
    ∃ (key : P256.PublicKey) (signature : Ecdsa.Signature), key.IsForm r.info.publicKey.key.bytes ∧
      r.signature.bytes = encodeSignature signature ∧
      Ecdsa.verifies key r.info.encode signature = true := by
  rw [verify_eq]
  constructor
  · intro h
    split at h
    next halg =>
      split at h
      next key u v hkey hpair =>
        split at h
        next hlen =>
          split at h
          next hverifies =>
            obtain ⟨signature, hsignature, hv⟩ := (Option.any_eq_true _ _).1 hverifies
            obtain ⟨rfl, rfl⟩ := signature_ofPair?_eq_some_iff.1 hsignature
            exact ⟨halg, hlen, key, signature, P256.PublicKey.ofSec1?_eq_some_iff.1 hkey,
              eq_encodeSignature_iff.2 hpair, hv⟩
          next => cases h
        next => cases h
      next => cases h
    next => cases h
  · rintro ⟨halg, hlen, key, signature, hkey, hsignature, hv⟩
    have hany : (Ecdsa.Signature.ofPair? signature.r.toNat signature.s.toNat).any
        (Ecdsa.verifies key r.info.encode) = true := by
      rw [signature_ofPair?_eq_some_iff.2 ⟨rfl, rfl⟩]
      exact hv
    simp only [halg, if_true, P256.PublicKey.ofSec1?_eq_some_iff.2 hkey,
      eq_encodeSignature_iff.1 hsignature, hlen, hany]

/-- The size of the first part is looked at once the key and the form of the signature are. -/
theorem verify_eq_overlength_iff (r : Request) : r.verify = .error overlength ↔
    r.algorithm = .ecdsaSha256 ∧ maxTbsSize < r.info.encode.length ∧
    (∃ key : P256.PublicKey, key.IsForm r.info.publicKey.key.bytes) ∧
    ∃ u v, IsIntegerPair r.signature.bytes u v := by
  rw [verify_eq]
  constructor
  · intro h
    split at h
    next halg =>
      split at h
      next key u v hkey hpair =>
        split at h
        next => split at h <;> cases h
        next hlen =>
          obtain ⟨a, b, hab, -, -⟩ := decodeSignaturePair_eq_some_iff.1 hpair
          exact ⟨halg, Nat.lt_of_not_le hlen,
            ⟨key, P256.PublicKey.ofSec1?_eq_some_iff.1 hkey⟩, a, b, hab⟩
      next => cases h
    next => cases h
  · rintro ⟨halg, hlen, ⟨key, hkey⟩, u, v, huv⟩
    simp only [halg, if_true, P256.PublicKey.ofSec1?_eq_some_iff.2 hkey,
      decodeSignaturePair_eq_some_iff.2 ⟨u, v, huv, rfl, rfl⟩, Nat.not_le.2 hlen, if_false]

theorem verify_cases (r : Request) :
    r.verify = .ok () ∨ r.verify = .error .signature ∨ r.verify = .error overlength := by
  rw [verify_eq]
  split
  · split
    · split
      · split <;> simp
      · simp
    · simp
  · simp

/-- A request that is read is its received bytes, and its verification is one of the slice that
holds its first part. -/
theorem verify_received {b : Bytes} {r : Request} (h : decode.whole b = some r) :
    r.encode = b ∧ ∃ info, firstMember? b = some info ∧ r.info.encode = info ∧
      (r.verify = .ok () ↔
        r.algorithm = .ecdsaSha256 ∧ info.length ≤ maxTbsSize ∧
        ∃ (key : P256.PublicKey) (signature : Ecdsa.Signature), key.IsForm r.info.publicKey.key.bytes ∧
          r.signature.bytes = encodeSignature signature ∧
          Ecdsa.verifies key info signature = true) ∧
      (r.verify = .error overlength ↔
        r.algorithm = .ecdsaSha256 ∧ maxTbsSize < info.length ∧
        (∃ key : P256.PublicKey, key.IsForm r.info.publicKey.key.bytes) ∧
        ∃ u v, IsIntegerPair r.signature.bytes u v) ∧
      (r.verify = .ok () ∨ r.verify = .error .signature ∨ r.verify = .error overlength) := by
  obtain ⟨hb, hlen⟩ := content_of_decode (whole_eq_some_iff.1 h)
  rw [List.append_nil] at hb
  refine ⟨hb.symm, r.info.encode, ?_, rfl, r.verify_eq_ok_iff, r.verify_eq_overlength_iff,
    r.verify_cases⟩
  rw [hb]
  exact firstMember?_encode hlen

/-- A request with a key in compact form. -/
def compactKeyExample : Bytes := [
  0x30, 0x81, 0xa5, 0x30, 0x4e, 0x02, 0x01, 0x00, 0x30, 0x0c, 0x31, 0x0a, 0x30, 0x08, 0x06, 0x03,
  0x55, 0x04, 0x03, 0x0c, 0x01, 0x78, 0x30, 0x39, 0x30, 0x13, 0x06, 0x07, 0x2a, 0x86, 0x48, 0xce,
  0x3d, 0x02, 0x01, 0x06, 0x08, 0x2a, 0x86, 0x48, 0xce, 0x3d, 0x03, 0x01, 0x07, 0x03, 0x22, 0x00,
  0x05, 0x9f, 0xad, 0x84, 0xae, 0xae, 0x08, 0xbb, 0xef, 0x7f, 0x01, 0x00, 0x14, 0xd8, 0x2c, 0xef,
  0x6a, 0x09, 0xde, 0x2b, 0x0c, 0xf8, 0x71, 0xb5, 0xce, 0x0c, 0x4f, 0x1d, 0x13, 0xa5, 0x9a, 0x59,
  0x34, 0xa0, 0x00, 0x30, 0x0a, 0x06, 0x08, 0x2a, 0x86, 0x48, 0xce, 0x3d, 0x04, 0x03, 0x02, 0x03,
  0x47, 0x00, 0x30, 0x44, 0x02, 0x20, 0x69, 0x7d, 0x7b, 0x8e, 0xef, 0x74, 0xdd, 0x57, 0x96, 0xe0,
  0x2e, 0xd6, 0x48, 0x04, 0x87, 0xa8, 0xd9, 0x9a, 0x62, 0xd1, 0x60, 0x22, 0x81, 0x5b, 0xe5, 0xbe,
  0x81, 0xbd, 0x7e, 0x9d, 0xbd, 0xba, 0x02, 0x20, 0x02, 0xb7, 0x71, 0x40, 0x17, 0xb1, 0x1e, 0x8e,
  0xfd, 0xff, 0xbc, 0x16, 0x59, 0x70, 0x91, 0xc9, 0xef, 0x93, 0xe3, 0x1d, 0xe3, 0xd5, 0xeb, 0x88,
  0xc5, 0xe1, 0xf1, 0x8e, 0xe9, 0xdc, 0x48, 0x33]

theorem verify_received_compactKeyExample : ∃ r, decode.whole compactKeyExample = some r ∧
    r.encode = compactKeyExample ∧ firstMember? compactKeyExample = some r.info.encode := by
  have h : (decode.whole compactKeyExample).isSome = true := by decide +kernel
  obtain ⟨r, hr⟩ := Option.isSome_iff_exists.1 h
  obtain ⟨hencode, info, hinfo, heq, -⟩ := verify_received hr
  exact ⟨r, hr, hencode, heq ▸ hinfo⟩

/-- The uncompressed and the compressed form are not all that is accepted. -/
theorem verify_accepts_compact_key :
    ∃ r, decode.whole compactKeyExample = some r ∧ r.verify = .ok () ∧ ¬ ∃ key : P256.PublicKey,
      key.IsUncompressed r.info.publicKey.key.bytes ∨ key.IsCompressed r.info.publicKey.key.bytes := by
  have hverify : (decode.whole compactKeyExample).any (fun r => r.verify matches .ok ()) = true := by
    decide +kernel
  have hform : (decode.whole compactKeyExample).all
      (fun r => r.info.publicKey.key.bytes.head? = some 0x05) = true := by decide +kernel
  obtain ⟨r, hr, hok⟩ := (Option.any_eq_true _ _).1 hverify
  refine ⟨r, hr, ?_, ?_⟩
  · split at hok
    · assumption
    · simp at hok
  · rw [hr] at hform
    have hhead : r.info.publicKey.key.bytes.head? = some 0x05 := by simpa using hform
    rintro ⟨key, ⟨-, heq⟩ | ⟨-, heq⟩⟩ <;> rw [heq] at hhead
    · simp at hhead
    · split at hhead <;> simp at hhead

end Request

end MeasuredIdentity.X509
