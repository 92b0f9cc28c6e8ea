import MeasuredIdentity.Proofs.BigEndian
import MeasuredIdentity.Proofs.PrimitiveCodec
import MeasuredIdentity.X509.Signature

/-!
Signatures as sequences of two integers: each signature has one encoding, and the reader takes
the pairs of integers of at most 32 bytes.
-/
namespace MeasuredIdentity

namespace Bytes

theorem toNat_cons (x : UInt8) (b : Bytes) : toNat (x :: b) = x.toNat * 256 ^ b.length + toNat b := by
  rw [show x :: b = [x] ++ b from rfl, toNat_append, toNat_singleton]

theorem toNat_replicate_zero (k : ℕ) : toNat (List.replicate k 0) = 0 := by
  induction k with
  | zero => rfl
  | succ k ih => rw [List.replicate_succ, toNat_cons, ih]; simp

/-- In a larger width a number has leading zeros. -/
theorem ofNat_toNat_of_le {width : ℕ} {b : Bytes} (h : b.length ≤ width) :
    ofNat width (toNat b) = List.replicate (width - b.length) 0 ++ b := by
  have hnumber : toNat (List.replicate (width - b.length) 0 ++ b) = toNat b := by
    rw [toNat_append, toNat_replicate_zero, Nat.zero_mul, Nat.zero_add]
  have hlength : (List.replicate (width - b.length) (0 : UInt8) ++ b).length = width := by
    rw [List.length_append, List.length_replicate]
    omega
  have hbytes := ofNat_toNat (List.replicate (width - b.length) 0 ++ b)
  rwa [hnumber, hlength] at hbytes

end Bytes

namespace Der.Uint

theorem strip_replicate_append (k : ℕ) {b : Bytes} (hne : b ≠ [])
    (h : ∀ x rest, b ≠ 0 :: x :: rest) : strip (List.replicate k 0 ++ b) = b := by
  induction k with
  | zero => exact strip_eq_self h
  | succ k ih =>
    have hcons : ∃ x rest, List.replicate k (0 : UInt8) ++ b = x :: rest :=
      List.exists_cons_of_ne_nil (by simp [hne])
    obtain ⟨x, rest, heq⟩ := hcons
    rw [List.replicate_succ, List.cons_append, heq, strip, ← heq, ih]

theorem toNat_strip (b : Bytes) : Bytes.toNat (strip b) = Bytes.toNat b := by
  fun_induction strip b with
  | case1 x rest ih => rw [ih, Bytes.toNat_cons 0]; simp
  | case2 b h => rfl

theorem strip_ne_nil {b : Bytes} (h : b ≠ []) : strip b ≠ [] := by
  fun_induction strip b with
  | case1 x rest ih => exact ih (List.cons_ne_nil _ _)
  | case2 b _ => exact h

theorem length_strip_le (b : Bytes) : (strip b).length ≤ b.length := by
  fun_induction strip b with
  | case1 x rest ih => exact Nat.le_succ_of_le ih
  | case2 b _ => exact Nat.le_refl _

end Der.Uint

namespace X509

open Der Decoder

theorem toNat_uintOfNat {n : ℕ} (h : n < 256 ^ 32) : (uintOfNat n).toNat = n := by
  rw [Uint.toNat, uintOfNat, Uint.ofBytes, Uint.toNat_strip, Bytes.toNat_ofNat_of_lt h]

theorem magnitude_uintOfNat (n : ℕ) : (uintOfNat n).magnitude = Uint.strip (Bytes.ofNat 32 n) := by
  simp only [uintOfNat, Uint.ofBytes]

theorem magnitude_uintOfNat_ne_nil (n : ℕ) : (uintOfNat n).magnitude ≠ [] := by
  have hne : Bytes.ofNat 32 n ≠ [] := by
    apply List.ne_nil_of_length_pos
    rw [Bytes.length_ofNat]
    decide
  rw [magnitude_uintOfNat]
  exact Uint.strip_ne_nil hne

theorem length_magnitude_uintOfNat_le (n : ℕ) : (uintOfNat n).magnitude.length ≤ 32 := by
  have h := Uint.length_strip_le (Bytes.ofNat 32 n)
  rwa [Bytes.length_ofNat, ← magnitude_uintOfNat] at h

/-- An integer of at most 32 bytes is determined by its number. -/
theorem uintOfNat_toNat {u : Uint} (hne : u.magnitude ≠ []) (hlen : u.magnitude.length ≤ 32) :
    uintOfNat u.toNat = u := by
  apply Uint.ext
  rw [magnitude_uintOfNat, Uint.toNat, Bytes.ofNat_toNat_of_le hlen,
    Uint.strip_replicate_append _ hne u.stripped]

/-- Two integers of at most 32 bytes in a sequence. -/
def IsIntegerPair (b : Bytes) (u v : Uint) : Prop :=
  (u.magnitude ≠ [] ∧ u.magnitude.length ≤ 32) ∧ (v.magnitude ≠ [] ∧ v.magnitude.length ≤ 32) ∧
    b = element .sequence (u.encode ++ v.encode)

theorem length_encode_uint_le {u : Uint} (h : u.magnitude.length ≤ 32) : u.encode.length ≤ 35 := by
  have hc := Uint.length_content_le u
  rw [Uint.encode, length_element, lengthWidth, if_pos (by omega)]
  omega

theorem decodeSignaturePair_eq_some_iff {b : Bytes} {r s : ℕ} :
    decodeSignaturePair.whole b = some (r, s) ↔
      ∃ u v : Uint, IsIntegerPair b u v ∧ r = u.toNat ∧ s = v.toNat := by
  rw [whole_eq_some_iff]
  constructor
  · intro h
    obtain ⟨c, hc, -, rfl⟩ := eq_element_of_inside h
    simp only [bind_eq_some_iff, pure_eq_some_iff, check_eq_some_iff, Prod.mk.injEq] at hc
    obtain ⟨u, _, hu, v, _, hv, _, _, ⟨⟨hulen, hvlen⟩, rfl⟩, ⟨rfl, rfl⟩, rfl⟩ := hc
    refine ⟨u, v, ⟨⟨Uint.magnitude_ne_nil_of_decode hu, hulen⟩,
      ⟨Uint.magnitude_ne_nil_of_decode hv, hvlen⟩, ?_⟩, rfl, rfl⟩
    rw [Uint.canonical _ _ _ hu, Uint.canonical _ _ _ hv, List.append_nil, List.append_nil]
  · rintro ⟨u, v, ⟨⟨hune, hulen⟩, ⟨hvne, hvlen⟩, rfl⟩, rfl, rfl⟩
    have hu := length_encode_uint_le hulen
    have hv := length_encode_uint_le hvlen
    have hu' : u.encode.length ≤ maxLength := hu.trans (by decide)
    have hv' : v.encode.length ≤ maxLength := hv.trans (by decide)
    have hread := Uint.decode_encode hvne hv' []
    rw [List.append_nil] at hread
    have hc : (u.encode ++ v.encode).length ≤ maxLength := by
      rw [List.length_append]
      exact (Nat.add_le_add hu hv).trans (by decide)
    rw [← List.append_nil (element .sequence (u.encode ++ v.encode))]
    apply inside_element hc
    simp only [bind_apply, Uint.decode_encode hune hu', hread, Option.bind_some, check_apply,
      hulen, hvlen, and_self, if_true, pure_apply]

theorem scalar_ofNat?_eq_some_iff {n : ℕ} {k : P256.Scalar} :
    P256.Scalar.ofNat? n = some k ↔ k.toNat = n := by
  constructor
  · intro h
    unfold P256.Scalar.ofNat? at h
    split_ifs at h
    cases h
    rfl
  · rintro rfl
    exact dif_pos ⟨k.pos, k.lt_order⟩

theorem signature_ofPair?_eq_some_iff {r s : ℕ} {signature : Ecdsa.Signature} :
    Ecdsa.Signature.ofPair? r s = some signature ↔
      signature.r.toNat = r ∧ signature.s.toNat = s := by
  constructor
  · intro h
    simp only [Ecdsa.Signature.ofPair?, Option.bind_eq_bind, Option.bind_eq_some_iff,
      Option.pure_def, Option.some.injEq, scalar_ofNat?_eq_some_iff] at h
    obtain ⟨k, hk, l, hl, rfl⟩ := h
    exact ⟨hk, hl⟩
  · rintro ⟨hr, hs⟩
    simp only [Ecdsa.Signature.ofPair?, Option.bind_eq_bind, scalar_ofNat?_eq_some_iff.2 hr,
      scalar_ofNat?_eq_some_iff.2 hs, Option.bind_some, Option.pure_def]

theorem isIntegerPair_encodeSignature (signature : Ecdsa.Signature) :
    IsIntegerPair (encodeSignature signature) (uintOfNat signature.r.toNat)
      (uintOfNat signature.s.toNat) :=
  ⟨⟨magnitude_uintOfNat_ne_nil _, length_magnitude_uintOfNat_le _⟩,
    ⟨magnitude_uintOfNat_ne_nil _, length_magnitude_uintOfNat_le _⟩, rfl⟩

theorem scalar_lt (k : P256.Scalar) : k.toNat < 256 ^ 32 := k.lt_order.trans P256.order_lt

/-- The bytes that are read as a pair in the range of a signature are its encoding. -/
theorem eq_encodeSignature_iff {b : Bytes} {signature : Ecdsa.Signature} :
    b = encodeSignature signature ↔
      decodeSignaturePair.whole b = some (signature.r.toNat, signature.s.toNat) := by
  rw [decodeSignaturePair_eq_some_iff]
  constructor
  · rintro rfl
    exact ⟨_, _, isIntegerPair_encodeSignature signature, (toNat_uintOfNat (scalar_lt _)).symm,
      (toNat_uintOfNat (scalar_lt _)).symm⟩
  · rintro ⟨u, v, ⟨⟨hune, hulen⟩, ⟨hvne, hvlen⟩, rfl⟩, hr, hs⟩
    rw [encodeSignature, hr, hs, uintOfNat_toNat hune hulen, uintOfNat_toNat hvne hvlen]

end X509

end MeasuredIdentity
