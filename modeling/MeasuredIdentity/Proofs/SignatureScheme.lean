import MeasuredIdentity.Proofs.CurveGroup
import MeasuredIdentity.Proofs.PointForms
import MeasuredIdentity.Proofs.SignatureCodec

/-!
The signature scheme over the group of the curve. The base point has a prime order, so every private
key has a public key on the curve, and its signatures are accepted for that key.
-/
namespace MeasuredIdentity

namespace P256

theorem order_prime : order.Prime := by
  -- As for the field, a chain of large primes; the small ones are found by division.
  have h₁ : Nat.Prime 1002328039319 :=
    Lucas.prime (c := ⟨_, 19, [2, 126241, 3969899]⟩) (by decide +kernel) (by norm_num)
  have h₂ : Nat.Prime 208150935158385979 :=
    Lucas.prime (c := ⟨_, 2, [2, 3, 11, 43, 127, 3023, 191039911]⟩) (by decide +kernel)
      (by norm_num)
  have h₃ : Nat.Prime 2624747550333869278416773953 :=
    Lucas.prime (c := ⟨_, 7, [2, 2, 2, 2, 2, 2, 3, 3, 1297, 16879, 208150935158385979]⟩)
      (by decide +kernel) ⟨by norm_num, by norm_num, by norm_num, by norm_num, by norm_num,
        by norm_num, by norm_num, by norm_num, by norm_num, by norm_num, h₂⟩
  have h₄ : Nat.Prime 311245691 :=
    Lucas.prime (c := ⟨_, 2, [2, 5, 7, 17, 29, 29, 311]⟩) (by decide +kernel) (by norm_num)
  have h₅ : Nat.Prime 622491383 :=
    Lucas.prime (c := ⟨_, 5, [2, 311245691]⟩) (by decide +kernel) ⟨by norm_num, h₄⟩
  exact Lucas.prime (c := ⟨order, 7, [2, 2, 2, 2, 3, 71, 131, 373, 3407, 17449, 38189, 187019741,
      622491383, 1002328039319, 2624747550333869278416773953]⟩) (by decide +kernel)
    ⟨by norm_num, by norm_num, by norm_num, by norm_num, by norm_num, by norm_num, by norm_num,
      by norm_num, by norm_num, by norm_num, by norm_num, by norm_num, h₅, h₁, h₃⟩

instance : Fact order.Prime := ⟨order_prime⟩

theorem order_lt_two_pow : order < 2 ^ 256 := order_lt

/-- The base point as an element of the group. -/
def generator : Group :=
  .some Point.base.x Point.base.y ((onCurve_iff_nonsingular _ _).1 (by decide +kernel))

theorem represents_base : Point.base.Represents generator :=
  .finite _ (by decide) (by simp [Point.base]) (by simp [Point.base]) (by simp [Point.base])

theorem order_nsmul_generator : order • generator = 0 := by
  rw [← (represents_base.times order_lt_two_pow).z_eq_zero_iff]
  decide +kernel

theorem addOrderOf_generator : addOrderOf generator = order :=
  addOrderOf_eq_prime order_nsmul_generator (WeierstrassCurve.Affine.Point.some_ne_zero _)

/-- Multiples of the base point are told apart by their factors modulo its order. -/
theorem nsmul_generator_eq_iff {m n : ℕ} :
    m • generator = n • generator ↔ (m : ZMod order) = n := by
  rw [nsmul_eq_nsmul_iff_modEq, addOrderOf_generator, ZMod.natCast_eq_natCast_iff]

namespace Scalar

variable (k : Scalar)

theorem cast_ne_zero : (k.toNat : ZMod order) ≠ 0 := by
  rw [ne_eq, ZMod.natCast_eq_zero_iff]
  exact Nat.not_dvd_of_pos_of_lt k.pos k.lt_order

theorem nsmul_generator_ne_zero : k.toNat • generator ≠ 0 := by
  rw [ne_eq, ← zero_nsmul generator, nsmul_generator_eq_iff, Nat.cast_zero]
  exact k.cast_ne_zero

theorem represents_times : (Point.times k.toNat Point.base).Represents (k.toNat • generator) :=
  represents_base.times (k.lt_order.trans order_lt_two_pow)

theorem onCurve_publicKey : k.publicKey.OnCurve :=
  (k.represents_times.affine_eq k.represents_times k.nsmul_generator_ne_zero).2

theorem isUncompressed_publicKey : k.publicKey.IsUncompressed k.publicKey.toOctets.toList :=
  ⟨k.onCurve_publicKey, rfl⟩

/-- The public key stands for the multiple of the base point by the private key. -/
theorem represents_publicKey : k.publicKey.toPoint.Represents (k.toNat • generator) :=
  k.represents_times.mk_affine k.nsmul_generator_ne_zero

end Scalar

end P256

namespace Ecdsa

open P256

theorem cast_inverseMod_order (a : ℕ) : (inverseMod order a : ZMod order) = (a : ZMod order)⁻¹ :=
  cast_inverseMod (by decide) order_lt_two_pow a

/-- A signature over a message fixes one number, which is the nonce if the signature was made with
one. It is accepted where the multiple of the base point by that number has its abscissa. -/
theorem verifies_eq {d k : Scalar} {message : Bytes} {s : Signature}
    (hk : (k.toNat : ZMod order) * s.s.toNat =
      digestScalar (sha256 message) + s.r.toNat * d.toNat) :
    verifies d.publicKey message s = (k.publicKey.x % order == s.r.toNat) := by
  have hlt (n : ℕ) : n % order < 2 ^ 256 := (Nat.mod_lt n order_prime.pos).trans order_lt_two_pow
  set w := inverseMod order s.s.toNat with hw
  set u₁ := digestScalar (sha256 message) * w % order with hu₁
  set u₂ := s.r.toNat * w % order with hu₂
  have hsum : (u₁ + u₂ * d.toNat) • generator = k.toNat • generator := by
    rw [nsmul_generator_eq_iff, hu₁, hu₂, Nat.cast_add, Nat.cast_mul, ZMod.natCast_mod,
      ZMod.natCast_mod, Nat.cast_mul, Nat.cast_mul, hw, cast_inverseMod_order]
    have hs := s.s.cast_ne_zero
    field_simp
    rw [← hk, mul_comm]
  have hp : ((Point.times u₁ Point.base).plus (Point.times u₂ d.publicKey.toPoint)).Represents
      (k.toNat • generator) := by
    rw [← hsum, add_nsmul, mul_nsmul']
    exact (represents_base.times (hlt _)).plus (d.represents_publicKey.times (hlt _))
  have hz := mt hp.z_eq_zero_iff.1 k.nsmul_generator_ne_zero
  have haffine := (hp.affine_eq k.represents_times k.nsmul_generator_ne_zero).1
  unfold verifies
  simp only [← hw, ← hu₁, ← hu₂, bne_iff_ne.2 hz, Bool.true_and, haffine]
  rfl

theorem verifies_of_signWith? {d k : Scalar} {message : Bytes} {s : Signature}
    (h : signWith? d k (digestScalar (sha256 message)) = some s) :
    verifies d.publicKey message s = true := by
  obtain ⟨hr, hs⟩ := X509.signature_ofPair?_eq_some_iff.1 h
  have hk : (k.toNat : ZMod order) * s.s.toNat =
      digestScalar (sha256 message) + s.r.toNat * d.toNat := by
    rw [hs, hr, ZMod.natCast_mod, Nat.cast_mul, ZMod.natCast_mod, cast_inverseMod_order,
      mul_inv_cancel_left₀ k.cast_ne_zero]
    push_cast
    ring
  rw [verifies_eq hk, hr, beq_self_eq_true]

/-- Signatures are accepted. -/
theorem verifies_of_sign? {d : PrivateKey} {message : Bytes} {s : Signature}
    (h : sign? d message = some s) : verifies d.publicKey message s = true := by
  rw [sign?] at h
  obtain ⟨k, -, hk⟩ := Option.bind_eq_some_iff.1 h
  exact verifies_of_signWith? hk

/-- A nonce gives a signature unless it makes one of the two numbers zero. -/
theorem signWith?_isSome_iff {d k : Scalar} {z : ℕ} : (signWith? d k z).isSome ↔
    (k.publicKey.x : ZMod order) ≠ 0 ∧ (z : ZMod order) + k.publicKey.x * d.toNat ≠ 0 := by
  have hpos (n : ℕ) : (0 < n % order ∧ n % order < order) ↔ (n : ZMod order) ≠ 0 := by
    rw [ne_eq, ZMod.natCast_eq_zero_iff, Nat.dvd_iff_mod_eq_zero]
    exact ⟨fun h => h.1.ne', fun h => ⟨Nat.pos_of_ne_zero h, Nat.mod_lt _ order_prime.pos⟩⟩
  have hinverse : (inverseMod order k.toNat : ZMod order) ≠ 0 := by
    rw [cast_inverseMod_order]
    exact inv_ne_zero k.cast_ne_zero
  rw [signWith?, Signature.ofPair?_isSome_iff, hpos, hpos, Nat.cast_mul, ZMod.natCast_mod,
    Nat.cast_add, Nat.cast_mul, ZMod.natCast_mod, mul_ne_zero_iff, and_iff_right hinverse]

/-- The nonces 1 and 2 give different abscissas, so one of them gives a signature. -/
theorem exists_signWith? (d : Scalar) (z : ℕ) : ∃ k s, signWith? d k z = some s := by
  let one : Scalar := ⟨1, by decide, by decide⟩
  let two : Scalar := ⟨2, by decide, by decide⟩
  have hone : (one.publicKey.x : ZMod order) ≠ 0 := by
    rw [ne_eq, ZMod.natCast_eq_zero_iff]
    decide +kernel
  have htwo : (two.publicKey.x : ZMod order) ≠ 0 := by
    rw [ne_eq, ZMod.natCast_eq_zero_iff]
    decide +kernel
  have hne : (one.publicKey.x : ZMod order) ≠ two.publicKey.x := by
    rw [ne_eq, ZMod.natCast_eq_natCast_iff']
    decide +kernel
  by_cases h : (z : ZMod order) + one.publicKey.x * d.toNat = 0
  · have hz : (z : ZMod order) + two.publicKey.x * d.toNat ≠ 0 := by
      intro h'
      exact hne (mul_right_cancel₀ d.cast_ne_zero (add_left_cancel (h.trans h'.symm)))
    exact ⟨two, Option.isSome_iff_exists.1 (signWith?_isSome_iff.2 ⟨htwo, hz⟩)⟩
  · exact ⟨one, Option.isSome_iff_exists.1 (signWith?_isSome_iff.2 ⟨hone, h⟩)⟩

/-- Over every message there is a signature that is accepted for a public key. -/
theorem exists_verifies (d : Scalar) (message : Bytes) :
    ∃ s, verifies d.publicKey message s = true := by
  obtain ⟨k, s, h⟩ := exists_signWith? d (digestScalar (sha256 message))
  exact ⟨s, verifies_of_signWith? h⟩

end Ecdsa

end MeasuredIdentity
