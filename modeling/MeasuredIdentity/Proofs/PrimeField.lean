import Mathlib
import MeasuredIdentity.Curve.P256

/-!
The field of the curve. Its order is prime, so a square has the computed square root, and the
right-hand side of the curve equation is zero nowhere: no point of the curve is its own negative.
-/
namespace MeasuredIdentity.P256

theorem powBits_eq (m base width e : ℕ) :
    powBits m base width e = base ^ (e % 2 ^ width) % m := by
  induction width generalizing e with
  | zero => simp [powBits, Nat.mod_one]
  | succ width ih =>
    have hsplit : e % 2 ^ (width + 1) = 2 * (e / 2 % 2 ^ width) + e % 2 := by
      rw [pow_succ, mul_comm, Nat.mod_mul]
      omega
    have hsquare : base ^ (e / 2 % 2 ^ width) % m * (base ^ (e / 2 % 2 ^ width) % m) % m
        = base ^ (2 * (e / 2 % 2 ^ width)) % m := by
      rw [← Nat.mul_mod, ← pow_two, ← pow_mul, mul_comm 2]
    simp only [powBits, ih, hsquare, hsplit]
    split_ifs with hodd
    · rw [hodd, pow_succ, Nat.mod_mul_mod]
    · have heven : e % 2 = 0 := by omega
      rw [heven, Nat.add_zero]

theorem powMod_eq (m base : ℕ) {e : ℕ} (h : e < 2 ^ 256) : powMod m base e = base ^ e % m := by
  rw [powMod, powBits_eq, Nat.mod_eq_of_lt h]

theorem cast_inverseMod {m : ℕ} [Fact m.Prime] (htwo : 2 < m) (hlt : m < 2 ^ 256) (a : ℕ) :
    (inverseMod m a : ZMod m) = (a : ZMod m)⁻¹ := by
  rw [inverseMod, powMod_eq _ _ (by omega), ZMod.natCast_mod, Nat.cast_pow, ZMod.natCast_mod]
  by_cases ha : (a : ZMod m) = 0
  · rw [ha, inv_zero, zero_pow (by omega)]
  · apply eq_inv_of_mul_eq_one_left
    rw [← pow_succ, show m - 2 + 1 = m - 1 by omega, ZMod.pow_card_sub_one_eq_one ha]

/-! ### The order of the field is prime -/

/-- A number, the factors of its predecessor, and a base whose powers show that the number is
prime if the factors are. -/
structure Lucas where
  number : ℕ
  base : ℕ
  factors : List ℕ

namespace Lucas

def Holds (c : Lucas) : Prop :=
  2 ≤ c.number ∧ c.number < 2 ^ 256 ∧ c.factors.prod = c.number - 1 ∧
    powMod c.number c.base (c.number - 1) = 1 ∧
    ∀ q ∈ c.factors, powMod c.number c.base ((c.number - 1) / q) ≠ 1

instance (c : Lucas) : Decidable c.Holds := by
  unfold Holds
  infer_instance

theorem cast_pow_eq_one_iff {p : ℕ} (hp : 2 ≤ p) (a n : ℕ) :
    (a : ZMod p) ^ n = 1 ↔ a ^ n % p = 1 := by
  have h := ZMod.natCast_eq_natCast_iff' (a ^ n) 1 p
  rwa [Nat.cast_pow, Nat.cast_one, Nat.mod_eq_of_lt (a := 1) (by omega)] at h

theorem prime {c : Lucas} (h : c.Holds) (hq : c.factors.Forall Nat.Prime) : c.number.Prime := by
  obtain ⟨htwo, hlt, hprod, hone, hne⟩ := h
  rw [List.forall_iff_forall_mem] at hq
  apply lucas_primality c.number (c.base : ZMod c.number)
  · rw [cast_pow_eq_one_iff htwo, ← powMod_eq _ _ (by omega)]
    exact hone
  · intro q hprime hdvd
    rw [← hprod, Prime.dvd_prod_iff hprime.prime] at hdvd
    obtain ⟨r, hr, hqr⟩ := hdvd
    obtain rfl := (Nat.prime_dvd_prime_iff_eq hprime (hq r hr)).1 hqr
    have hle : (c.number - 1) / q ≤ c.number - 1 := Nat.div_le_self _ _
    rw [ne_eq, cast_pow_eq_one_iff htwo, ← powMod_eq _ _ (by omega)]
    exact hne q hr

end Lucas

theorem prime_prime : prime.Prime := by
  -- The chain of large primes below the order of the field; the small ones are found by division.
  have h₁ : Nat.Prime 34282281433 :=
    Lucas.prime (c := ⟨_, 17, [2, 2, 2, 3, 7, 204061199]⟩) (by decide +kernel) (by norm_num)
  have h₂ : Nat.Prime 66417393611 :=
    Lucas.prime (c := ⟨_, 6, [2, 5, 53, 173, 197, 3677]⟩) (by decide +kernel) (by norm_num)
  have h₃ : Nat.Prime 11290956913871 :=
    Lucas.prime (c := ⟨_, 13, [2, 5, 17, 66417393611]⟩) (by decide +kernel)
      ⟨by norm_num, by norm_num, by norm_num, h₂⟩
  have h₄ : Nat.Prime 46076956964474543 :=
    Lucas.prime (c := ⟨_, 5, [2, 23, 18169, 78283, 704251]⟩) (by decide +kernel) (by norm_num)
  have h₅ : Nat.Prime 774023187263532362759620327192479577272145303 :=
    Lucas.prime (c := ⟨_, 3, [2, 3, 3, 2411, 34282281433, 11290956913871, 46076956964474543]⟩)
      (by decide +kernel)
      ⟨by norm_num, by norm_num, by norm_num, by norm_num, h₁, h₃, h₄⟩
  have h₆ : Nat.Prime 835945042244614951780389953367877943453916927241 :=
    Lucas.prime (c := ⟨_, 11,
      [2, 2, 2, 3, 3, 3, 5, 774023187263532362759620327192479577272145303]⟩) (by decide +kernel)
      ⟨by norm_num, by norm_num, by norm_num, by norm_num, by norm_num, by norm_num, by norm_num, h₅⟩
  exact Lucas.prime (c := ⟨prime, 6, [2, 3, 5, 5, 17, 257, 641, 1531, 65537, 490463, 6700417,
      835945042244614951780389953367877943453916927241]⟩) (by decide +kernel)
    ⟨by norm_num, by norm_num, by norm_num, by norm_num, by norm_num, by norm_num, by norm_num,
      by norm_num, by norm_num, by norm_num, by norm_num, h₆⟩

instance : Fact prime.Prime := ⟨prime_prime⟩

abbrev Field := ZMod prime

theorem eq_of_cast_eq {a b : ℕ} (ha : a < prime) (hb : b < prime) (h : (a : Field) = b) : a = b := by
  rw [ZMod.natCast_eq_natCast_iff', Nat.mod_eq_of_lt ha, Nat.mod_eq_of_lt hb] at h
  exact h

theorem cast_eq_zero_iff {n : ℕ} (h : n < prime) : (n : Field) = 0 ↔ n = 0 := by
  constructor
  · intro hzero
    exact eq_of_cast_eq h prime_prime.pos (hzero.trans Nat.cast_zero.symm)
  · rintro rfl
    exact Nat.cast_zero

@[simp] theorem cast_mul (a b : ℕ) : (mul a b : Field) = a * b := by simp [mul]

@[simp] theorem cast_add (a b : ℕ) : (add a b : Field) = a + b := by simp [add]

@[simp] theorem cast_sub (a b : ℕ) : (sub a b : Field) = a - b := by
  have hle : b % prime ≤ prime := (Nat.mod_lt b prime_prime.pos).le
  simp [sub, Nat.cast_sub hle, sub_eq_add_neg]

theorem mul_lt (a b : ℕ) : mul a b < prime := Nat.mod_lt _ prime_prime.pos

theorem sub_lt (a b : ℕ) : sub a b < prime := Nat.mod_lt _ prime_prime.pos

theorem cast_cubic (x : ℕ) : (cubic x : Field) = x ^ 3 - 3 * x + coefficientB := by
  simp only [cubic, cast_add, cast_sub, cast_mul]
  push_cast
  ring

theorem cubic_lt (x : ℕ) : cubic x < prime := Nat.mod_lt _ prime_prime.pos

theorem onCurve_iff (x y : ℕ) : onCurve x y = true ↔ (y : Field) ^ 2 = cubic x := by
  rw [onCurve, beq_iff_eq]
  constructor
  · intro h
    rw [← h, cast_mul, pow_two]
  · intro h
    exact eq_of_cast_eq (mul_lt _ _) (cubic_lt _) (by rw [cast_mul, ← h, pow_two])

/-- The computed root of a square is one of its two roots. -/
theorem sqrt?_of_square {a y : ℕ} (h : (y : Field) ^ 2 = a) :
    ∃ r, sqrt? a = some r ∧ r < prime ∧ ((r : Field) = y ∨ (r : Field) = -y) := by
  have hroot : ((powMod prime a ((prime + 1) / 4) : ℕ) : Field) = y ^ ((prime + 1) / 2) := by
    rw [powMod_eq _ _ (by decide), ZMod.natCast_mod, Nat.cast_pow, ← h, ← pow_mul]
    rfl
  have hsquare : ((powMod prime a ((prime + 1) / 4) : ℕ) : Field) ^ 2 = (y : Field) ^ 2 := by
    have hexponent : (prime + 1) / 2 * 2 = prime + 1 := by decide
    rw [hroot, ← pow_mul, hexponent, pow_succ, ZMod.pow_card, pow_two]
  refine ⟨powMod prime a ((prime + 1) / 4), ?_, ?_, sq_eq_sq_iff_eq_or_eq_neg.1 hsquare⟩
  · rw [sqrt?, if_pos]
    apply eq_of_cast_eq (mul_lt _ _) (Nat.mod_lt _ prime_prime.pos)
    rw [cast_mul, ← pow_two, hsquare, h, ZMod.natCast_mod]
  · rw [powMod_eq _ _ (by decide)]
    exact Nat.mod_lt _ prime_prime.pos

theorem square_of_sqrt? {a r : ℕ} (h : sqrt? a = some r) : (r : Field) ^ 2 = a ∧ r < prime := by
  simp only [sqrt?] at h
  split_ifs at h with hr
  rw [Option.some.injEq] at h
  subst h
  constructor
  · rw [pow_two, ← cast_mul, hr, ZMod.natCast_mod]
  · rw [powMod_eq _ _ (by decide)]
    exact Nat.mod_lt _ prime_prime.pos

/-! ### The cubic has no root -/

/-- Polynomials of degree at most two, as remainders modulo the cubic. -/
structure Remainder where
  constant : ℕ
  linear : ℕ
  square : ℕ
  deriving DecidableEq

namespace Remainder

def mul (s t : Remainder) : Remainder :=
  let d₃ := s.linear * t.square + s.square * t.linear
  let d₄ := s.square * t.square
  ⟨(s.constant * t.constant + (prime - coefficientB) * d₃) % prime,
    (s.constant * t.linear + s.linear * t.constant + 3 * d₃ + (prime - coefficientB) * d₄) % prime,
    (s.constant * t.square + s.linear * t.linear + s.square * t.constant + 3 * d₄) % prime⟩

def powBits (s : Remainder) : (width : ℕ) → (e : ℕ) → Remainder
  | 0, _ => ⟨1, 0, 0⟩
  | width + 1, e =>
    let r := powBits s width (e / 2)
    if e % 2 = 1 then (r.mul r).mul s else r.mul r

def eval (s : Remainder) (x : Field) : Field := s.constant + s.linear * x + s.square * x ^ 2

theorem eval_mul (s t : Remainder) {x : Field} (h : x ^ 3 - 3 * x + coefficientB = 0) :
    (s.mul t).eval x = s.eval x * t.eval x := by
  have hsub : ((prime - coefficientB : ℕ) : Field) = -coefficientB := by
    rw [Nat.cast_sub (by decide), ZMod.natCast_self, zero_sub]
  simp only [eval, mul, ZMod.natCast_mod]
  push_cast
  rw [hsub]
  linear_combination (-(s.linear * t.square + s.square * t.linear : Field)
    - s.square * t.square * x) * h

theorem eval_powBits (s : Remainder) {x : Field} (h : x ^ 3 - 3 * x + coefficientB = 0)
    (width e : ℕ) : (s.powBits width e).eval x = s.eval x ^ (e % 2 ^ width) := by
  induction width generalizing e with
  | zero => simp [powBits, eval, Nat.mod_one]
  | succ width ih =>
    have hsplit : e % 2 ^ (width + 1) = 2 * (e / 2 % 2 ^ width) + e % 2 := by
      rw [pow_succ, mul_comm, Nat.mod_mul]
      omega
    rw [hsplit, powBits]
    split_ifs with hodd
    · rw [eval_mul _ _ h, eval_mul _ _ h, ih, hodd]
      ring
    · have heven : e % 2 = 0 := by omega
      rw [eval_mul _ _ h, ih, heven]
      ring

/-- The inverse, modulo the cubic, of the difference between the power of the unknown to the
order of the field and the unknown. -/
def inverse : Remainder :=
  ⟨0xa969487079f1744798bf0de6fded091b66e9d328eb0645fe5d979d1339b7f47f,
    0xa4a08891884100c13323460107a8d28eede4387fa3e6e9bfebec9f6d72d0b5cc,
    0x4cde11cf86cb876cd59cf0115813c55af0ecd3cda667d98bb9a347a56aa74a6d⟩

theorem inverse_mul :
    let r := (Remainder.mk 0 1 0).powBits 256 prime
    inverse.mul ⟨r.constant, r.linear + (prime - 1), r.square⟩ = ⟨1, 0, 0⟩ := by
  decide +kernel

end Remainder

theorem cubic_ne_zero (x : ℕ) : (cubic x : Field) ≠ 0 := by
  intro hroot
  rw [cast_cubic] at hroot
  set r := (Remainder.mk 0 1 0).powBits 256 prime with hr
  -- A root equals its power to the order of the field, and that power is `r` at the root.
  have hpower : r.eval x = (x : Field) := by
    rw [hr, Remainder.eval_powBits _ hroot, show prime % 2 ^ 256 = prime by decide]
    simp [Remainder.eval, ZMod.pow_card]
  have hdifference : (Remainder.mk r.constant (r.linear + (prime - 1)) r.square).eval (x : Field)
      = 0 := by
    have hone : ((prime - 1 : ℕ) : Field) = -1 := by
      rw [Nat.cast_sub (by decide), ZMod.natCast_self, Nat.cast_one, zero_sub]
    have hexpand : (Remainder.mk r.constant (r.linear + (prime - 1)) r.square).eval (x : Field)
        = r.eval x - x := by
      simp only [Remainder.eval]
      push_cast
      rw [hone]
      ring
    rw [hexpand, hpower, sub_self]
  have hproduct := Remainder.eval_mul Remainder.inverse
    ⟨r.constant, r.linear + (prime - 1), r.square⟩ hroot
  rw [Remainder.inverse_mul, hdifference, mul_zero] at hproduct
  simp [Remainder.eval] at hproduct

end MeasuredIdentity.P256
