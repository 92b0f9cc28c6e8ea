import Mathlib
import MeasuredIdentity.Curve.Key

/-!
Big-endian numbers: writing a number that fits and reading it back gives the number, so the bytes
of a scalar determine it.
-/
namespace MeasuredIdentity

namespace Bytes

theorem foldl_toNat (b : Bytes) (n : Nat) :
    b.foldl (fun n x => 256 * n + x.toNat) n = n * 256 ^ b.length + toNat b := by
  induction b generalizing n with
  | nil => simp [toNat]
  | cons x b ih =>
    rw [toNat, List.foldl_cons, List.foldl_cons, ih, ih (256 * 0 + x.toNat)]
    simp [Nat.pow_succ]
    grind

@[simp] theorem toNat_append (a b : Bytes) : toNat (a ++ b) = toNat a * 256 ^ b.length + toNat b := by
  rw [toNat, List.foldl_append, foldl_toNat]; rfl

@[simp] theorem toNat_singleton (x : UInt8) : toNat [x] = x.toNat := by simp [toNat]

theorem toNat_lt (b : Bytes) : toNat b < 256 ^ b.length := by
  induction b with
  | nil => simp [toNat]
  | cons x b ih =>
    have h : x :: b = [x] ++ b := rfl
    have hx := x.toNat_lt
    rw [h, toNat_append, toNat_singleton, List.length_append, List.length_singleton, Nat.pow_add]
    calc x.toNat * 256 ^ b.length + toNat b
        < x.toNat * 256 ^ b.length + 256 ^ b.length := by omega
      _ = (x.toNat + 1) * 256 ^ b.length := by rw [Nat.add_mul, Nat.one_mul]
      _ ≤ 256 ^ 1 * 256 ^ b.length := Nat.mul_le_mul_right _ (by omega)

theorem toNat_ofNat (width n : Nat) : toNat (ofNat width n) = n % 256 ^ width := by
  induction width generalizing n with
  | zero => simp [ofNat, toNat, Nat.mod_one]
  | succ width ih =>
    have byte : (UInt8.ofNat n).toNat = n % 256 := by simp
    rw [ofNat, toNat_append, toNat_singleton, ih, byte, List.length_singleton, Nat.pow_one]
    rw [Nat.pow_succ, Nat.mul_comm (256 ^ width) 256, Nat.mod_mul]
    omega

theorem toNat_ofNat_of_lt {width n : Nat} (h : n < 256 ^ width) : toNat (ofNat width n) = n := by
  rw [toNat_ofNat, Nat.mod_eq_of_lt h]

/-- The bytes of a number in the width that they have. -/
theorem ofNat_toNat (b : Bytes) : ofNat b.length (toNat b) = b := by
  induction b using List.reverseRecOn with
  | nil => rfl
  | append_singleton b x ih =>
    have hx := x.toNat_lt
    have byte : UInt8.ofNat (toNat (b ++ [x])) = x := by
      rw [toNat_append, toNat_singleton, List.length_singleton, pow_one, ← UInt8.toNat_inj,
        UInt8.toNat_ofNat']
      omega
    rw [List.length_append, List.length_singleton, ofNat, byte, toNat_append, toNat_singleton,
      List.length_singleton, pow_one, Nat.add_comm, Nat.add_mul_div_right _ _ (by decide),
      Nat.div_eq_of_lt (by omega), Nat.zero_add, ih]

end Bytes

namespace P256

theorem order_lt : order < 256 ^ 32 := by decide

theorem Scalar.toNat_toOctets (k : Scalar) : k.toOctets.toNat = k.toNat :=
  Bytes.toNat_ofNat_of_lt (Nat.lt_trans k.lt_order order_lt)

end P256

end MeasuredIdentity
