import MeasuredIdentity.Proofs.PrimeField

/-!
The points of the curve as a group. The formulas for points in Jacobian coordinates compute its
sums, without an exception, so repeated doubling computes its multiples.
-/
namespace MeasuredIdentity.P256

open WeierstrassCurve

/-- The curve over its field. -/
def curve : Affine Field := ⟨0, 0, 0, -3, coefficientB⟩

theorem discriminant_ne_zero : curve.Δ ≠ 0 := by
  have hcast : curve.Δ = ((16 * 4 * 27 : ℕ) : Field) - ((432 * coefficientB ^ 2 : ℕ) : Field) := by
    simp only [curve, Δ, b₂, b₄, b₆, b₈]
    push_cast
    ring
  rw [hcast, sub_ne_zero, ne_eq, ZMod.natCast_eq_natCast_iff']
  decide +kernel

/-- Every solution of the equation is a point of the group. -/
theorem nonsingular_iff {x y : Field} :
    curve.Nonsingular x y ↔ y ^ 2 = x ^ 3 - 3 * x + coefficientB := by
  rw [← Affine.equation_iff_nonsingular_of_Δ_ne_zero discriminant_ne_zero, Affine.equation_iff]
  simp only [curve]
  constructor <;> intro h <;> linear_combination h

theorem onCurve_iff_nonsingular (x y : ℕ) : onCurve x y = true ↔ curve.Nonsingular x y := by
  rw [onCurve_iff, cast_cubic, nonsingular_iff]

theorem negY_eq (x y : Field) : curve.negY x y = -y := by
  simp only [Affine.negY, curve]
  ring

theorem two_ne_zero_field : (2 : Field) ≠ 0 := by
  have h : ((2 : ℕ) : Field) ≠ 0 := mt (cast_eq_zero_iff (by decide)).1 two_ne_zero
  exact_mod_cast h

theorem ne_negY {x y : Field} (hy : y ≠ 0) : y ≠ curve.negY x y := by
  rw [negY_eq]
  intro heq
  exact mul_ne_zero two_ne_zero_field hy (by linear_combination heq)

/-- The slope of a tangent. -/
theorem slope_self_mul {x y : Field} (hy : y ≠ 0) :
    curve.slope x x y y * (2 * y) = 3 * (x - 1) * (x + 1) := by
  rw [Affine.slope_of_Y_ne rfl (ne_negY hy), negY_eq, sub_neg_eq_add, ← two_mul,
    div_mul_cancel₀ _ (mul_ne_zero two_ne_zero_field hy)]
  simp only [curve]
  ring

/-- The slope of a chord. -/
theorem slope_mul_sub {x₁ x₂ : Field} (hx : x₁ ≠ x₂) (y₁ y₂ : Field) :
    curve.slope x₁ x₂ y₁ y₂ * (x₂ - x₁) = y₂ - y₁ := by
  rw [Affine.slope_of_X_ne hx, ← neg_sub x₁, mul_neg, div_mul_cancel₀ _ (sub_ne_zero.2 hx), neg_sub]

/-- The curve's points with the point at infinity. -/
abbrev Group := curve.Point

namespace Point

/-- A point stands for an element of the group: its coordinates are those of the element, scaled by
powers of `z`, and `z` is zero at infinity only. -/
inductive Represents (p : Point) : Group → Prop
  | infinity (hz : p.z = 0) : Represents p .zero
  | finite {x y : Field} (h : curve.Nonsingular x y) (hlt : p.z < prime) (hz : (p.z : Field) ≠ 0)
      (hx : (p.x : Field) = x * p.z ^ 2) (hy : (p.y : Field) = y * p.z ^ 3) :
      Represents p (.some x y h)

theorem represents_infinity : infinity.Represents 0 := .infinity rfl

theorem Represents.z_eq_zero_iff {p : Point} {g : Group} (h : p.Represents g) :
    p.z = 0 ↔ g = 0 := by
  cases h with
  | infinity hz => exact iff_of_true hz rfl
  | finite h hlt hz => exact iff_of_false (mt (cast_eq_zero_iff hlt).2 hz) (Affine.Point.some_ne_zero h)

/-! ### Doubling -/

theorem cast_double_z (p : Point) : (p.double.z : Field) = 2 * p.y * p.z := by
  simp only [double, cast_sub, cast_mul, cast_add]
  ring

theorem cast_double_x (p : Point) :
    (p.double.x : Field) = (3 * (p.x - p.z ^ 2) * (p.x + p.z ^ 2)) ^ 2 - 8 * p.x * p.y ^ 2 := by
  simp only [double, cast_sub, cast_mul, cast_add]
  push_cast
  ring

theorem cast_double_y (p : Point) :
    (p.double.y : Field) = 3 * (p.x - p.z ^ 2) * (p.x + p.z ^ 2) * (4 * p.x * p.y ^ 2 - p.double.x)
      - 8 * p.y ^ 4 := by
  rw [cast_double_x]
  simp only [double, cast_sub, cast_mul, cast_add]
  push_cast
  ring

theorem double_z_eq_zero_iff {p : Point} : p.double.z = 0 ↔ 2 * (p.y : Field) * p.z = 0 := by
  have hlt : p.double.z < prime := sub_lt _ _
  rw [← cast_eq_zero_iff hlt, cast_double_z]

variable {p q : Point} {g h : Group}

theorem Represents.double (hp : p.Represents g) : p.double.Represents (g + g) := by
  cases hp with
  | infinity hz =>
    rw [← Affine.Point.zero_def, add_zero]
    exact .infinity (double_z_eq_zero_iff.2 (by rw [hz, Nat.cast_zero, mul_zero]))
  | @finite x y hxy hlt hz hx hy =>
    by_cases hzero : y = 0
    · -- A point that is its own negative would be doubled to the point at infinity.
      rw [Affine.Point.add_self_of_Y_eq (by rw [negY_eq, hzero, neg_zero])]
      exact .infinity (double_z_eq_zero_iff.2 (by rw [hy, hzero, zero_mul, mul_zero, zero_mul]))
    · have hz' : (p.double.z : Field) = 2 * y * p.z ^ 4 := by
        rw [cast_double_z, hy]
        ring
      have halpha : 3 * ((p.x : Field) - p.z ^ 2) * (p.x + p.z ^ 2) =
          curve.slope x x y y * (2 * y) * p.z ^ 4 := by
        rw [slope_self_mul hzero, hx]
        ring
      rw [Affine.Point.add_self_of_Y_ne (ne_negY hzero)]
      refine .finite _ (sub_lt _ _) ?_ ?_ ?_
      · rw [hz']
        exact mul_ne_zero (mul_ne_zero two_ne_zero_field hzero) (pow_ne_zero 4 hz)
      · rw [hz', cast_double_x, halpha, hx, hy, Affine.addX]
        simp only [curve]
        ring
      · rw [hz', cast_double_y, cast_double_x, halpha, hx, hy, Affine.addY, Affine.negAddY,
          negY_eq, Affine.addX]
        simp only [curve]
        ring

/-! ### Addition -/

/-- The difference of the abscissas of two points, on their common scale. -/
def chordX (p q : Point) : ℕ := sub (mul q.x (mul p.z p.z)) (mul p.x (mul q.z q.z))

/-- The difference of the ordinates of two points, on their common scale. -/
def chordY (p q : Point) : ℕ :=
  sub (mul q.y (mul p.z (mul p.z p.z))) (mul p.y (mul q.z (mul q.z q.z)))

/-- The sum of two points with different abscissas. -/
def chord (p q : Point) : Point :=
  let hh := mul (chordX p q) (chordX p q)
  let hhh := mul (chordX p q) hh
  let v := mul (mul p.x (mul q.z q.z)) hh
  let x := sub (sub (mul (chordY p q) (chordY p q)) hhh) (mul 2 v)
  ⟨x, sub (mul (chordY p q) (sub v x)) (mul (mul p.y (mul q.z (mul q.z q.z))) hhh),
    mul (mul p.z q.z) (chordX p q)⟩

theorem plus_eq (p q : Point) : p.plus q =
    if p.z = 0 then q
    else if q.z = 0 then p
    else if chordX p q = 0 then if chordY p q = 0 then p.double else infinity
    else chord p q := rfl

section Chord

variable {x₁ y₁ x₂ y₂ : Field} (hx₁ : (p.x : Field) = x₁ * p.z ^ 2)
  (hy₁ : (p.y : Field) = y₁ * p.z ^ 3) (hx₂ : (q.x : Field) = x₂ * q.z ^ 2)
  (hy₂ : (q.y : Field) = y₂ * q.z ^ 3)

include hx₁ hx₂ in
theorem cast_chordX : (chordX p q : Field) = (x₂ - x₁) * (p.z * q.z) ^ 2 := by
  simp only [chordX, cast_sub, cast_mul, hx₁, hx₂]
  ring

include hy₁ hy₂ in
theorem cast_chordY : (chordY p q : Field) = (y₂ - y₁) * (p.z * q.z) ^ 3 := by
  simp only [chordY, cast_sub, cast_mul, hy₁, hy₂]
  ring

include hx₁ hx₂ in
theorem chordX_eq_zero_iff (hscale : (p.z * q.z : Field) ≠ 0) : chordX p q = 0 ↔ x₁ = x₂ := by
  have hlt : chordX p q < prime := sub_lt _ _
  rw [← cast_eq_zero_iff hlt, cast_chordX hx₁ hx₂, mul_eq_zero,
    or_iff_left (pow_ne_zero 2 hscale), sub_eq_zero, eq_comm]

include hy₁ hy₂ in
theorem chordY_eq_zero_iff (hscale : (p.z * q.z : Field) ≠ 0) : chordY p q = 0 ↔ y₁ = y₂ := by
  have hlt : chordY p q < prime := sub_lt _ _
  rw [← cast_eq_zero_iff hlt, cast_chordY hy₁ hy₂, mul_eq_zero,
    or_iff_left (pow_ne_zero 3 hscale), sub_eq_zero, eq_comm]

include hx₁ hx₂ in
theorem cast_chord_z : ((chord p q).z : Field) = (x₂ - x₁) * (p.z * q.z) ^ 3 := by
  simp only [chord, cast_mul, cast_chordX hx₁ hx₂]
  ring

include hx₁ hy₁ hx₂ hy₂

theorem cast_chord_x {l : Field} (hl : l * (x₂ - x₁) = y₂ - y₁) :
    ((chord p q).x : Field) = (l ^ 2 - x₁ - x₂) * (chord p q).z ^ 2 := by
  rw [cast_chord_z hx₁ hx₂]
  simp only [chord, cast_sub, cast_mul, cast_chordX hx₁ hx₂, cast_chordY hy₁ hy₂, ← hl, hx₁]
  push_cast
  ring

theorem cast_chord_y {l : Field} (hl : l * (x₂ - x₁) = y₂ - y₁) : ((chord p q).y : Field) =
    (l * (x₁ - (l ^ 2 - x₁ - x₂)) - y₁) * (chord p q).z ^ 3 := by
  have hy : ((chord p q).y : Field) = chordY p q * (p.x * q.z ^ 2 * chordX p q ^ 2 - (chord p q).x)
      - p.y * q.z ^ 3 * chordX p q ^ 3 := by
    simp only [chord, cast_sub, cast_mul]
    ring
  rw [hy, cast_chord_x hx₁ hy₁ hx₂ hy₂ hl, cast_chord_z hx₁ hx₂, cast_chordX hx₁ hx₂,
    cast_chordY hy₁ hy₂, ← hl, hx₁, hy₁]
  ring

/-- The sum of two finite points with different abscissas is on the chord through them. -/
theorem represents_chord (hscale : (p.z * q.z : Field) ≠ 0) (hx : x₁ ≠ x₂)
    (hxy₁ : curve.Nonsingular x₁ y₁) (hxy₂ : curve.Nonsingular x₂ y₂) :
    (chord p q).Represents (.some x₁ y₁ hxy₁ + .some x₂ y₂ hxy₂) := by
  have hl := slope_mul_sub hx y₁ y₂
  rw [Affine.Point.add_of_X_ne hx]
  refine .finite _ (mul_lt _ _) ?_ ?_ ?_
  · rw [cast_chord_z hx₁ hx₂]
    exact mul_ne_zero (sub_ne_zero.2 (Ne.symm hx)) (pow_ne_zero 3 hscale)
  · rw [cast_chord_x hx₁ hy₁ hx₂ hy₂ hl, Affine.addX]
    simp only [curve]
    ring
  · rw [cast_chord_y hx₁ hy₁ hx₂ hy₂ hl, Affine.addY, Affine.negAddY, negY_eq, Affine.addX]
    simp only [curve]
    ring

end Chord

theorem Represents.plus (hp : p.Represents g) (hq : q.Represents h) :
    (p.plus q).Represents (g + h) := by
  rw [plus_eq]
  cases hp with
  | infinity hz =>
    rw [if_pos hz, ← Affine.Point.zero_def, zero_add]
    exact hq
  | @finite x₁ y₁ hxy₁ hlt₁ hz₁ hx₁ hy₁ =>
    have hp : p.Represents (.some x₁ y₁ hxy₁) := .finite hxy₁ hlt₁ hz₁ hx₁ hy₁
    rw [if_neg (mt (cast_eq_zero_iff hlt₁).2 hz₁)]
    cases hq with
    | infinity hz =>
      rw [if_pos hz, ← Affine.Point.zero_def, add_zero]
      exact hp
    | @finite x₂ y₂ hxy₂ hlt₂ hz₂ hx₂ hy₂ =>
      have hscale : (p.z * q.z : Field) ≠ 0 := mul_ne_zero hz₁ hz₂
      have hX := chordX_eq_zero_iff hx₁ hx₂ hscale
      have hY := chordY_eq_zero_iff hy₁ hy₂ hscale
      rw [if_neg (mt (cast_eq_zero_iff hlt₂).2 hz₂)]
      by_cases hx : x₁ = x₂
      · subst hx
        rw [if_pos (hX.2 rfl)]
        by_cases hy : y₁ = y₂
        · subst hy
          rw [if_pos (hY.2 rfl)]
          exact hp.double
        · rw [if_neg (mt hY.1 hy), Affine.Point.add_of_Y_eq rfl
            ((Affine.Y_eq_of_X_eq hxy₁.1 hxy₂.1 rfl).resolve_left hy)]
          exact represents_infinity
      · rw [if_neg (mt hX.1 hx)]
        exact represents_chord hx₁ hy₁ hx₂ hy₂ hscale hx hxy₁ hxy₂

/-! ### Multiples -/

theorem Represents.timesBits (hp : p.Represents g) (width k : ℕ) :
    (p.timesBits width k).Represents ((k % 2 ^ width) • g) := by
  induction width generalizing k with
  | zero =>
    rw [pow_zero, Nat.mod_one, zero_nsmul]
    exact represents_infinity
  | succ width ih =>
    have hsplit : k % 2 ^ (width + 1) = k / 2 % 2 ^ width + k / 2 % 2 ^ width + k % 2 := by
      rw [pow_succ, mul_comm, Nat.mod_mul]
      omega
    have hdouble := (ih (k / 2)).double
    rw [hsplit, add_nsmul, add_nsmul, Point.timesBits]
    rcases Nat.mod_two_eq_zero_or_one k with heven | hodd
    · rw [heven, zero_nsmul, add_zero, if_neg zero_ne_one]
      exact hdouble
    · rw [hodd, one_nsmul, if_pos rfl]
      exact hdouble.plus hp

theorem Represents.times (hp : p.Represents g) {k : ℕ} (hk : k < 2 ^ 256) :
    (times k p).Represents (k • g) := by
  have h := hp.timesBits 256 k
  rwa [Nat.mod_eq_of_lt hk] at h

/-! ### Affine coordinates -/

theorem cast_affine (p : Point) : (p.affine.1 : Field) = p.x * (p.z : Field)⁻¹ ^ 2 ∧
    (p.affine.2 : Field) = p.y * (p.z : Field)⁻¹ ^ 3 := by
  simp only [affine, cast_mul, cast_inverseMod (show 2 < prime by decide) (by decide)]
  constructor <;> ring

theorem Represents.affine {x y : Field} {hxy : curve.Nonsingular x y}
    (hp : p.Represents (.some x y hxy)) : (p.affine.1 : Field) = x ∧ (p.affine.2 : Field) = y := by
  cases hp with
  | finite _ _ hz hx hy =>
    obtain ⟨hx', hy'⟩ := p.cast_affine
    rw [hx', hy', hx, hy]
    constructor
    · rw [mul_assoc, ← mul_pow, mul_inv_cancel₀ hz, one_pow, mul_one]
    · rw [mul_assoc, ← mul_pow, mul_inv_cancel₀ hz, one_pow, mul_one]

theorem one_lt_prime : 1 < prime := by decide

/-- The affine coordinates with the scale one stand for the same element. -/
theorem Represents.mk_affine (hp : p.Represents g) (hg : g ≠ 0) :
    Represents ⟨p.affine.1, p.affine.2, 1⟩ g := by
  rcases g with _ | ⟨x, y, hxy⟩
  · exact absurd rfl hg
  · obtain ⟨hx, hy⟩ := hp.affine
    refine .finite hxy one_lt_prime ?_ ?_ ?_
    · rw [Nat.cast_one]
      exact one_ne_zero
    · rw [hx, Nat.cast_one, one_pow, mul_one]
    · rw [hy, Nat.cast_one, one_pow, mul_one]

/-- Points for one element have the same affine coordinates, and these are on the curve. -/
theorem Represents.affine_eq (hp : p.Represents g) (hq : q.Represents g) (hg : g ≠ 0) :
    p.affine = q.affine ∧ onCurve p.affine.1 p.affine.2 = true := by
  rcases g with _ | ⟨x, y, hxy⟩
  · exact absurd rfl hg
  · obtain ⟨hx, hy⟩ := hp.affine
    obtain ⟨hx', hy'⟩ := hq.affine
    refine ⟨Prod.ext ?_ ?_, ?_⟩
    · exact eq_of_cast_eq p.affine_fst_lt q.affine_fst_lt (hx.trans hx'.symm)
    · exact eq_of_cast_eq p.affine_snd_lt q.affine_snd_lt (hy.trans hy'.symm)
    · rw [onCurve_iff_nonsingular, hx, hy]
      exact hxy

end Point

end MeasuredIdentity.P256
