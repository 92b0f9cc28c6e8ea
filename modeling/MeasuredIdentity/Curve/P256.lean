import MeasuredIdentity.Bytes

/-!
The curve P-256: y² = x³ - 3x + b over the prime field, with points in Jacobian coordinates.
-/
namespace MeasuredIdentity.P256

/-- The field prime. -/
def prime : Nat := 0xffffffff00000001000000000000000000000000ffffffffffffffffffffffff

/-- The order of the base point. -/
def order : Nat := 0xffffffff00000000ffffffffffffffffbce6faada7179e84f3b9cac2fc632551

def coefficientB : Nat := 0x5ac635d8aa3a93e7b3ebbd55769886bc651d06b0cc53b0f63bce3c3e27d2604b

/-- The power of `base` modulo `m` to the `width` low-order bits of `e`, by repeated squaring. -/
def powBits (m base : Nat) : (width : Nat) → (e : Nat) → Nat
  | 0, _ => 1 % m
  | width + 1, e =>
    let r := powBits m base width (e / 2)
    if e % 2 = 1 then r * r % m * base % m else r * r % m

/-- The power modulo `m` to an exponent below 2²⁵⁶. -/
def powMod (m base e : Nat) : Nat := powBits m base 256 e

/-- The inverse modulo a prime, by Fermat's theorem; zero has the inverse zero. -/
def inverseMod (m a : Nat) : Nat := powMod m (a % m) (m - 2)

def mul (a b : Nat) : Nat := a * b % prime
def add (a b : Nat) : Nat := (a + b) % prime
def sub (a b : Nat) : Nat := (a + (prime - b % prime)) % prime

/-- The right-hand side of the curve equation at `x`. -/
def cubic (x : Nat) : Nat := add (sub (mul x (mul x x)) (mul 3 x)) coefficientB

def onCurve (x y : Nat) : Bool := mul y y == cubic x

/-- A square root, where there is one: the prime is 3 modulo 4. -/
def sqrt? (a : Nat) : Option Nat :=
  let r := powMod prime a ((prime + 1) / 4)
  if mul r r = a % prime then some r else none

/-- A point `(x / z², y / z³)`, or the point at infinity where `z` is zero. -/
structure Point where
  x : Nat
  y : Nat
  z : Nat
  deriving DecidableEq

namespace Point

def infinity : Point := ⟨1, 1, 0⟩

def base : Point :=
  ⟨0x6b17d1f2e12c4247f8bce6e563a440f277037d812deb33a0f4a13945d898c296,
   0x4fe342e2fe1a7f9b8ee7eb4a7c0f9e162bce33576b315ececbb6406837bf51f5, 1⟩

def double (p : Point) : Point :=
  let delta := mul p.z p.z
  let gamma := mul p.y p.y
  let beta := mul p.x gamma
  let alpha := mul 3 (mul (sub p.x delta) (add p.x delta))
  let x := sub (mul alpha alpha) (mul 8 beta)
  let z := sub (sub (mul (add p.y p.z) (add p.y p.z)) gamma) delta
  ⟨x, sub (mul alpha (sub (mul 4 beta) x)) (mul 8 (mul gamma gamma)), z⟩

def plus (p q : Point) : Point :=
  if p.z = 0 then q
  else if q.z = 0 then p
  else
    let zz₁ := mul p.z p.z
    let zz₂ := mul q.z q.z
    let u₁ := mul p.x zz₂
    let u₂ := mul q.x zz₁
    let s₁ := mul p.y (mul q.z zz₂)
    let s₂ := mul q.y (mul p.z zz₁)
    let h := sub u₂ u₁
    let r := sub s₂ s₁
    if h = 0 then
      if r = 0 then double p else infinity
    else
      let hh := mul h h
      let hhh := mul h hh
      let v := mul u₁ hh
      let x := sub (sub (mul r r) hhh) (mul 2 v)
      ⟨x, sub (mul r (sub v x)) (mul s₁ hhh), mul (mul p.z q.z) h⟩

/-- The multiple of `p` by the `width` low-order bits of `k`. -/
def timesBits (p : Point) : (width : Nat) → (k : Nat) → Point
  | 0, _ => infinity
  | width + 1, k =>
    let d := double (timesBits p width (k / 2))
    if k % 2 = 1 then plus d p else d

/-- The multiple of `p` by a number below 2²⁵⁶. -/
def times (k : Nat) (p : Point) : Point := timesBits p 256 k

/-- The affine coordinates; the point at infinity gives `(0, 0)`, which is not on the curve. -/
def affine (p : Point) : Nat × Nat :=
  let i := inverseMod prime p.z
  let ii := mul i i
  (mul p.x ii, mul p.y (mul i ii))

theorem affine_fst_lt (p : Point) : p.affine.1 < prime := Nat.mod_lt _ (by decide)
theorem affine_snd_lt (p : Point) : p.affine.2 < prime := Nat.mod_lt _ (by decide)

end Point

end MeasuredIdentity.P256
