import MeasuredIdentity.Curve.P256

/-!
P-256 private keys as nonzero scalars and public keys as affine points, with their byte forms:
32 big-endian bytes for a scalar, and the SEC1 forms for a point.
-/
namespace MeasuredIdentity.P256

/-- A number strictly between zero and the order. -/
structure Scalar where
  toNat : Nat
  pos : 0 < toNat
  lt_order : toNat < order
  deriving DecidableEq

namespace Scalar

def ofNat? (n : Nat) : Option Scalar :=
  if h : 0 < n ∧ n < order then some ⟨n, h.1, h.2⟩ else none

theorem ofNat?_isSome_iff (n : Nat) : (ofNat? n).isSome ↔ 0 < n ∧ n < order := by
  unfold ofNat?; split <;> simp_all

/-- The big-endian bytes, leading zeros kept. -/
def toOctets (k : Scalar) : Octets 32 := Octets.ofNat 32 k.toNat

end Scalar

abbrev PrivateKey := Scalar

structure PublicKey where
  x : Nat
  y : Nat
  x_lt : x < prime
  y_lt : y < prime
  deriving DecidableEq

namespace PublicKey

def toPoint (key : PublicKey) : Point := ⟨key.x, key.y, 1⟩

/-- The uncompressed SEC1 form: the byte 4 and both coordinates. -/
def toOctets (key : PublicKey) : Octets 65 :=
  ⟨0x04 :: (Bytes.ofNat 32 key.x ++ Bytes.ofNat 32 key.y), by simp⟩

def ofAffine? (x y : Nat) : Option PublicKey :=
  if h : x < prime ∧ y < prime then
    if onCurve x y then some ⟨x, y, h.1, h.2⟩ else none
  else none

/-- The point with abscissa `x` whose ordinate is the computed root if `keep` accepts it, and
its negative otherwise. -/
def pick? (x : Nat) (keep : Nat → Bool) : Option PublicKey := do
  let y ← if x < prime then sqrt? (cubic x) else none
  ofAffine? x (if keep y then y else sub 0 y)

/-- Reads a point on the curve: uncompressed (4), compressed with an even (2) or odd (3)
ordinate, or compact (5), which stands for the smaller of the two ordinates. The point at
infinity and the hybrid forms are refused. -/
def ofSec1? : Bytes → Option PublicKey
  | [] => none
  | form :: coordinates =>
    if form = 0x04 ∧ coordinates.length = 64 then
      ofAffine? (Bytes.toNat (coordinates.take 32)) (Bytes.toNat (coordinates.drop 32))
    else if coordinates.length = 32 then
      let x := Bytes.toNat coordinates
      if form = 0x02 then pick? x fun y => y % 2 = 0
      else if form = 0x03 then pick? x fun y => y % 2 = 1
      else if form = 0x05 then pick? x fun y => y ≤ prime - y
      else none
    else none

end PublicKey

/-- The base point multiplied by a scalar. -/
def Scalar.publicKey (key : Scalar) : PublicKey :=
  let p := Point.times key.toNat Point.base
  ⟨p.affine.1, p.affine.2, p.affine_fst_lt, p.affine_snd_lt⟩

end MeasuredIdentity.P256
