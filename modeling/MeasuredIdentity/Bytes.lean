/-!
Byte strings, byte strings of a fixed length, and big-endian numbers.
-/
namespace MeasuredIdentity

abbrev Bytes := List UInt8

namespace Bytes

/-- The big-endian value of a byte string. -/
def toNat (b : Bytes) : Nat := b.foldl (fun n x => 256 * n + x.toNat) 0

/-- The `width` low-order bytes of `n`, most significant first. -/
def ofNat : Nat → Nat → Bytes
  | 0, _ => []
  | width + 1, n => ofNat width (n / 256) ++ [UInt8.ofNat n]

@[simp] theorem length_ofNat (width n : Nat) : (ofNat width n).length = width := by
  induction width generalizing n with
  | zero => rfl
  | succ width ih => simp [ofNat, ih]

end Bytes

/-- A byte string of exactly `n` bytes. -/
structure Octets (n : Nat) where
  toList : Bytes
  length_toList : toList.length = n := by simp
  deriving DecidableEq, Repr

namespace Octets

attribute [simp] Octets.length_toList

@[ext] theorem ext {n : Nat} {a b : Octets n} (h : a.toList = b.toList) : a = b := by
  cases a; cases b; cases h; rfl

def ofList? (n : Nat) (b : Bytes) : Option (Octets n) :=
  if h : b.length = n then some ⟨b, h⟩ else none

def ofNat (width n : Nat) : Octets width := ⟨Bytes.ofNat width n, by simp⟩

def toNat {n : Nat} (a : Octets n) : Nat := Bytes.toNat a.toList

/-- `n` copies of one byte. -/
def replicate (n : Nat) (x : UInt8) : Octets n := ⟨List.replicate n x, by simp⟩

end Octets

end MeasuredIdentity
