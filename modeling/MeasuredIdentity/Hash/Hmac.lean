import MeasuredIdentity.Hash.Sha256

/-!
HMAC with SHA-256, and the extract-and-expand key derivation (HKDF) built on it.
-/
namespace MeasuredIdentity

namespace Hmac

/-- A key longer than a block is hashed; the result is filled up with zeros to one block. -/
def blockKey (key : Bytes) : Bytes :=
  let k := if key.length ≤ 64 then key else (sha256 key).toList
  k ++ List.replicate (64 - k.length) 0

def mac (key message : Bytes) : Digest :=
  let k := blockKey key
  let inner := sha256 (k.map (· ^^^ 0x36) ++ message)
  sha256 (k.map (· ^^^ 0x5c) ++ inner.toList)

end Hmac

namespace Hkdf

/-- The longest output, 255 digests. -/
def maxLength : Nat := 255 * 32

def extract (salt keyMaterial : Bytes) : Digest := Hmac.mac salt keyMaterial

/-- `count` digests, each computed from the one before it and a one-byte counter. -/
def stream (key info : Bytes) : (count : Nat) → (counter : UInt8) → (previous : Bytes) → Bytes
  | 0, _, _ => []
  | count + 1, counter, previous =>
    let t := (Hmac.mac key (previous ++ info ++ [counter])).toList
    t ++ stream key info count (counter + 1) t

@[simp] theorem length_stream (key info : Bytes) (count : Nat) (counter : UInt8) (previous : Bytes) :
    (stream key info count counter previous).length = 32 * count := by
  induction count generalizing counter previous with
  | zero => rfl
  | succ count ih => simp [stream, ih]; omega

def expand (key info : Bytes) (length : Nat) : Option (Octets length) :=
  if length ≤ maxLength then
    some ⟨(stream key info ((length + 31) / 32) 1 []).take length, by simp; omega⟩
  else none

theorem expand_isSome_iff (key info : Bytes) (length : Nat) :
    (expand key info length).isSome ↔ length ≤ maxLength := by
  unfold expand; split <;> simp_all

/-- Extract, then expand. -/
def derive (salt keyMaterial info : Bytes) (length : Nat) : Option (Octets length) :=
  expand (extract salt keyMaterial).toList info length

end Hkdf

end MeasuredIdentity
