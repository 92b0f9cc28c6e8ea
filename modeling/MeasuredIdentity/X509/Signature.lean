import MeasuredIdentity.Curve.Ecdsa
import MeasuredIdentity.Der.Primitive
import MeasuredIdentity.Error

/-!
ECDSA signatures as a sequence of two integers.
-/
namespace MeasuredIdentity.X509

open Der

/-- A number below 2²⁵⁶ as an integer. -/
def uintOfNat (n : Nat) : Uint := Uint.ofBytes (Bytes.ofNat 32 n)

def encodeSignature (s : Ecdsa.Signature) : Bytes :=
  element .sequence ((uintOfNat s.r.toNat).encode ++ (uintOfNat s.s.toNat).encode)

/-- The two integers of an encoded signature, each of at most 32 bytes. -/
def decodeSignaturePair : Decoder (Nat × Nat) := inside .sequence do
  let r ← Uint.decode
  let s ← Uint.decode
  Decoder.check (r.magnitude.length ≤ 32 ∧ s.magnitude.length ≤ 32)
  return (r.toNat, s.toNat)

/-- Signs bytes; a device holds one such function for its key. -/
abbrev Signer := Bytes → Except Error Ecdsa.Signature

def signerOf (key : P256.PrivateKey) : Signer := fun message =>
  match Ecdsa.sign? key message with
  | some s => .ok s
  | none => .error .signature

theorem signerOf_eq_ok_iff {key : P256.PrivateKey} {message : Bytes} {s : Ecdsa.Signature} :
    signerOf key message = .ok s ↔ Ecdsa.sign? key message = some s := by
  -- Unfolded at a message, the signer would be evaluated there, so it is unfolded as a function.
  have hsigner : signerOf key = fun message => match Ecdsa.sign? key message with
    | some s => .ok s
    | none => .error .signature := rfl
  simp only [hsigner]
  cases Ecdsa.sign? key message <;> simp

end MeasuredIdentity.X509
