import MeasuredIdentity.Curve.Key
import MeasuredIdentity.Hash.Hmac

/-!
ECDSA over P-256 with SHA-256. Nonces are deterministic: they come from the generator of RFC 6979
without additional data, which takes in the digest as it is, also where it is not below the order.
A signature keeps whichever of `s` and `order - s` the computation gives.
-/
namespace MeasuredIdentity.Ecdsa

open P256

structure Signature where
  r : Scalar
  s : Scalar
  deriving DecidableEq

def Signature.ofPair? (r s : Nat) : Option Signature := do
  return ⟨← Scalar.ofNat? r, ← Scalar.ofNat? s⟩

theorem Signature.ofPair?_isSome_iff (r s : Nat) :
    (ofPair? r s).isSome ↔ (0 < r ∧ r < order) ∧ 0 < s ∧ s < order := by
  rw [← Scalar.ofNat?_isSome_iff, ← Scalar.ofNat?_isSome_iff, ofPair?]
  cases Scalar.ofNat? r <;> cases Scalar.ofNat? s <;> simp

/-- A digest as a number modulo the order. -/
def digestScalar (digest : Digest) : Nat := digest.toNat % order

/-- The state of the nonce generator: the HMAC key and the last output. -/
structure NonceState where
  key : Bytes
  value : Bytes

namespace NonceState

/-- Mixes `data` into the key under a separator byte and steps the output. -/
def mix (st : NonceState) (separator : UInt8) (data : Bytes) : NonceState :=
  let key := (Hmac.mac st.key (st.value ++ separator :: data)).toList
  ⟨key, (Hmac.mac key st.value).toList⟩

def start (key : PrivateKey) (digest : Digest) : NonceState :=
  let data := key.toOctets.toList ++ digest.toList
  ((NonceState.mk (List.replicate 32 0) (List.replicate 32 1)).mix 0 data).mix 1 data

/-- The first of at most `attempts` outputs that lies strictly between zero and the order. -/
def search : (attempts : Nat) → NonceState → Option Scalar
  | 0, _ => none
  | attempts + 1, st =>
    let value := (Hmac.mac st.key st.value).toList
    match Scalar.ofNat? (Bytes.toNat value) with
    | some k => some k
    | none => search attempts (NonceState.mix ⟨st.key, value⟩ 0 [])

end NonceState

/-- An output misses the range with a probability of about 2⁻³². -/
def nonceAttempts : Nat := 64

def nonce? (key : PrivateKey) (digest : Digest) : Option Scalar :=
  NonceState.search nonceAttempts (NonceState.start key digest)

def signWith? (key : PrivateKey) (nonce : Scalar) (z : Nat) : Option Signature :=
  let r := nonce.publicKey.x % order
  let s := inverseMod order nonce.toNat * ((z + r * key.toNat) % order) % order
  Signature.ofPair? r s

def sign? (key : PrivateKey) (message : Bytes) : Option Signature := do
  let digest := sha256 message
  signWith? key (← nonce? key digest) (digestScalar digest)

def verifies (key : PublicKey) (message : Bytes) (signature : Signature) : Bool :=
  let w := inverseMod order signature.s.toNat
  let u₁ := digestScalar (sha256 message) * w % order
  let u₂ := signature.r.toNat * w % order
  let p := (Point.times u₁ Point.base).plus (Point.times u₂ key.toPoint)
  p.z != 0 && p.affine.1 % order == signature.r.toNat

end MeasuredIdentity.Ecdsa
