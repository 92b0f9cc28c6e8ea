import MeasuredIdentity.DeviceSecret
import MeasuredIdentity.Hash.Sha256

/-!
The measurement of the core image and the compound device identifier (CDI), which mixes it with
the secret of the device. The derivation works on a state that is cleared after every run.
-/
namespace MeasuredIdentity

/-- The smallest image that is measured. -/
def minMeasuredSize : Nat := 8

def zeroDigest : Digest := .replicate 32 0

/-- The compound device identifier. -/
structure Cdi where
  bytes : Digest
  deriving DecidableEq

namespace Cdi

def ofBytes (b : Bytes) : Except Error Cdi :=
  match Octets.ofList? 32 b with
  | some d => .ok ⟨d⟩
  | none => .error (.invalidCdi b.length)

def wiped : Cdi := ⟨zeroDigest⟩

end Cdi

/-- A running hash, as the bytes that it has taken in. -/
structure Hasher where
  absorbed : Bytes
  deriving DecidableEq

namespace Hasher

def fresh : Hasher := ⟨[]⟩

def update (h : Hasher) (b : Bytes) : Hasher := ⟨h.absorbed ++ b⟩

/-- The digest of what has been taken in; the hash starts afresh. -/
def finish (h : Hasher) : Digest × Hasher := (sha256 h.absorbed, fresh)

end Hasher

/-- The digests and the hash that a derivation works with. -/
structure MeasurementState where
  secretDigest : Digest
  coreDigest : Digest
  hasher : Hasher
  deriving DecidableEq

namespace MeasurementState

def clear : MeasurementState := ⟨zeroDigest, zeroDigest, .fresh⟩

/-- Overwrites both digests and replaces the hash by a fresh one. -/
def wipe (s : MeasurementState) : MeasurementState :=
  { s with secretDigest := zeroDigest, coreDigest := zeroDigest, hasher := .fresh }

@[simp] theorem wipe_eq_clear (s : MeasurementState) : s.wipe = clear := rfl

/-- Whether both digests are zero; the hash is not looked at. -/
def isClear (s : MeasurementState) : Bool :=
  (s.secretDigest.toList ++ s.coreDigest.toList).all (· == 0)

abbrev Step := ExceptT Error (StateM MeasurementState)

/-- Hashes a byte string with the hash of the state. -/
def digest (b : Bytes) : Step Digest := do
  let s ← get
  let (d, hasher) := (s.hasher.update b).finish
  set { s with hasher }
  return d

def measureCore (core : Bytes) : Step Unit := do
  if core.length < minMeasuredSize then throw (.coreImageTooSmall core.length)
  let d ← digest core
  modify ({ · with coreDigest := d })

/-- The digest of the secret's digest and the core's digest. The secret is never hashed together
with the image itself. -/
def derive (core : Bytes) (secret : DeviceSecret) : Step Cdi := do
  measureCore core
  secret.validate
  let d ← digest secret.bytes.toList
  modify ({ · with secretDigest := d })
  let s ← get
  return ⟨← digest (s.secretDigest.toList ++ s.coreDigest.toList)⟩

/-- Derives the identifier and wipes the state, whether that succeeds or not. -/
def computeCdi (core : Bytes) (secret : DeviceSecret) : Step Cdi :=
  ExceptT.mk do
    let result ← (derive core secret).run
    modify wipe
    return result

end MeasurementState

/-- The digest of an image. -/
def measure (image : Bytes) : Except Error Digest :=
  if image.length < minMeasuredSize then .error (.coreImageTooSmall image.length)
  else .ok (sha256 image)

/-- The identifier, derived with a new state. -/
def cdiOf (core : Bytes) (secret : DeviceSecret) : Except Error Cdi :=
  ((MeasurementState.computeCdi core secret).run.run MeasurementState.clear).1

end MeasuredIdentity
