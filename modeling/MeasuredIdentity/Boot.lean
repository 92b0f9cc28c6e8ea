import MeasuredIdentity.Credentials

/-!
The boot of a device: the secret and the core image give the compound device identifier, and only
then is the firmware image looked at.
-/
namespace MeasuredIdentity

/-- Access to the secret and the two images of a device. -/
structure Platform (m : Type → Type) where
  loadSecret : m (Except Error DeviceSecret)
  coreImage : m Bytes
  firmwareImage : m Bytes

namespace Platform

/-- The credentials for an identifier and the firmware image of a platform. -/
def identify {m : Type → Type} [Monad m] (platform : Platform m) (cdi : Cdi)
    (id : RegistrationId) (policy : IssuePolicy) : ExceptT Error m Credentials := do
  credentialsOf cdi id (← platform.firmwareImage) policy

end Platform

/-- The credentials that a platform boots with. -/
def boot {m : Type → Type} [Monad m] (platform : Platform m) (id : RegistrationId)
    (policy : IssuePolicy) : ExceptT Error m Credentials := do
  let secret ← ExceptT.mk platform.loadSecret
  secret.validate
  let cdi ← cdiOf (← platform.coreImage) secret
  platform.identify cdi id policy

namespace Platform

/-- A platform that holds its secret and images in memory. -/
def inMemory (secret : Except Error DeviceSecret) (core firmware : Bytes) : Platform Id :=
  ⟨secret, core, firmware⟩

/-- How often each image has been asked for. -/
structure ReadCounts where
  core : Nat := 0
  firmware : Nat := 0
  deriving DecidableEq, Repr

/-- A boot that counts its reads. -/
abbrev Counting := ExceptT Error (StateM ReadCounts)

/-- The same platform, counting its reads. -/
def counted {m : Type → Type} [Monad m] (p : Platform m) : Platform (StateT ReadCounts m) where
  loadSecret := liftM p.loadSecret
  coreImage := do
    modify fun n => { n with core := n.core + 1 }
    liftM p.coreImage
  firmwareImage := do
    modify fun n => { n with firmware := n.firmware + 1 }
    liftM p.firmwareImage

end Platform

/-- The credentials of a secret and two images in memory. -/
def bootInMemory (secret : DeviceSecret) (core firmware : Bytes) (id : RegistrationId)
    (policy : IssuePolicy) : Except Error Credentials :=
  (boot (Platform.inMemory (.ok secret) core firmware) id policy).run

end MeasuredIdentity
