import MeasuredIdentity.Bytes
import MeasuredIdentity.Error

/-!
The unique device secret, as it lies in protected storage under a tag.
-/
namespace MeasuredIdentity

structure DeviceSecret where
  tag : UInt32
  bytes : Octets 32
  deriving DecidableEq

namespace DeviceSecret

/-- The tag of a secret that has been provisioned. -/
def provisioningTag : UInt32 := 0x00534455

def provisioned (bytes : Octets 32) : DeviceSecret := ⟨provisioningTag, bytes⟩

def validate (s : DeviceSecret) : Except Error Unit :=
  if s.tag = provisioningTag then .ok () else .error (.secretNotProvisioned s.tag)

/-- What is left of a record that has been wiped. -/
def wiped : DeviceSecret := ⟨0, .replicate 32 0⟩

end DeviceSecret

end MeasuredIdentity
