import MeasuredIdentity.Bytes
import MeasuredIdentity.Enrollment.LinkMap

/-!
The two measured images as ranges of a firmware binary. The binary starts at the origin of the
flash memory, and symbols of the linker stand at both ends of each range.
-/
namespace MeasuredIdentity.Enrollment

inductive LayoutError where
  | symbolMissing (name : String)
  | noFlashRegion
  | reversed (image : String) (start stop : UInt64)
  | belowOrigin (image : String) (address origin : UInt64)
  | pastEnd (image : String) (first last : UInt64) (size : Nat)
  deriving DecidableEq, Repr

namespace LayoutError

def message : LayoutError → String
  | .symbolMissing name => "symbol " ++ name ++ " not found in the map file"
  | .noFlashRegion => "no FLASH region in the map Memory Configuration"
  | .reversed name start stop =>
    name ++ " ends at " ++ Text.hex stop.toNat ++ ", before its start " ++ Text.hex start.toNat
  | .belowOrigin name address origin =>
    name ++ " address " ++ Text.hex address.toNat ++ " is below the flash origin "
      ++ Text.hex origin.toNat
  | .pastEnd name first last size =>
    name ++ " spans file offsets " ++ Text.hex first.toNat ++ ".." ++ Text.hex last.toNat
      ++ ", past the " ++ toString size ++ " byte binary"

end LayoutError

namespace LinkMap

def symbol (m : LinkMap) (name : String) : Except LayoutError UInt64 :=
  match m.symbol? name with
  | some address => .ok address
  | none => .error (.symbolMissing name)

def origin (m : LinkMap) : Except LayoutError UInt64 :=
  match m.flashOrigin with
  | some origin => .ok origin
  | none => .error .noFlashRegion

end LinkMap

def offset (name : String) (origin address : UInt64) : Except LayoutError UInt64 :=
  if origin ≤ address then .ok (address - origin) else .error (.belowOrigin name address origin)

/-- The bytes of a binary between two addresses. -/
def cutSection (binary : Bytes) (name : String) (origin start stop : UInt64) :
    Except LayoutError Bytes := do
  if stop < start then throw (.reversed name start stop)
  let first ← offset name origin start
  let last ← offset name origin stop
  if binary.length < last.toNat then throw (.pastEnd name first last binary.length)
  return (binary.drop first.toNat).take (last.toNat - first.toNat)

/-- The two images of a device. -/
structure Images where
  core : Bytes
  firmware : Bytes
  deriving DecidableEq

namespace Images

def coreStart : String := "__start_riot_core"
def coreStop : String := "__stop_riot_core"
def firmwareStart : String := "__start_riot_fw"
def firmwareStop : String := "__stop_riot_fw"
def coreName : String := "RIoT Core"
def firmwareName : String := "RIoT Firmware"

/-- Cuts both images out of a binary. -/
def cut (binary : Bytes) (map : LinkMap) : Except LayoutError Images := do
  let coreFirst ← map.symbol coreStart
  let coreLast ← map.symbol coreStop
  let firmwareFirst ← map.symbol firmwareStart
  let firmwareLast ← map.symbol firmwareStop
  let origin ← map.origin
  return ⟨← cutSection binary coreName origin coreFirst coreLast,
    ← cutSection binary firmwareName origin firmwareFirst firmwareLast⟩

end Images

end MeasuredIdentity.Enrollment
