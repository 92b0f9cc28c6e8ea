import MeasuredIdentity.Error
import MeasuredIdentity.Text.Buffer
import MeasuredIdentity.Text.Hex
import MeasuredIdentity.Text.Words

/-!
Registration ids name a device for the provisioning service. They are given, or made of the MAC
address of the device and the version of its firmware.
-/
namespace MeasuredIdentity

/-- The longest registration id; its buffer has as many bytes. -/
def maxIdLength : Nat := 128

/-- The longest registration id that is made from a MAC address and a version. -/
def maxGeneratedLength : Nat := 32

def isIdChar (c : Char) : Bool := ('a' ≤ c && c ≤ 'z') || ('0' ≤ c && c ≤ '9') || c == '-'

/-- The first character that cannot stand in a registration id, with its position. -/
def wrongIdChar? (s : List Char) : Option (Char × Nat) := s.zipIdx.find? fun x => !isIdChar x.1

theorem wrongIdChar?_eq_none_iff {s : List Char} : wrongIdChar? s = none ↔ s.all isIdChar := by
  rw [wrongIdChar?, List.find?_eq_none, List.all_eq_true]
  constructor
  · intro h c hc
    obtain ⟨i, hi⟩ := List.mem_iff_getElem?.1 hc
    simpa using h (c, i) (List.mk_mem_zipIdx_iff_getElem?.2 hi)
  · intro h x hx
    simpa using h x.1 (List.fst_mem_of_mem_zipIdx hx)

/-- One to 128 lower-case letters, digits and hyphens. -/
structure RegistrationId where
  text : String
  ne_nil : text.toList ≠ []
  length_le : text.toList.length ≤ maxIdLength
  all_chars : text.toList.all isIdChar
  deriving DecidableEq

/-- The number of digits of a MAC address. -/
def MacAddress.length : Nat := 12

/-- Twelve hexadecimal digits. -/
structure MacAddress where
  digits : List (Fin 16)
  length_digits : digits.length = MacAddress.length
  deriving DecidableEq

namespace MacAddress

/-- Takes digits in either case. Colons are passed over, wherever they stand. -/
def parse (s : String) : Except Error MacAddress :=
  match (s.toList.filter (· ≠ ':')).mapM Text.hexValue? with
  | none => .error .invalidMacAddress
  | some digits =>
    if h : digits.length = length then .ok ⟨digits, h⟩ else .error .invalidMacAddress

/-- The digits in lower case, without separators. -/
def text (m : MacAddress) : String := String.ofList (m.digits.map Text.hexChar)

end MacAddress

namespace FirmwareVersion

def isNumber (part : List Char) : Bool :=
  !part.isEmpty && part.all fun c => '0' ≤ c && c ≤ '9'

/-- Three numbers separated by dots, of at most 32 characters in all. -/
def isVersion (s : List Char) : Bool :=
  let parts := Text.pieces (· == '.') s
  parts.length == 3 && parts.all isNumber && s.length ≤ maxGeneratedLength

end FirmwareVersion

structure FirmwareVersion where
  text : String
  valid : FirmwareVersion.isVersion text.toList = true
  deriving DecidableEq

def FirmwareVersion.parse (s : String) : Except Error FirmwareVersion :=
  if h : isVersion s.toList = true then .ok ⟨s, h⟩ else .error .invalidFirmwareVersion

namespace RegistrationId

/-- Takes a text as it is. An empty text is refused first, then one that is too long, then one
with a wrong character, then one for which the buffer has no room. -/
def parse (s : String) : Except Error RegistrationId :=
  if hne : s.toList = [] then .error .emptyRegistrationId
  else if hlen : s.toList.length ≤ maxIdLength then
    match h : wrongIdChar? s.toList with
    | some (found, position) => .error (.invalidRegistrationIdChar position found)
    | none =>
      match Text.Buffer.ofString? maxIdLength s with
      | some _ => .ok ⟨s, hne, hlen, wrongIdChar?_eq_none_iff.1 h⟩
      | none => .error (.registrationIdTooLong s.toList.length maxIdLength)
  else .error (.registrationIdTooLong s.toList.length maxIdLength)

/-- Writes the letters `az`, a hyphen, the MAC address and a letter `v` to an empty buffer. -/
def writeFront? (mac : MacAddress) : Option (Text.Buffer maxIdLength) :=
  ["az-", mac.text, "v"].foldlM Text.Buffer.write? Text.Buffer.empty

/-- The letter `v` in the place of a dot. -/
def undotted (c : Char) : Char := if c = '.' then 'v' else c

/-- Writes a version, without its dots. -/
def writeVersion? (front : Text.Buffer maxIdLength) (version : FirmwareVersion) :
    Option (Text.Buffer maxIdLength) :=
  (version.text.toList.map undotted).foldlM Text.Buffer.push? front

/-- An id made of the MAC address and the version; it is validated like a given one. -/
def fromDevice (mac : MacAddress) (version : FirmwareVersion) : Except Error RegistrationId :=
  match writeFront? mac with
  | none => .error .invalidMacAddress
  | some front =>
    match writeVersion? front version with
    | none => .error .invalidFirmwareVersion
    | some id =>
      if maxGeneratedLength < id.text.utf8ByteSize then
        .error (.registrationIdTooLong id.text.utf8ByteSize maxGeneratedLength)
      else parse id.text

/-- The given text, or, where there is none or an empty one, an id made for the device. -/
def resolve (supplied : Option String) (mac version : String) : Except Error RegistrationId := do
  match supplied.filter (· ≠ "") with
  | some id => parse id
  | none => fromDevice (← MacAddress.parse mac) (← FirmwareVersion.parse version)

end RegistrationId

end MeasuredIdentity
