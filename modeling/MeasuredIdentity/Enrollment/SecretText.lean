import MeasuredIdentity.DeviceSecret
import MeasuredIdentity.Enrollment.Report
import MeasuredIdentity.Text.HexBytes
import MeasuredIdentity.Text.Utf8

/-!
The device secret as a user types it: 64 hexadecimal digits.
-/
namespace MeasuredIdentity.Enrollment

inductive SecretTextError where
  | empty
  | wrongLength (length : Nat)
  /-- The characters that are no digits, with their positions counted from one. -/
  | nonHex (found : List (Char × Nat))
  /-- The digits do not give the bytes of a secret. -/
  | undecodable (cause : Text.HexError)
  deriving DecidableEq, Repr

/-- The number of digits. -/
def secretTextLength : Nat := 64

namespace SecretTextError

def message : SecretTextError → String
  | .empty => "UDS can not be empty"
  | .wrongLength length =>
    "UDS must be " ++ toString secretTextLength ++ " hex characters but the input is "
      ++ toString length ++ " characters long"
  | .nonHex found => "UDS contains " ++ toString found.length ++ " non hex characters"
  | .undecodable _ => "invalid UDS hex string"

/-- One line for each character that is no digit. -/
def log : SecretTextError → List String
  | .nonHex found => found.map fun (c, position) =>
    "UDS character " ++ toString position ++ " (" ++ Text.quotedChar c ++ ") is not a hex digit"
  | _ => []

def cause? : SecretTextError → Option Cause
  | .undecodable cause => some (.other cause.message)
  | _ => none

def report (e : SecretTextError) : Report := ⟨e.message, e.cause?⟩

end SecretTextError

/-- The characters that are no digits, with their positions counted from one. -/
def nonHexChars (s : List Char) : List (Char × Nat) :=
  (s.zipIdx 1).filter fun x => (Text.hexValue? x.1).isNone

/-- Reads a secret. All characters that are no digits are reported together, and only digits are
decoded. -/
def parseSecret (s : String) : Except SecretTextError DeviceSecret :=
  if s.toList = [] then .error .empty
  else if s.toList.length = secretTextLength then
    match nonHexChars s.toList with
    | [] =>
      match Text.decodeHex 32 (Text.Utf8.encode s) with
      | .ok bytes => .ok (.provisioned bytes)
      | .error cause => .error (.undecodable cause)
    | found => .error (.nonHex found)
  else .error (.wrongLength s.toList.length)

end MeasuredIdentity.Enrollment
