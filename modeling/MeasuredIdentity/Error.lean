import MeasuredIdentity.Text.Quoted

/-!
Everything that can go wrong on the way from a device secret to its credentials, and the wording
of each cause.
-/
namespace MeasuredIdentity

/-- Why a value has no DER encoding, or bytes are not the encoding of a value. -/
inductive DerError where
  | overlength
  | utcTimeRange
  | dateTime
  | malformedOid
  | malformed
  deriving DecidableEq, Repr

def DerError.message : DerError → String
  | .overlength => "ASN.1 DER message is too long"
  | .utcTimeRange => "malformed ASN.1 DER value for UTCTime"
  | .dateTime => "date/time error"
  | .malformedOid => "malformed OID"
  | .malformed => "malformed ASN.1 DER value"

/-- Why a PEM text cannot be written or read. -/
inductive PemError where
  | label
  | length
  | base64Length
  | boundary
  deriving DecidableEq, Repr

def PemError.message : PemError → String
  | .label => "PEM type label invalid"
  | .length => "PEM length invalid"
  | .base64Length => "PEM Base64 error: invalid Base64 length"
  | .boundary => "PEM error in encapsulation boundary"

inductive Error where
  /-- The tag of the secret is not the provisioning tag. -/
  | secretNotProvisioned (tag : UInt32)
  /-- The core image is too small to be measured. -/
  | coreImageTooSmall (size : Nat)
  /-- The compound device identifier has not the length of a digest. -/
  | invalidCdi (length : Nat)
  | emptyRegistrationId
  | registrationIdTooLong (length max : Nat)
  /-- The position counts from zero. -/
  | invalidRegistrationIdChar (position : Nat) (found : Char)
  | invalidMacAddress
  | invalidFirmwareVersion
  /-- More output was asked for than the key expansion gives. -/
  | invalidExpansion
  /-- No candidate was a private key. -/
  | keyDerivationExhausted
  | invalidDer (cause : DerError)
  | signature
  | pem (cause : PemError)
  | pemTooLarge (needed max : Nat)
  deriving DecidableEq, Repr

def Error.message : Error → String
  | .secretNotProvisioned tag =>
    "unique device secret not provisioned (tag " ++ Text.paddedHex 8 tag.toNat ++ ")"
  | .coreImageTooSmall size => "RIoT Core image too small (" ++ toString size ++ " bytes)"
  | .invalidCdi length => "invalid CDI length " ++ toString length
  | .emptyRegistrationId => "registration id is empty"
  | .registrationIdTooLong length max =>
    "registration id is " ++ toString length ++ " characters long, maximum is " ++ toString max
  | .invalidRegistrationIdChar position found =>
    "registration id character " ++ toString (position + 1) ++ " (" ++ Text.quotedChar found
      ++ ") is not lowercase alphanumeric or '-'"
  | .invalidMacAddress => "MAC address must be 12 hex digits"
  | .invalidFirmwareVersion => "firmware version must be in num.num.num format"
  | .invalidExpansion => "key expansion failed: invalid number of blocks, too large output"
  | .keyDerivationExhausted => "no valid ECC key could be derived"
  | .invalidDer cause => "DER error: " ++ cause.message
  | .signature => "signature error: signature error"
  | .pem cause => "PEM error: " ++ cause.message
  | .pemTooLarge needed max =>
    "PEM output needs " ++ toString needed ++ " bytes, buffer holds " ++ toString max

end MeasuredIdentity
