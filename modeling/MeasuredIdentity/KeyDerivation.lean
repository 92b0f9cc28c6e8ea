import MeasuredIdentity.Curve.Key
import MeasuredIdentity.Error
import MeasuredIdentity.Hash.Hmac
import MeasuredIdentity.Text.Utf8

/-!
Keys, key identifiers and serial numbers derived with HKDF. Deriving again from the same input
gives the same result, so nothing has to be stored.
-/
namespace MeasuredIdentity.KeyDerivation

open P256

/-- The salt of key identifiers and serial numbers. -/
def identifierSalt : Bytes := [
  0xdb, 0xdb, 0xae, 0xbc, 0x80, 0x20, 0xda, 0x9f, 0xf0, 0xdd, 0x5a, 0x24, 0xc8, 0x3a, 0xa5, 0xa5,
  0x42, 0x86, 0xdf, 0xc2, 0x63, 0x03, 0x1e, 0x32, 0x9b, 0x4d, 0xa1, 0x48, 0x43, 0x06, 0x59, 0xfe,
  0x62, 0xcd, 0xb5, 0xb7, 0xe1, 0xe0, 0x0f, 0xc6, 0x80, 0x30, 0x67, 0x11, 0xeb, 0x44, 0x4a, 0xf7,
  0x72, 0x09, 0x35, 0x94, 0x96, 0xfc, 0xff, 0x1d, 0xb9, 0x52, 0x0b, 0xa5, 0x1c, 0x7b, 0x29, 0xea]

/-- The salt of private keys. -/
def keySalt : Bytes := [
  0x63, 0xb6, 0xa0, 0x4d, 0x2c, 0x07, 0x7f, 0xc1, 0x0f, 0x63, 0x9f, 0x21, 0xda, 0x79, 0x38, 0x44,
  0x35, 0x6c, 0xc2, 0xb0, 0xb4, 0x41, 0xb3, 0xa7, 0x71, 0x24, 0x03, 0x5c, 0x03, 0xf8, 0xe1, 0xbe,
  0x60, 0x35, 0xd3, 0x1f, 0x28, 0x28, 0x21, 0xa7, 0x45, 0x0a, 0x02, 0x22, 0x2a, 0xb1, 0xb3, 0xcf,
  0xf1, 0x67, 0x9b, 0x05, 0xab, 0x1c, 0xa5, 0xd1, 0xaf, 0xfb, 0x78, 0x9c, 0xcd, 0x2b, 0x0b, 0x3b]

/-- A key expansion gives bytes in the length that is asked for. -/
abbrev Expander := (salt keyMaterial info : Bytes) → (length : Nat) → Except Error (Octets length)

def expand (salt keyMaterial info : Bytes) (length : Nat) : Except Error (Octets length) :=
  match Hkdf.derive salt keyMaterial info length with
  | some output => .ok output
  | none => .error .invalidExpansion

/-- The label and a counter of four bytes. -/
def candidateInfo (label : Bytes) (counter : Nat) : Bytes := label ++ Bytes.ofNat 4 counter

/-- The first of `attempts` candidates, counted from `counter`, that is a private key. -/
def firstKey (candidate : Nat → Except Error (Octets 32)) :
    (attempts counter : Nat) → Except Error PrivateKey
  | 0, _ => .error .keyDerivationExhausted
  | attempts + 1, counter => do
    let octets ← candidate counter
    match Scalar.ofNat? octets.toNat with
    | some key => return key
    | none => firstKey candidate attempts (counter + 1)

/-- A candidate fails with a probability of about 2⁻³². -/
def maxAttempts : Nat := 8

/-- The private key under a given key expansion. -/
def privateKeyWith (expander : Expander) (seed label : Bytes) : Except Error PrivateKey :=
  firstKey (fun counter => expander keySalt seed (candidateInfo label counter) 32) maxAttempts 0

def privateKey (seed label : Bytes) : Except Error PrivateKey := privateKeyWith expand seed label

/-- The size of a key identifier. -/
def keyIdSize : Nat := 20

def keyIdInfo : Bytes := Text.Utf8.encode "Key_ID"

/-- The identifier of a public key. -/
def keyId (key : PublicKey) : Except Error (Octets keyIdSize) :=
  expand identifierSalt key.toOctets.toList keyIdInfo keyIdSize

def serialInfo : Bytes := Text.Utf8.encode "SerialNumber"

/-- Clears the sign bit and sets the lowest bit of the first byte. -/
def positive : Bytes → Bytes
  | [] => []
  | x :: rest => ((x &&& 0x7f) ||| 0x01) :: rest

@[simp] theorem length_positive (b : Bytes) : (positive b).length = b.length := by
  cases b <;> rfl

/-- A positive number of eight bytes that belongs to a key. -/
def serialNumber (key : PublicKey) : Except Error (Octets 8) := do
  let output ← expand identifierSalt key.toOctets.toList serialInfo 8
  return ⟨positive output.toList, by simp⟩

end MeasuredIdentity.KeyDerivation
