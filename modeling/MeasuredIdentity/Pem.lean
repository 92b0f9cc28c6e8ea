import MeasuredIdentity.Base64
import MeasuredIdentity.Error
import MeasuredIdentity.Text.Utf8
import MeasuredIdentity.Text.Words

/-!
PEM texts: base64 in lines of 64 characters between two labelled boundaries, in a buffer of fixed
size.
-/
namespace MeasuredIdentity

/-- A labelled text. It is empty once it has been wiped. -/
structure Pem where
  label : String
  text : Bytes
  deriving DecidableEq

namespace Pem

/-- The size of the buffer for a text. -/
def maxSize : Nat := 1536

def publicKeyLabel : String := "PUBLIC KEY"
def ecPrivateKeyLabel : String := "EC PRIVATE KEY"
def certificateLabel : String := "CERTIFICATE"
def certificateRequestLabel : String := "CERTIFICATE REQUEST"

def beginMark : Bytes := Text.Utf8.encode "-----BEGIN "
def endMark : Bytes := Text.Utf8.encode "-----END "
def dashes : Bytes := Text.Utf8.encode "-----"

def newline : UInt8 := 0x0a

def isSpace (x : UInt8) : Bool := x == 0x20 || x == 0x09

/-- Printable ASCII without hyphens, and single spaces or tabs. -/
def isLabel : Bytes → Bool
  | [] => true
  | [x] => isSpace x || (0x21 ≤ x && x ≤ 0x7e && x != 0x2d)
  | x :: y :: rest =>
    (if isSpace x then !isSpace y else 0x21 ≤ x && x ≤ 0x7e && x != 0x2d) && isLabel (y :: rest)

/-- The size of a text, computed from the size of its label and of the data. -/
def neededSize (labelSize dataSize : Nat) : Nat :=
  let body := (4 * dataSize / 3 + 3) / 4 * 4
  33 + 2 * labelSize + body + (body - 1) / 64

/-- Cuts characters into lines of 64, the last one possibly shorter; there is always one line. -/
def wrap (b : Bytes) : List Bytes :=
  if b.length ≤ 64 then [b] else b.take 64 :: wrap (b.drop 64)
termination_by b.length
decreasing_by simp; omega

def render (label data : Bytes) : Bytes :=
  beginMark ++ label ++ dashes ++ [newline]
    ++ (wrap (Base64.encode data)).flatMap (· ++ [newline])
    ++ endMark ++ label ++ dashes ++ [newline]

/-- Writes the text for some data into a buffer of the given size. The label is looked at first. -/
def write (capacity : Nat) (label data : Bytes) : Except PemError Bytes :=
  let text := render label data
  if !isLabel label then .error .label
  else if text.length ≤ capacity then .ok text
  else .error .length

/-- The text for some data. A text that is too large by its computed size is refused before any of it
is written. -/
def encode (label : String) (data : Bytes) : Except Error Pem :=
  let name := Text.Utf8.encode label
  let needed := neededSize name.length data.length
  if maxSize < needed then .error (.pemTooLarge needed maxSize)
  else match write maxSize name data with
    | .ok text => .ok ⟨label, text⟩
    | .error e => .error (.pem e)

/-- The label in a boundary line that starts with the given mark. -/
def unframe (mark line : Bytes) : Option Bytes :=
  let rest := line.drop mark.length
  let label := rest.take (rest.length - dashes.length)
  if line = mark ++ label ++ dashes then some label else none

/-- A label as it is read: it may not start with a space. -/
def isReadableLabel (label : Bytes) : Bool := isLabel label && !(label.head?.any isSpace)

def decodeBody (capacity : Nat) (body : Bytes) : Except PemError Bytes :=
  if body = [] then .error .base64Length
  else match Base64.decode? body with
    | none => .error .base64Length
    | some data => if data.length ≤ capacity then .ok data else .error .length

/-- The data of a text, if it fits into a buffer of the given size. -/
def decode (text : Bytes) (capacity : Nat) : Except PemError Bytes :=
  let lines := Text.pieces (· == newline) text
  match lines.head?.bind (unframe beginMark), lines.reverse with
  | some label, [] :: footer :: body =>
    if footer ≠ endMark ++ label ++ dashes then .error .boundary
    else if !isReadableLabel label then .error .label
    else decodeBody capacity (body.reverse.drop 1).flatten
  | _, _ => .error .boundary

def toDer (p : Pem) (capacity : Nat) : Except Error Bytes :=
  (decode p.text capacity).mapError .pem

def size (p : Pem) : Nat := p.text.length

def isEmpty (p : Pem) : Bool := p.text.isEmpty

/-- The text as a string; every byte of it is an ASCII character. -/
def asString (p : Pem) : String := String.ofList (p.text.map fun x => Char.ofNat x.toNat)

/-- Empties the text and keeps the label. -/
def wipe (p : Pem) : Pem := { p with text := [] }

/-- Shows the label and the size, never the text. -/
def describe (p : Pem) : String :=
  "Pem \x7b label: " ++ Text.quoted p.label ++ ", len: " ++ toString p.size ++ ", .. \x7d"

end Pem

end MeasuredIdentity
