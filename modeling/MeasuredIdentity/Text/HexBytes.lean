import MeasuredIdentity.Bytes
import MeasuredIdentity.Text.Quoted

/-!
Byte strings of a fixed length in hexadecimal, two digits for each byte.
-/
namespace MeasuredIdentity.Text

/-- Why a text is not the hexadecimal form of so many bytes. -/
inductive HexError where
  | oddLength
  | wrongLength
  /-- The index counts bytes from zero. -/
  | wrongDigit (found : Char) (index : Nat)
  deriving DecidableEq, Repr

def HexError.message : HexError → String
  | .oddLength => "Odd number of digits"
  | .wrongLength => "Invalid string length"
  | .wrongDigit found index =>
    "Invalid character " ++ quotedChar found ++ " at position " ++ toString index

/-- The value of the digit at an index. -/
def hexDigitAt (x : UInt8 × Nat) : Except HexError (Fin 16) :=
  let c := Char.ofNat x.1.toNat
  match hexValue? c with
  | some value => .ok value
  | none => .error (.wrongDigit c x.2)

theorem length_of_mapM {ε α β : Type} {f : α → Except ε β} {s : List α} {t : List β}
    (h : s.mapM f = .ok t) : t.length = s.length := by
  induction s generalizing t with
  | nil =>
    cases h
    rfl
  | cons x s ih =>
    rw [List.mapM_cons] at h
    cases hx : f x with
    | error e => rw [hx] at h; cases h
    | ok y =>
      cases hs : s.mapM f with
      | error e => rw [hx, hs] at h; cases h
      | ok rest =>
        rw [hx, hs] at h
        cases h
        rw [List.length_cons, List.length_cons, ih hs]

/-- Reads digits into a buffer that they have to fill. The size is looked at before the digits. -/
def decodeHex (size : Nat) (text : Bytes) : Except HexError (Octets size) :=
  if text.length % 2 ≠ 0 then .error .oddLength
  else if hsize : text.length / 2 = size then
    match h : text.zipIdx.mapM hexDigitAt with
    | .ok digits =>
      .ok ⟨hexBytes digits, by rw [length_hexBytes, length_of_mapM h, List.length_zipIdx, hsize]⟩
    | .error e => .error e
  else .error .wrongLength

end MeasuredIdentity.Text
