import MeasuredIdentity.Bytes

/-!
Base64 with padding. The decoder takes whole groups of four only, and no bits to spare.
-/
namespace MeasuredIdentity.Base64

/-- The character of a six-bit value. -/
def digit (n : Nat) : UInt8 :=
  if n < 26 then UInt8.ofNat (65 + n)
  else if n < 52 then UInt8.ofNat (97 + (n - 26))
  else if n < 62 then UInt8.ofNat (48 + (n - 52))
  else if n = 62 then 43 else 47

def value? (x : UInt8) : Option Nat :=
  if 65 ≤ x ∧ x ≤ 90 then some (x.toNat - 65)
  else if 97 ≤ x ∧ x ≤ 122 then some (x.toNat - 97 + 26)
  else if 48 ≤ x ∧ x ≤ 57 then some (x.toNat - 48 + 52)
  else if x = 43 then some 62
  else if x = 47 then some 63
  else none

theorem value?_digit : ∀ n < 64, value? (digit n) = some n := by decide

def pad : UInt8 := 61

def encode : Bytes → Bytes
  | a :: b :: c :: rest =>
    digit (a.toNat / 4) :: digit (a.toNat % 4 * 16 + b.toNat / 16)
      :: digit (b.toNat % 16 * 4 + c.toNat / 64) :: digit (c.toNat % 64) :: encode rest
  | [a, b] =>
    [digit (a.toNat / 4), digit (a.toNat % 4 * 16 + b.toNat / 16), digit (b.toNat % 16 * 4), pad]
  | [a] => [digit (a.toNat / 4), digit (a.toNat % 4 * 16), pad, pad]
  | [] => []

/-- Padding may stand at the end of the last group; the bits that it replaces must be zero. -/
def decode? : Bytes → Option Bytes
  | a :: b :: c :: d :: rest =>
    if d = pad ∧ rest = [] then
      if c = pad then do
        let (u, v) := (← value? a, ← value? b)
        if v % 16 = 0 then some [UInt8.ofNat (4 * u + v / 16)] else none
      else do
        let (u, v, w) := (← value? a, ← value? b, ← value? c)
        if w % 4 = 0 then
          some [UInt8.ofNat (4 * u + v / 16), UInt8.ofNat (16 * (v % 16) + w / 4)]
        else none
    else do
      let (u, v, w, x) := (← value? a, ← value? b, ← value? c, ← value? d)
      return UInt8.ofNat (4 * u + v / 16) :: UInt8.ofNat (16 * (v % 16) + w / 4)
        :: UInt8.ofNat (64 * (w % 4) + x) :: (← decode? rest)
  | [] => some []
  | _ => none

theorem length_encode (b : Bytes) : (encode b).length = 4 * ((b.length + 2) / 3) := by
  fun_induction encode b with
  | case1 a b c rest ih => simp [ih]; omega
  | case2 a b => simp
  | case3 a => simp
  | case4 => simp

end MeasuredIdentity.Base64
