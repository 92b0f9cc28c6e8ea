import MeasuredIdentity.Der.Primitive

/-!
Key usages as nine flags, and extended key usages as a list of at most one purpose.
-/
namespace MeasuredIdentity.X509

open Der

/-- Nine flags, from digital signature (bit 0) to decipher only (bit 8). -/
structure KeyUsage where
  flags : BitVec 9
  deriving DecidableEq

namespace KeyUsage

def digitalSignature : KeyUsage := ⟨BitVec.ofNat 9 0x001⟩
def keyCertSign : KeyUsage := ⟨BitVec.ofNat 9 0x020⟩

/-- The number of flags up to the last one that is set. -/
def significant (k : KeyUsage) : Nat :=
  (List.range 9).foldl (fun n i => if k.flags.getLsbD i then i + 1 else n) 0

/-- Eight flags in one byte, the first one in the highest bit. -/
def octet (k : KeyUsage) (j : Nat) : UInt8 :=
  UInt8.ofNat ((List.range 8).foldl (fun n i => 2 * n + (k.flags.getLsbD (8 * j + i)).toNat) 0)

/-- Flags that are not set are left out at the end. -/
def toBitString (k : KeyUsage) : BitString :=
  let n := k.significant
  ⟨(8 - n % 8) % 8, (List.range ((n + 7) / 8)).map k.octet, by omega, by simp; omega⟩

/-- The value of a bit, counted from the highest bit of the first byte. -/
def bitAt (s : BitString) (i : Nat) : Bool :=
  decide (i < 8 * s.bytes.length - s.unused) && (s.bytes.getD (i / 8) 0).toNat.testBit (7 - i % 8)

/-- At most 16 bits are read; those after the ninth do not matter. -/
def ofBitString? (s : BitString) : Option KeyUsage :=
  if 8 * s.bytes.length - s.unused ≤ 16 then
    some ⟨(BitVec.ofBoolListLE ((List.range 9).map (bitAt s))).cast (by simp)⟩
  else none

def encode (k : KeyUsage) : Bytes := k.toBitString.encode

def decode : Decoder KeyUsage := do
  Decoder.ofOption (ofBitString? (← BitString.decode))

end KeyUsage

abbrev ExtendedKeyUsage := Bounded 1 Oid

namespace ExtendedKeyUsage

def clientAuth : Oid := ⟨[0x2b, 0x06, 0x01, 0x05, 0x05, 0x07, 0x03, 0x02], by decide⟩

def encode (u : ExtendedKeyUsage) : Bytes := element .sequence (u.toList.flatMap Oid.encode)

def decode : Decoder ExtendedKeyUsage := inside .sequence (Bounded.decode Oid.decode 1)

end ExtendedKeyUsage

end MeasuredIdentity.X509
