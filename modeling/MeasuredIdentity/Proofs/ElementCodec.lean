import Mathlib
import MeasuredIdentity.Der.Element
import MeasuredIdentity.Proofs.BigEndian

/-!
Elements and their encodings determine each other. An element of admissible length is read back
from its encoding whatever follows it, and bytes that are read as an element are its encoding.
-/
namespace MeasuredIdentity.Der

open Decoder

theorem byte_eq_some_iff {b rest : Bytes} {x : UInt8} : byte b = some (x, rest) ↔ b = x :: rest := by
  cases b <;> simp [byte]

theorem lengthWidth_le (n : Nat) : lengthWidth n ≤ 4 := by
  unfold lengthWidth
  split_ifs <;> omega

theorem lt_pow_lengthWidth {n : Nat} (hn : 0x80 ≤ n) (h : n ≤ maxLength) :
    n < 256 ^ lengthWidth n := by
  unfold lengthWidth maxLength at *
  split_ifs <;> omega

theorem lengthWidth_pos {n : Nat} (hn : 0x80 ≤ n) : 1 ≤ lengthWidth n := by
  unfold lengthWidth
  split_ifs <;> omega

/-- The first byte of a long length tells the number of bytes that follow it. -/
theorem toNat_longByte (n : Nat) :
    (UInt8.ofNat (0x80 + lengthWidth n)).toNat = 0x80 + lengthWidth n := by
  have h := lengthWidth_le n
  rw [UInt8.toNat_ofNat']
  omega

theorem decodeLength_encodeLength {n : Nat} (h : n ≤ maxLength) (rest : Bytes) :
    decodeLength (encodeLength n ++ rest) = some (n, rest) := by
  unfold encodeLength decodeLength
  by_cases hn : n < 0x80
  · have hb : (UInt8.ofNat n).toNat = n := by
      rw [UInt8.toNat_ofNat']
      omega
    have hlt : UInt8.ofNat n < 0x80 := by
      rw [UInt8.lt_iff_toNat_lt, hb]
      exact hn
    simp only [hn, if_true, List.cons_append, List.nil_append, bind_apply, byte, Option.bind_some,
      hlt, pure_apply, hb]
  · have hn' : 0x80 ≤ n := Nat.le_of_not_lt hn
    have hpos := lengthWidth_pos hn'
    have hle := lengthWidth_le n
    have hshort : ¬ UInt8.ofNat (0x80 + lengthWidth n) < 0x80 := by
      rw [UInt8.lt_iff_toNat_lt, toNat_longByte]
      simp
    have hlong : 0x80 < UInt8.ofNat (0x80 + lengthWidth n)
        ∧ UInt8.ofNat (0x80 + lengthWidth n) ≤ 0x84 := by
      rw [UInt8.lt_iff_toNat_lt, UInt8.le_iff_toNat_le, toNat_longByte]
      simp
      omega
    have htake : take (lengthWidth n) (Bytes.ofNat (lengthWidth n) n ++ rest)
        = some (Bytes.ofNat (lengthWidth n) n, rest) := by
      have := take_append (Bytes.ofNat (lengthWidth n) n) rest
      rwa [Bytes.length_ofNat] at this
    simp only [hn, if_false, List.cons_append, bind_apply, byte, Option.bind_some, hshort, hlong,
      toNat_longByte, Nat.add_sub_cancel_left, htake, check_apply, and_self, if_true,
      Bytes.toNat_ofNat_of_lt (lt_pow_lengthWidth hn' h), h, pure_apply]

/-- A length has one encoding. -/
theorem eq_encodeLength_of_decodeLength {b rest : Bytes} {n : Nat}
    (h : decodeLength b = some (n, rest)) : b = encodeLength n ++ rest ∧ n ≤ maxLength := by
  simp only [decodeLength, bind_apply, Option.bind_eq_some_iff, Prod.exists] at h
  obtain ⟨first, tail, hb, h⟩ := h
  rw [byte_eq_some_iff] at hb
  subst hb
  split_ifs at h with hshort
  · simp only [pure_apply, Option.some.injEq, Prod.mk.injEq] at h
    obtain ⟨rfl, rfl⟩ := h
    rw [UInt8.lt_iff_toNat_lt] at hshort
    have hlt : first.toNat < 0x80 := hshort
    refine ⟨?_, by unfold maxLength; omega⟩
    rw [encodeLength, if_pos hlt, UInt8.ofNat_toNat]
    rfl
  · simp only [bind_apply, Option.bind_eq_some_iff, Prod.exists, check_apply, pure_apply] at h
    obtain ⟨_, _, h₁, digits, tail', h₂, _, _, h₃, h⟩ := h
    split_ifs at h₁ h₃ with hrange hwidth
    simp only [Option.some.injEq, Prod.mk.injEq] at h h₁ h₃
    obtain ⟨rfl, rfl⟩ := h
    obtain ⟨-, rfl⟩ := h₁
    obtain ⟨-, rfl⟩ := h₃
    obtain ⟨rfl, hlen⟩ := eq_append_of_take h₂
    obtain ⟨hw, hmax⟩ := hwidth
    rw [UInt8.lt_iff_toNat_lt, UInt8.le_iff_toNat_le] at hrange
    have hlow : 0x80 < first.toNat := hrange.1
    have hn : ¬ Bytes.toNat digits < 0x80 := by
      intro hn
      rw [lengthWidth, if_pos hn] at hw
      omega
    refine ⟨?_, hmax⟩
    have hfirst : UInt8.ofNat (0x80 + lengthWidth (Bytes.toNat digits)) = first := by
      rw [hw, Nat.add_sub_cancel' (Nat.le_of_lt hlow), UInt8.ofNat_toNat]
    have hdigits : Bytes.ofNat (lengthWidth (Bytes.toNat digits)) (Bytes.toNat digits) = digits := by
      rw [hw, ← hlen, Bytes.ofNat_toNat]
    rw [encodeLength, if_neg hn, hfirst, hdigits]
    rfl

namespace Element

theorem decode_encode {e : Element} (h : e.content.length ≤ maxLength) (rest : Bytes) :
    decode (e.encode ++ rest) = some (e, rest) := by
  simp only [decode, encode, List.cons_append, List.append_assoc, bind_apply, byte,
    Option.bind_some, ofOption_apply, Tag.ofOctet?_octet, Option.map_some,
    decodeLength_encodeLength h, take_append, pure_apply]

/-- An element has one encoding. -/
theorem eq_encode_of_decode {b rest : Bytes} {e : Element} (h : decode b = some (e, rest)) :
    b = e.encode ++ rest ∧ e.content.length ≤ maxLength := by
  simp only [decode, bind_apply, ofOption_apply, Option.bind_eq_some_iff, Option.map_eq_some_iff,
    Prod.exists, Prod.mk.injEq, pure_apply, Option.some.injEq] at h
  obtain ⟨x, tail, hb, tag, _, ⟨_, ht, rfl, rfl⟩, n, tail', hn, content, _, hc, rfl, rfl⟩ := h
  rw [byte_eq_some_iff] at hb
  obtain ⟨rfl, hmax⟩ := eq_encodeLength_of_decodeLength hn
  obtain ⟨rfl, rfl⟩ := eq_append_of_take hc
  rw [hb, ← Tag.octet_of_ofOctet? ht]
  exact ⟨by simp only [encode, List.cons_append, List.append_assoc], hmax⟩

end Element

theorem content_element {tag : Tag} {c : Bytes} (h : c.length ≤ maxLength) (rest : Bytes) :
    content tag (element tag c ++ rest) = some (c, rest) := by
  simp only [content, element, bind_apply, Element.decode_encode (e := ⟨tag, c⟩) h,
    Option.bind_some, check_apply, if_true, pure_apply]

theorem eq_element_of_content {tag : Tag} {b c rest : Bytes} (h : content tag b = some (c, rest)) :
    b = element tag c ++ rest ∧ c.length ≤ maxLength := by
  simp only [content, bind_apply, Option.bind_eq_some_iff, Prod.exists, check_apply, pure_apply,
    Option.some.injEq, Prod.mk.injEq] at h
  obtain ⟨e, tail, he, _, _, ht, rfl, rfl⟩ := h
  split_ifs at ht with htag
  simp only [Option.some.injEq, Prod.mk.injEq] at ht
  obtain ⟨-, rfl⟩ := ht
  obtain ⟨rfl, hmax⟩ := Element.eq_encode_of_decode he
  exact ⟨by rw [← htag]; rfl, hmax⟩

section Inside

variable {α : Type} {tag : Tag} {c : Bytes} {d : Decoder α}

/-- What decodes the content decodes the element around it. -/
theorem inside_element {a : α} (h : c.length ≤ maxLength) (hd : d c = some (a, [])) (rest : Bytes) :
    inside tag d (element tag c ++ rest) = some (a, rest) := by
  simp only [inside, bind_apply, content_element h, Option.bind_some, ofOption_apply,
    whole_eq_some_iff.2 hd, Option.map_some]

theorem inside_element_eq_none (h : c.length ≤ maxLength) (hd : d c = none) (rest : Bytes) :
    inside tag d (element tag c ++ rest) = none := by
  simp only [inside, bind_apply, content_element h, Option.bind_some, ofOption_apply, whole, hd,
    Option.map_none]

/-- An element is decoded under the same condition as its content. -/
theorem inside_element_if {p : Bool} {a : α} (h : c.length ≤ maxLength)
    (hd : d c = if p then some (a, []) else none) (rest : Bytes) :
    inside tag d (element tag c ++ rest) = if p then some (a, rest) else none := by
  cases p with
  | true => exact inside_element h hd rest
  | false => exact inside_element_eq_none h hd rest

end Inside

end MeasuredIdentity.Der
