import MeasuredIdentity.Proofs.ExtensionCodec
import MeasuredIdentity.Proofs.IssuedDocuments

/-!
Values that are encoded already when they are put into a name. Such a value has to be exactly one
element: a known tag, the length of the content in its shortest form, and the content. It stands in the
encodings of names as it is, for every object identifier that can be written as the type of the name. It
is read from them, unaltered, for just those identifiers that can be read.
-/
namespace MeasuredIdentity

namespace Der

variable {tag : Tag} {b c : Bytes} {n : ℕ}

/-! ### Lengths -/

/-- The shortest definite form of a length. Below 128 it is one byte. From there on, the number of the
bytes that follow stands in the low bits of the first byte, and they do not begin with a zero. -/
inductive IsLength : Bytes → ℕ → Prop
  | short {first : UInt8} : first.toNat < 0x80 → IsLength [first] first.toNat
  | long {first : UInt8} {digits : Bytes} : first.toNat = 0x80 + digits.length → digits.length ≤ 4 →
      digits.head? ≠ some 0x00 → 0x80 ≤ Bytes.toNat digits →
      IsLength (first :: digits) (Bytes.toNat digits)

theorem lengthWidth_of_bounds {w : ℕ} (hn : 0x80 ≤ n) (hlow : 256 ^ w ≤ n) (hhigh : n < 256 ^ (w + 1))
    (hw : w < 4) : lengthWidth n = w + 1 := by
  unfold lengthWidth
  interval_cases w <;> simp at hlow hhigh <;> split_ifs <;> omega

theorem pow_le_of_lengthWidth (hn : 0x80 ≤ n) : 256 ^ (lengthWidth n - 1) ≤ n := by
  unfold lengthWidth
  split_ifs <;> norm_num <;> omega

/-- Digits that do not begin with a zero are as many as the number needs. -/
theorem lengthWidth_toNat (hlength : b.length ≤ 4) (hhead : b.head? ≠ some 0x00)
    (hn : 0x80 ≤ Bytes.toNat b) : lengthWidth (Bytes.toNat b) = b.length := by
  cases b with
  | nil => simp [Bytes.toNat] at hn
  | cons first rest =>
    have hpos : 1 ≤ first.toNat := by
      rw [Nat.one_le_iff_ne_zero]
      intro hzero
      have hfirst : first = 0x00 := UInt8.toNat_inj.1 hzero
      simp [hfirst] at hhead
    have hlow : 256 ^ rest.length ≤ Bytes.toNat (first :: rest) := by
      rw [Bytes.toNat_cons]
      exact (Nat.le_mul_of_pos_left _ hpos).trans (Nat.le_add_right _ _)
    exact lengthWidth_of_bounds hn hlow (Bytes.toNat_lt _) hlength

theorem IsLength.eq_encodeLength (h : IsLength b n) : b = encodeLength n := by
  cases h with
  | short hlt => simp [encodeLength, hlt]
  | @long first digits hfirst hlength hhead hn =>
    have hwidth := lengthWidth_toNat hlength hhead hn
    rw [encodeLength, if_neg (Nat.not_lt.2 hn), hwidth, Bytes.ofNat_toNat, ← hfirst, UInt8.ofNat_toNat]

/-- A number in the width that it needs does not begin with a zero. -/
theorem head?_ofNat_ne_zero (hn : 0x80 ≤ n) (h : n ≤ maxLength) :
    (Bytes.ofNat (lengthWidth n) n).head? ≠ some 0x00 := by
  intro hzero
  obtain ⟨rest, hrest⟩ := List.head?_eq_some_iff.1 hzero
  have hlength : lengthWidth n = rest.length + 1 := by
    rw [← List.length_cons, ← hrest, Bytes.length_ofNat]
  have hvalue : Bytes.toNat rest = n := by
    have hn := Bytes.toNat_ofNat_of_lt (lt_pow_lengthWidth hn h)
    rw [hrest, Bytes.toNat_cons] at hn
    simpa using hn
  have hlow := pow_le_of_lengthWidth hn
  have hhigh := Bytes.toNat_lt rest
  rw [hlength, Nat.add_sub_cancel] at hlow
  rw [hvalue] at hhigh
  exact Nat.not_lt.2 hlow hhigh

theorem isLength_encodeLength (h : n ≤ maxLength) : IsLength (encodeLength n) n := by
  unfold encodeLength
  split_ifs with hn
  · have hfirst : (UInt8.ofNat n).toNat = n := by
      rw [UInt8.toNat_ofNat']
      omega
    have hshort := IsLength.short (hfirst.trans_lt hn)
    rwa [hfirst] at hshort
  · have hn : 0x80 ≤ n := Nat.le_of_not_lt hn
    have hdigits := Bytes.toNat_ofNat_of_lt (lt_pow_lengthWidth hn h)
    have hlong : IsLength (UInt8.ofNat (0x80 + lengthWidth n) :: Bytes.ofNat (lengthWidth n) n)
        (Bytes.toNat (Bytes.ofNat (lengthWidth n) n)) := by
      apply IsLength.long
      · rw [toNat_longByte, Bytes.length_ofNat]
      · rw [Bytes.length_ofNat]
        exact lengthWidth_le n
      · exact head?_ofNat_ne_zero hn h
      · rwa [hdigits]
    rwa [hdigits] at hlong

/-! ### Elements -/

/-- A tag byte, the length of the content, and the content. -/
def IsElement (tag : UInt8) (content b : Bytes) : Prop :=
  ∃ length, IsLength length content.length ∧ b = tag :: (length ++ content)

/-- The number of the tag is below 31, and a universal type is one of the supported ones. -/
def IsSupportedTag (tag : UInt8) : Prop :=
  tag.toNat % 32 < 31 ∧ (tag.toNat < 64 → tag ∈ Tag.universalOctets)

/-- One element with nothing behind it, not longer than what can be read. -/
def IsOneElement (b : Bytes) : Prop :=
  b.length ≤ maxLength ∧ ∃ tag content, IsSupportedTag tag ∧ IsElement tag content b

theorem isKnown_iff : ∀ tag : UInt8, Tag.isKnown tag = true ↔ IsSupportedTag tag := by
  unfold IsSupportedTag
  decide +kernel

theorem IsElement.eq_element (h : IsElement tag.octet c b) : b = element tag c := by
  obtain ⟨length, hlength, rfl⟩ := h
  rw [hlength.eq_encodeLength]
  rfl

theorem isElement_element (tag : Tag) (h : c.length ≤ maxLength) :
    IsElement tag.octet c (element tag c) :=
  ⟨encodeLength c.length, isLength_encodeLength h, rfl⟩

/-- Bytes that are one element are the encoding of one. -/
theorem isOneElement_iff : IsOneElement b ↔ b.length ≤ maxLength ∧ ∃ e : Element, e.encode = b := by
  constructor
  · rintro ⟨hmax, octet, content, hoctet, helement⟩
    let tag : Tag := ⟨octet, (isKnown_iff octet).2 hoctet⟩
    have helement : IsElement tag.octet content b := helement
    exact ⟨hmax, ⟨tag, content⟩, helement.eq_element.symm⟩
  · rintro ⟨hmax, e, rfl⟩
    exact ⟨hmax, e.tag.octet, e.content, (isKnown_iff _).1 e.tag.known,
      isElement_element e.tag (Element.length_content_le hmax)⟩

theorem Element.decode_whole_eq_some_iff {e : Element} (h : b.length ≤ maxLength) :
    Element.decode.whole b = some e ↔ e.encode = b :=
  Element.readsBack.decode_whole_eq_some_iff Element.canonical h

end Der

namespace X509

open Der

variable {typeId : Oid} {value b : Bytes} {name : OtherName} {capacity : ℕ}

/-! ### Names -/

/-- The type and the value, each in an element of its own, together in one with this tag. The value is
the whole content of its element. -/
def IsNameOf (tag : UInt8) (typeId : Oid) (value b : Bytes) : Prop :=
  ∃ first second, IsElement 0x06 typeId.content first ∧ IsElement 0xa0 value second ∧
    IsElement tag (first ++ second) b

namespace OtherName

/-- The name has this type, and a value with this encoding. -/
structure HasValue (name : OtherName) (typeId : Oid) (value : Bytes) : Prop where
  typeId_eq : name.typeId = typeId
  encode_eq : name.value.encode = value

theorem ofEncoded?_eq_some_iff : ofEncoded? typeId value = some name ↔
    value.length ≤ maxLength ∧ name.HasValue typeId value := by
  unfold ofEncoded?
  split_ifs with hmax
  · rw [Option.map_eq_some_iff]
    constructor
    · rintro ⟨e, he, rfl⟩
      exact ⟨hmax, rfl, (Element.decode_whole_eq_some_iff hmax).1 he⟩
    · rintro ⟨-, rfl, hvalue⟩
      exact ⟨name.value, (Element.decode_whole_eq_some_iff hmax).2 hvalue, rfl⟩
  · simp [hmax]

/-- A value is taken exactly if it is one element. -/
theorem exists_ofEncoded?_iff : (∃ name, ofEncoded? typeId value = some name) ↔ IsOneElement value := by
  rw [isOneElement_iff]
  constructor
  · rintro ⟨name, h⟩
    obtain ⟨hmax, hname⟩ := ofEncoded?_eq_some_iff.1 h
    exact ⟨hmax, name.value, hname.encode_eq⟩
  · rintro ⟨hmax, e, he⟩
    exact ⟨⟨typeId, e⟩, ofEncoded?_eq_some_iff.2 ⟨hmax, rfl, he⟩⟩

/-- The size of a name with a value of this size. -/
theorem HasValue.length_encode (h : name.HasValue typeId value) : name.encode.length =
    elementSize (elementSize typeId.content.length + elementSize value.length) := by
  obtain ⟨rfl, rfl⟩ := h
  simp only [encode, content, length_element_eq, List.length_append, Oid.length_encode]

theorem HasValue.isNameOf (h : name.HasValue typeId value) (tag : Tag)
    (hlength : (element tag name.content).length ≤ maxLength) :
    IsNameOf tag.octet typeId value (element tag name.content) := by
  obtain ⟨rfl, rfl⟩ := h
  have hcontent := length_le_of_element hlength
  have hparts := hcontent
  rw [content, List.length_append] at hparts
  have htype : name.typeId.encode.length ≤ maxLength := by omega
  have hvalue : (element (.context .zero true) name.value.encode).length ≤ maxLength := by omega
  exact ⟨_, _, isElement_element .oid (length_le_of_element htype),
    isElement_element (.context .zero true) (length_le_of_element hvalue),
    isElement_element tag hcontent⟩

/-- What is written of a name has the value in it as it is. It is read if the type can be, and then
gives the value back. -/
theorem HasValue.of_within (h : name.HasValue typeId value) (hb : within capacity name.encode = .ok b) :
    IsNameOf 0x30 typeId value b ∧ ((∃ m, decode.whole b = some m) ↔ typeId.isReadable = true) ∧
    ∀ m, decode.whole b = some m → m.HasValue typeId value := by
  obtain ⟨rfl, -, hmax⟩ := within_eq_ok hb
  have hread (m : OtherName) := readsBackIf.decode_whole_eq_some_iff hmax (b := m)
  simp only [all_oids, h.typeId_eq] at hread
  refine ⟨h.isNameOf .sequence hmax, ?_, ?_⟩
  · simp [hread]
  · intro m hm
    obtain ⟨-, rfl⟩ := (hread m).1 hm
    exact h

/-- The same for what is written of an alternative name, where another tag stands for the name. -/
theorem HasValue.of_within_subjectAltName (h : name.HasValue typeId value)
    (hb : within capacity (SubjectAltName.mk name).encode = .ok b) :
    (∃ inner, IsNameOf 0xa0 typeId value inner ∧ IsElement 0x30 inner b) ∧
    ((∃ m, SubjectAltName.decode.whole b = some m) ↔ typeId.isReadable = true) ∧
    ∀ m, SubjectAltName.decode.whole b = some m → m.otherName.HasValue typeId value := by
  obtain ⟨rfl, -, hmax⟩ := within_eq_ok hb
  have hread (m : SubjectAltName) :=
    SubjectAltName.readsBackIf.decode_whole_eq_some_iff hmax (b := m)
  simp only [SubjectAltName.oids, all_oids, h.typeId_eq] at hread
  have hinner := length_le_of_element hmax
  refine ⟨⟨_, h.isNameOf (.context .zero true) hinner, isElement_element .sequence hinner⟩, ?_, ?_⟩
  · simp [hread]
  · intro m hm
    obtain ⟨-, rfl⟩ := (hread m).1 hm
    exact h

/-- Both names are longer than the value by 59 bytes at most. -/
theorem HasValue.exists_within (h : name.HasValue typeId value) (hcapacity : value.length + 59 ≤ capacity)
    (hmax : value.length + 59 ≤ maxLength) :
    (∃ b, within capacity name.encode = .ok b) ∧
    ∃ b, within capacity (SubjectAltName.mk name).encode = .ok b := by
  have hsize (n : ℕ) : elementSize n ≤ n + 6 := by
    have hwidth := lengthWidth_le n
    unfold elementSize
    omega
  have htype : elementSize typeId.content.length ≤ 41 := elementSize_mono typeId.length_content_le
  have hvalue := hsize value.length
  have hname := hsize (elementSize typeId.content.length + elementSize value.length)
  have houter := hsize (elementSize (elementSize typeId.content.length + elementSize value.length))
  have hlength := h.length_encode
  have hlength' : (SubjectAltName.mk name).encode.length =
      elementSize (elementSize (elementSize typeId.content.length + elementSize value.length)) := by
    rw [SubjectAltName.length_encode, h.typeId_eq, h.encode_eq]
  exact ⟨⟨_, within_of_le (by omega) (by omega)⟩, ⟨_, within_of_le (by omega) (by omega)⟩⟩

end OtherName

/-- For every type and every byte string: the bytes are taken as a value exactly if they are one
element. They then stand in the encodings of the name, and of the alternative name that holds it, as the
whole content of the field of the value. Both are read exactly if the type can be read, and reading
either gives back the type and an element whose encoding the bytes are. So the composite identity that
is read out of the alternative name of a device is the one that was put in. -/
theorem values_embed_verbatim (typeId : Oid) (value : Bytes) :
    ((∃ name, OtherName.ofEncoded? typeId value = some name) ↔ IsOneElement value) ∧
    (∀ name, OtherName.ofEncoded? typeId value = some name →
      (∀ capacity b, within capacity name.encode = .ok b →
        IsNameOf 0x30 typeId value b ∧
        ((∃ m, OtherName.decode.whole b = some m) ↔ typeId.isReadable = true) ∧
        ∀ m, OtherName.decode.whole b = some m → m.HasValue typeId value) ∧
      (∀ capacity b, within capacity (SubjectAltName.mk name).encode = .ok b →
        (∃ inner, IsNameOf 0xa0 typeId value inner ∧ IsElement 0x30 inner b) ∧
        ((∃ m, SubjectAltName.decode.whole b = some m) ↔ typeId.isReadable = true) ∧
        ∀ m, SubjectAltName.decode.whole b = some m → m.otherName.HasValue typeId value) ∧
      ∀ capacity, value.length + 59 ≤ capacity → value.length + 59 ≤ maxLength →
        (∃ b, within capacity name.encode = .ok b) ∧
        ∃ b, within capacity (SubjectAltName.mk name).encode = .ok b) ∧
    ∀ (device : P256.PublicKey) (firmware : Digest), ∃ written b read,
      compositeName device firmware = .ok written ∧
      within subjectAltNameSize written.encode = .ok b ∧
      SubjectAltName.decode.whole b = some read ∧
      read.otherName.typeId = OtherName.compositeDeviceOid ∧
      CompositeDeviceId.decode.whole read.otherName.value.encode = some (.ofKey device firmware) := by
  refine ⟨OtherName.exists_ofEncoded?_iff, ?_, ?_⟩
  · intro name hname
    obtain ⟨-, hvalue⟩ := OtherName.ofEncoded?_eq_some_iff.1 hname
    refine ⟨?_, ?_, ?_⟩
    · intro capacity b hb
      exact hvalue.of_within hb
    · intro capacity b hb
      exact hvalue.of_within_subjectAltName hb
    · intro capacity hcapacity hmax
      exact hvalue.exists_within hcapacity hmax
  · intro device firmware
    have hlength := length_encode_compositeNameOf device firmware
    have hread := SubjectAltName.readsBackIf.decode_self rfl (hlength.trans_le (by decide))
    have hcomposite := CompositeDeviceId.readsBackIf.decode_self rfl
      ((CompositeDeviceId.length_encode_ofKey device firmware).trans_le (by decide))
    exact ⟨_, _, _, compositeName_eq device firmware,
      within_of_le (hlength.trans_le (by decide)) (hlength.trans_le (by decide)),
      hread, rfl, hcomposite⟩

/-- A name of the type 1.2.3 has encodings with the value in them, of its own and in an alternative
name, and neither is read. -/
theorem embedded_not_read : ∃ name,
    OtherName.ofEncoded? ⟨[0x2a, 0x03], by decide⟩ [0x02, 0x01, 0x01] = some name ∧
    within 16 name.encode =
      .ok [0x30, 0x09, 0x06, 0x02, 0x2a, 0x03, 0xa0, 0x03, 0x02, 0x01, 0x01] ∧
    OtherName.decode.whole [0x30, 0x09, 0x06, 0x02, 0x2a, 0x03, 0xa0, 0x03, 0x02, 0x01, 0x01] = none ∧
    within 16 (SubjectAltName.mk name).encode =
      .ok [0x30, 0x0b, 0xa0, 0x09, 0x06, 0x02, 0x2a, 0x03, 0xa0, 0x03, 0x02, 0x01, 0x01] ∧
    SubjectAltName.decode.whole
      [0x30, 0x0b, 0xa0, 0x09, 0x06, 0x02, 0x2a, 0x03, 0xa0, 0x03, 0x02, 0x01, 0x01] = none :=
  ⟨⟨⟨[0x2a, 0x03], by decide⟩, ⟨⟨0x02, by decide⟩, [0x01]⟩⟩, by decide +kernel⟩

/-- An octet string with a length that is longer than it needs to be is not taken. -/
example : OtherName.ofEncoded? ⟨[0x2a, 0x03], by decide⟩ [0x04, 0x81, 0x01, 0x00] = none := by
  decide

end X509

end MeasuredIdentity
