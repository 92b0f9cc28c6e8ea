import MeasuredIdentity.Bytes

/-!
Texts as byte strings in UTF-8.
-/
namespace MeasuredIdentity.Text.Utf8

def encode (s : String) : Bytes := s.toByteArray.data.toList

def decode? (b : Bytes) : Option String := String.fromUTF8? ⟨b.toArray⟩

theorem encode_injective {s t : String} (h : encode s = encode t) : s = t := by
  apply String.toByteArray_inj.1
  apply ByteArray.ext
  exact Array.toList_inj.1 h

@[simp] theorem decode?_encode (s : String) : decode? (encode s) = some s := by
  have h : (⟨(encode s).toArray⟩ : ByteArray) = s.toByteArray := by simp [encode]
  rw [decode?, h]
  unfold String.fromUTF8?
  rw [dif_pos s.isValidUTF8]
  simp [String.fromUTF8]

theorem decode?_eq_some_iff {b : Bytes} {s : String} : decode? b = some s ↔ b = encode s := by
  constructor
  · intro h
    unfold decode? String.fromUTF8? at h
    split at h
    · cases h
      rfl
    · cases h
  · rintro rfl
    exact decode?_encode s

theorem encode_append (s t : String) : encode (s ++ t) = encode s ++ encode t := by
  rw [encode, String.toByteArray_append, ByteArray.toList_data_append]
  rfl

theorem utf8Size_of_ascii {c : Char} (h : c.toNat < 128) : c.utf8Size = 1 :=
  Char.utf8Size_eq_one_iff.2 (UInt32.le_iff_toNat_le.2 (Nat.le_of_lt_succ h))

/-- In a text of ASCII characters each of them is a byte. -/
theorem encode_eq_map {s : String} (h : ∀ c ∈ s.toList, c.toNat < 128) :
    encode s = s.toList.map fun c => UInt8.ofNat c.toNat := by
  have hbytes (cs : List Char) (h : ∀ c ∈ cs, c.toNat < 128) :
      cs.flatMap String.utf8EncodeChar = cs.map fun c => UInt8.ofNat c.toNat := by
    induction cs with
    | nil => rfl
    | cons c cs ih =>
      have hc := utf8Size_of_ascii (h c List.mem_cons_self)
      rw [List.flatMap_cons, String.utf8EncodeChar_eq_singleton hc,
        ih fun d hd => h d (List.mem_cons_of_mem c hd)]
      rfl
  rw [← hbytes _ h, encode, ← String.utf8Encode_toList, List.utf8Encode, List.data_toByteArray]

end MeasuredIdentity.Text.Utf8
