import MeasuredIdentity.Proofs.IssuedCredentials

/-!
PEM texts are exact. Which data fit into the buffer is known from their number and the length of the
label, since the size that is computed for a text is the one it has. A text is laid out in lines of
printable characters, and it gives its data back to each buffer that they fit into.
-/
namespace MeasuredIdentity.Pem

/-- Words of letters and digits, with a single space between them. -/
def IsWordLabel (label : String) : Prop :=
  ∃ words : List (List Char), (∀ word ∈ words, word ≠ [] ∧ ∀ c ∈ word, c.isAlphanum) ∧
    label.toList = [' '].intercalate words

/-- How a text is laid out: the base64 characters stand between two lines with the label, in lines of
64 of which the last one may be shorter, and each line ends with a line feed. -/
inductive IsLaidOut (label : String) (data : Bytes) : Bytes → Prop
  | mk {full : List Bytes} {last : Bytes} (hfull : ∀ line ∈ full, line.length = 64)
      (hlast : last.length ≤ 64) (hne : last ≠ [])
      (hbody : full.flatten ++ last = Base64.encode data) :
      IsLaidOut label data
        (Text.Utf8.encode ("-----BEGIN " ++ label ++ "-----\n")
          ++ full.flatMap (· ++ [0x0a]) ++ (last ++ [0x0a])
          ++ Text.Utf8.encode ("-----END " ++ label ++ "-----\n"))

/-- A line feed, or a printable character of ASCII. -/
def IsTextByte (x : UInt8) : Prop := x = 0x0a ∨ 0x20 ≤ x ∧ x ≤ 0x7e

section Labels

/-- Printable, and neither a space nor a hyphen. -/
def IsWordByte (x : UInt8) : Prop := 0x21 ≤ x ∧ x ≤ 0x7e ∧ x ≠ 0x2d

/-- The byte of an ASCII character. -/
def asciiByte (c : Char) : UInt8 := UInt8.ofNat c.toNat

theorem isAlphanum_iff_toNat {c : Char} : c.isAlphanum ↔
    (65 ≤ c.toNat ∧ c.toNat ≤ 90 ∨ 97 ≤ c.toNat ∧ c.toNat ≤ 122) ∨
      48 ≤ c.toNat ∧ c.toNat ≤ 57 := by
  simp only [Char.isAlphanum, Char.isAlpha, Char.isUpper, Char.isLower, Char.isDigit,
    Bool.or_eq_true, Bool.and_eq_true, decide_eq_true_eq]
  exact Iff.rfl

theorem toNat_lt_of_isAlphanum {c : Char} (h : c.isAlphanum) : c.toNat < 128 := by
  rw [isAlphanum_iff_toNat] at h
  omega

theorem isWordByte_asciiByte {c : Char} (h : c.isAlphanum) : IsWordByte (asciiByte c) := by
  have hbyte : (asciiByte c).toNat = c.toNat :=
    UInt8.toNat_ofNat_of_lt' (Nat.lt_trans (toNat_lt_of_isAlphanum h) (by decide))
  rw [isAlphanum_iff_toNat] at h
  refine ⟨UInt8.le_iff_toNat_le.2 ?_, UInt8.le_iff_toNat_le.2 ?_, fun heq => ?_⟩
  · rw [hbyte]
    exact Nat.le_trans (by decide) (show 48 ≤ c.toNat by omega)
  · rw [hbyte]
    exact Nat.le_trans (show c.toNat ≤ 122 by omega) (by decide)
  · have hhyphen : c.toNat = 45 := by
      rw [← hbyte, heq]
      rfl
    omega

theorem IsWordByte.isSpace_eq {x : UInt8} (h : IsWordByte x) : isSpace x = false := by
  rw [Bool.eq_false_iff]
  intro hspace
  rw [isSpace, Bool.or_eq_true, beq_iff_eq, beq_iff_eq] at hspace
  obtain rfl | rfl := hspace <;> exact absurd h.1 (by decide)

theorem IsWordByte.isTextByte {x : UInt8} (h : IsWordByte x) : IsTextByte x :=
  .inr ⟨UInt8.le_trans (by decide) h.1, h.2.1⟩

theorem isLabel_cons_of_isWordByte {x : UInt8} (h : IsWordByte x) (rest : Bytes) :
    isLabel (x :: rest) = isLabel rest := by
  obtain ⟨hlow, hhigh, hhyphen⟩ := id h
  cases rest with
  | nil => simp [isLabel, hlow, hhigh, hhyphen]
  | cons y rest => simp [isLabel, h.isSpace_eq, hlow, hhigh, hhyphen]

theorem isLabel_append_of_isWordByte {word : Bytes} (h : ∀ x ∈ word, IsWordByte x) (rest : Bytes) :
    isLabel (word ++ rest) = isLabel rest := by
  induction word with
  | nil => rfl
  | cons x word ih =>
    rw [List.cons_append, isLabel_cons_of_isWordByte (h x List.mem_cons_self),
      ih fun y hy => h y (List.mem_cons_of_mem x hy)]

/-- A space is allowed in front of a word. -/
theorem isLabel_space_cons {x : UInt8} (h : IsWordByte x) (rest : Bytes) :
    isLabel (0x20 :: x :: rest) = isLabel (x :: rest) := by
  rw [isLabel, if_pos (by decide), h.isSpace_eq, Bool.not_false, Bool.true_and]

/-- The bytes of some words, with a space between them. -/
def joinWords (words : List (List Char)) : Bytes := ([' '].intercalate words).map asciiByte

theorem joinWords_cons_cons (word word' : List Char) (words : List (List Char)) :
    joinWords (word :: word' :: words) =
      word.map asciiByte ++ 0x20 :: joinWords (word' :: words) := by
  rw [joinWords, List.intercalate_cons_cons, List.map_append, List.map_append, List.append_assoc]
  rfl

variable {words : List (List Char)}

theorem exists_joinWords_cons {word : List Char} (hne : word ≠ [])
    (hword : ∀ c ∈ word, c.isAlphanum) (words : List (List Char)) :
    ∃ x rest, joinWords (word :: words) = x :: rest ∧ IsWordByte x := by
  obtain ⟨c, cs, rfl⟩ := List.exists_cons_of_ne_nil hne
  have hc := isWordByte_asciiByte (hword c List.mem_cons_self)
  cases words with
  | nil =>
    refine ⟨asciiByte c, cs.map asciiByte, ?_, hc⟩
    rw [joinWords, List.intercalate_singleton, List.map_cons]
  | cons word' words =>
    refine ⟨asciiByte c, cs.map asciiByte ++ 0x20 :: joinWords (word' :: words), ?_, hc⟩
    rw [joinWords_cons_cons, List.map_cons, List.cons_append]

theorem isLabel_joinWords (h : ∀ word ∈ words, word ≠ [] ∧ ∀ c ∈ word, c.isAlphanum) :
    isLabel (joinWords words) = true := by
  have hbytes {word : List Char} (hword : ∀ c ∈ word, c.isAlphanum) :
      ∀ x ∈ word.map asciiByte, IsWordByte x := by
    intro x hx
    obtain ⟨c, hc, rfl⟩ := List.mem_map.1 hx
    exact isWordByte_asciiByte (hword c hc)
  -- A space is judged by the byte behind it, so the step needs the first letter of the next word.
  induction words with
  | nil => rfl
  | cons word words ih =>
    obtain ⟨-, hword⟩ := h word List.mem_cons_self
    have ih := ih fun w hw => h w (List.mem_cons_of_mem word hw)
    cases words with
    | nil =>
      have hlast := isLabel_append_of_isWordByte (hbytes hword) []
      rw [List.append_nil] at hlast
      rw [joinWords, List.intercalate_singleton, hlast]
      rfl
    | cons word' words =>
      obtain ⟨hne', hword'⟩ := h word' (List.mem_cons_of_mem word List.mem_cons_self)
      obtain ⟨x, rest, hrest, hx⟩ := exists_joinWords_cons hne' hword' words
      rw [joinWords_cons_cons, isLabel_append_of_isWordByte (hbytes hword), hrest,
        isLabel_space_cons hx, ← hrest, ih]

theorem mem_intercalate {s c : Char} (h : c ∈ [s].intercalate words) :
    c = s ∨ ∃ word ∈ words, c ∈ word := by
  induction words with
  | nil => cases h
  | cons word words ih =>
    cases words with
    | nil =>
      rw [List.intercalate_singleton] at h
      exact .inr ⟨word, List.mem_cons_self, h⟩
    | cons word' words =>
      rw [List.intercalate_cons_cons, List.mem_append, List.mem_append, List.mem_singleton] at h
      obtain (hword | rfl) | hmore := h
      · exact .inr ⟨word, List.mem_cons_self, hword⟩
      · exact .inl rfl
      · exact (ih hmore).imp_right fun ⟨w, hw, hc⟩ => ⟨w, List.mem_cons_of_mem word hw, hc⟩

namespace IsWordLabel

variable {label : String}

theorem characters (h : IsWordLabel label) : ∀ c ∈ label.toList, c = ' ' ∨ c.isAlphanum := by
  obtain ⟨words, hwords, htext⟩ := h
  intro c hc
  rw [htext] at hc
  refine (mem_intercalate hc).imp_right ?_
  rintro ⟨word, hword, hc⟩
  exact (hwords word hword).2 c hc

theorem encode_eq (h : IsWordLabel label) :
    Text.Utf8.encode label = label.toList.map asciiByte := by
  refine Text.Utf8.encode_eq_map fun c hc => ?_
  obtain rfl | hc := h.characters c hc
  · decide
  · exact toNat_lt_of_isAlphanum hc

theorem length_encode (h : IsWordLabel label) : (Text.Utf8.encode label).length = label.length := by
  rw [h.encode_eq, List.length_map, String.length_toList]

theorem isTextByte (h : IsWordLabel label) : ∀ x ∈ Text.Utf8.encode label, IsTextByte x := by
  rw [h.encode_eq]
  intro x hx
  obtain ⟨c, hc, rfl⟩ := List.mem_map.1 hx
  obtain rfl | hc := h.characters c hc
  · exact .inr (by decide)
  · exact (isWordByte_asciiByte hc).isTextByte

theorem isReadableLabel (h : IsWordLabel label) :
    isReadableLabel (Text.Utf8.encode label) = true := by
  obtain ⟨words, hwords, htext⟩ := id h
  have hbytes : Text.Utf8.encode label = joinWords words := by rw [h.encode_eq, htext, joinWords]
  rw [hbytes, Pem.isReadableLabel, isLabel_joinWords hwords, Bool.true_and]
  cases words with
  | nil => rfl
  | cons word words =>
    obtain ⟨hne, hword⟩ := hwords word List.mem_cons_self
    obtain ⟨x, rest, hrest, hx⟩ := exists_joinWords_cons hne hword words
    rw [hrest, List.head?_cons, Option.any_some, hx.isSpace_eq, Bool.not_false]

theorem isLabel (h : IsWordLabel label) : isLabel (Text.Utf8.encode label) = true := by
  have hreadable := h.isReadableLabel
  rw [Pem.isReadableLabel, Bool.and_eq_true] at hreadable
  exact hreadable.1

end IsWordLabel

theorem isWordLabel_of_mem {label : String} (h : label ∈ labels) : IsWordLabel label := by
  simp only [labels, List.mem_cons, List.not_mem_nil, or_false] at h
  obtain rfl | rfl | rfl | rfl := h
  · exact ⟨["PUBLIC".toList, "KEY".toList], by simp, by decide⟩
  · exact ⟨["EC".toList, "PRIVATE".toList, "KEY".toList], by simp, by decide⟩
  · exact ⟨["CERTIFICATE".toList], by simp, by decide⟩
  · exact ⟨["CERTIFICATE".toList, "REQUEST".toList], by simp, by decide⟩

end Labels

section Layout

theorem exists_wrap (b : Bytes) : ∃ full last, wrap b = full ++ [last] ∧
    (∀ line ∈ full, line.length = 64) ∧ last.length ≤ 64 ∧ (b ≠ [] → last ≠ []) := by
  fun_induction wrap b with
  | case1 b h => exact ⟨[], b, rfl, List.forall_mem_nil _, h, id⟩
  | case2 b h ih =>
    obtain ⟨full, last, hwrap, hfull, hlast, hne⟩ := ih
    refine ⟨b.take 64 :: full, last, ?_, ?_, hlast, fun _ => hne ?_⟩
    · rw [hwrap, List.cons_append]
    · rw [List.forall_mem_cons, List.length_take]
      exact ⟨by omega, hfull⟩
    · rw [← List.length_pos_iff, List.length_drop]
      omega

theorem isLaidOut_render (label : String) {data : Bytes} (hdata : data ≠ []) :
    IsLaidOut label data (render (Text.Utf8.encode label) data) := by
  obtain ⟨full, last, hwrap, hfull, hlast, hne⟩ := exists_wrap (Base64.encode data)
  have hbody : full.flatten ++ last = Base64.encode data := by
    rw [← flatten_wrap (Base64.encode data), hwrap, List.flatten_append, List.flatten_singleton]
  have hdashes : Text.Utf8.encode "-----\n" = dashes ++ [newline] := by decide +kernel
  have htext : render (Text.Utf8.encode label) data =
      Text.Utf8.encode ("-----BEGIN " ++ label ++ "-----\n") ++ full.flatMap (· ++ [0x0a])
        ++ (last ++ [0x0a]) ++ Text.Utf8.encode ("-----END " ++ label ++ "-----\n") := by
    simp only [render, hwrap, List.flatMap_append, List.flatMap_singleton, Text.Utf8.encode_append,
      hdashes, beginMark, endMark, newline, List.append_assoc]
  rw [htext]
  exact .mk hfull hlast (hne (Base64.encode_ne_nil hdata)) hbody

/-- The computed size by the number of base64 characters. -/
theorem neededSize_eq (labelSize dataSize : ℕ) : neededSize labelSize dataSize =
    33 + 2 * labelSize + 4 * (dataSize ⌈/⌉ 3) + (4 * (dataSize ⌈/⌉ 3) - 1) / 64 := by
  have hbody : (4 * dataSize / 3 + 3) / 4 * 4 = 4 * (dataSize ⌈/⌉ 3) := by
    rw [Nat.ceilDiv_eq_add_pred_div]
    omega
  rw [neededSize, hbody]

instance : DecidablePred IsTextByte := fun _ => inferInstanceAs (Decidable (_ ∨ _))

theorem isTextByte_render {label : Bytes} (hlabel : ∀ x ∈ label, IsTextByte x) (data : Bytes) :
    ∀ x ∈ render label data, IsTextByte x := by
  have hbegin : ∀ x ∈ beginMark, IsTextByte x := by decide +kernel
  have hend : ∀ x ∈ endMark, IsTextByte x := by decide +kernel
  have hdashes : ∀ x ∈ dashes, IsTextByte x := by decide +kernel
  have hnewline : ∀ x ∈ [newline], IsTextByte x := List.forall_mem_singleton.2 (.inl rfl)
  have hlines : ∀ x ∈ (wrap (Base64.encode data)).flatMap (· ++ [newline]), IsTextByte x := by
    intro x hx
    obtain ⟨line, hline, hx⟩ := List.mem_flatMap.1 hx
    obtain hx | hx := List.mem_append.1 hx
    · have hmem : x ∈ Base64.encode data := by
        rw [← flatten_wrap (Base64.encode data)]
        exact List.mem_flatten_of_mem hline hx
      exact IsWordByte.isTextByte (Base64.printable_of_mem_encode hmem)
    · exact hnewline x hx
  simp only [render, List.forall_mem_append]
  exact ⟨⟨⟨⟨⟨⟨⟨⟨hbegin, hlabel⟩, hdashes⟩, hnewline⟩, hlines⟩, hend⟩, hlabel⟩, hdashes⟩, hnewline⟩

end Layout

/-- Data are written exactly if the size of their text is within the buffer, and this size is known
from their number and the length of the label. The text has this size, is laid out in lines of printable
characters, and gives the data to each buffer that they fit into, and an error to any other. -/
theorem encode_exact :
    (∀ label ∈ labels, IsWordLabel label) ∧
    ∀ (label : String) (data : Bytes), IsWordLabel label → data ≠ [] →
      let body := 4 * (data.length ⌈/⌉ 3)
      let needed := 33 + 2 * label.length + body + (body - 1) / 64
      ((∃ p, encode label data = .ok p) ↔ needed ≤ 1536) ∧
      (1536 < needed → encode label data = .error (.pemTooLarge needed 1536)) ∧
      ∀ p, encode label data = .ok p →
        p.label = label ∧ p.text.length = needed ∧ (∀ x ∈ p.text, IsTextByte x) ∧
        IsLaidOut label data p.text ∧
        ∀ capacity, p.toDer capacity =
          if data.length ≤ capacity then .ok data else .error (.pem .length) := by
  refine ⟨fun label h => isWordLabel_of_mem h, fun label data hlabel hdata => ?_⟩
  intro body needed
  have hneeded : neededSize (Text.Utf8.encode label).length data.length = needed := by
    rw [hlabel.length_encode, neededSize_eq]
  have hencode : encode label data = if 1536 < needed then .error (.pemTooLarge needed 1536)
      else .ok ⟨label, render (Text.Utf8.encode label) data⟩ := by
    rw [← hneeded]
    exact encode_eq_of_isLabel hlabel.isLabel data
  refine ⟨?_, fun hlarge => ?_, fun p hp => ?_⟩
  · rw [hencode]
    split
    next hlarge => exact iff_of_false nofun (Nat.not_le.2 hlarge)
    next hfits => exact iff_of_true ⟨_, rfl⟩ (Nat.not_lt.1 hfits)
  · rw [hencode, if_pos hlarge]
  · rw [hencode] at hp
    split at hp
    next => cases hp
    next =>
      cases hp
      refine ⟨rfl, ?_, isTextByte_render hlabel.isTextByte data, isLaidOut_render label hdata,
        fun capacity => ?_⟩
      · rw [length_render, hneeded]
      · rw [toDer, decode_render_eq hlabel.isReadableLabel hdata]
        split <;> rfl

/-- The longest certificate that there is a text for, and one that is a byte too long. -/
theorem encode_exact_certificate :
    (∃ p, encode certificateLabel (List.replicate 1092 0x5a) = .ok p ∧ p.text.length = 1533 ∧
      p.toDer 1092 = .ok (List.replicate 1092 0x5a) ∧ p.toDer 1091 = .error (.pem .length)) ∧
    encode certificateLabel (List.replicate 1093 0x5a) = .error (.pemTooLarge 1537 1536) := by
  obtain ⟨hlabels, hencode⟩ := encode_exact
  have hlabel := hlabels certificateLabel (by simp [labels])
  have hlength : certificateLabel.length = 11 := by decide
  constructor
  · obtain ⟨hiff, -, htext⟩ := hencode certificateLabel (List.replicate 1092 0x5a) hlabel nofun
    rw [List.length_replicate, hlength] at hiff
    obtain ⟨p, hp⟩ := hiff.2 (by decide)
    obtain ⟨-, hsize, -, -, hder⟩ := htext p hp
    rw [List.length_replicate, hlength] at hsize
    refine ⟨p, hp, hsize.trans (by decide), ?_, ?_⟩
    · rw [hder, List.length_replicate, if_pos (by decide)]
    · rw [hder, List.length_replicate, if_neg (by decide)]
  · obtain ⟨-, hlarge, -⟩ := hencode certificateLabel (List.replicate 1093 0x5a) hlabel nofun
    rw [List.length_replicate, hlength] at hlarge
    exact hlarge (by decide)

end MeasuredIdentity.Pem
