import Mathlib
import MeasuredIdentity.Pem

/-!
PEM texts are reversible. The characters of base64 never form a line end, so a text is cut at its
line ends into the lines it was made of, and they hold the data again.
-/
namespace MeasuredIdentity

namespace Text

variable {α : Type} {isSeparator : α → Bool}

/-- Lines that end with a separator are the pieces of their text, before an empty last one. -/
theorem pieces_flatMap {lines : List (List α)} {s : α}
    (h : ∀ line ∈ lines, ∀ x ∈ line, isSeparator x = false) (hs : isSeparator s = true) :
    pieces isSeparator (lines.flatMap (· ++ [s])) = lines ++ [[]] := by
  induction lines with
  | nil => rfl
  | cons line lines ih =>
    have ih := ih fun l hl => h l (List.mem_cons_of_mem line hl)
    rw [List.flatMap_cons, List.append_assoc, List.singleton_append,
      pieces_append_cons (h line List.mem_cons_self) hs, ih, List.cons_append]

end Text

namespace Base64

theorem value?_pad : value? pad = none := by decide

theorem digit_ne_pad {n : ℕ} (h : n < 64) : digit n ≠ pad := by
  intro heq
  have hvalue := value?_digit n h
  rw [heq, value?_pad] at hvalue
  cases hvalue

theorem ofNat_eq_of_toNat {x : UInt8} {n : ℕ} (h : n = x.toNat) : UInt8.ofNat n = x := by
  rw [h, UInt8.ofNat_toNat]

/-- A group of four characters gives its three bytes back. -/
theorem decode?_group (a b c : UInt8) (rest : Bytes) :
    decode? (digit (a.toNat / 4) :: digit (a.toNat % 4 * 16 + b.toNat / 16)
      :: digit (b.toNat % 16 * 4 + c.toNat / 64) :: digit (c.toNat % 64) :: rest) =
    (decode? rest).map fun data => a :: b :: c :: data := by
  have ha := a.toNat_lt
  have hb := b.toNat_lt
  have hc := c.toNat_lt
  have hlast : digit (c.toNat % 64) ≠ pad := digit_ne_pad (Nat.mod_lt _ (by decide))
  rw [decode?, if_neg (fun h => hlast h.1), value?_digit _ (by omega), value?_digit _ (by omega),
    value?_digit _ (by omega), value?_digit _ (by omega)]
  have h₁ : UInt8.ofNat (4 * (a.toNat / 4) + (a.toNat % 4 * 16 + b.toNat / 16) / 16) = a :=
    ofNat_eq_of_toNat (by omega)
  have h₂ : UInt8.ofNat (16 * ((a.toNat % 4 * 16 + b.toNat / 16) % 16)
      + (b.toNat % 16 * 4 + c.toNat / 64) / 4) = b := ofNat_eq_of_toNat (by omega)
  have h₃ : UInt8.ofNat (64 * ((b.toNat % 16 * 4 + c.toNat / 64) % 4) + c.toNat % 64) = c :=
    ofNat_eq_of_toNat (by omega)
  simp only [Option.bind_eq_bind, Option.bind_some, h₁, h₂, h₃]
  cases decode? rest <;> rfl

theorem decode?_encode (b : Bytes) : decode? (encode b) = some b := by
  fun_induction encode b with
  | case1 a b c rest ih => rw [decode?_group, ih, Option.map_some]
  | case2 a b =>
    have ha := a.toNat_lt
    have hb := b.toNat_lt
    have hlast : digit (b.toNat % 16 * 4) ≠ pad := digit_ne_pad (by omega)
    rw [decode?, if_pos ⟨rfl, rfl⟩, if_neg hlast, value?_digit _ (by omega),
      value?_digit _ (by omega), value?_digit _ (by omega)]
    have h₁ : UInt8.ofNat (4 * (a.toNat / 4) + (a.toNat % 4 * 16 + b.toNat / 16) / 16) = a :=
      ofNat_eq_of_toNat (by omega)
    have h₂ : UInt8.ofNat (16 * ((a.toNat % 4 * 16 + b.toNat / 16) % 16)
        + b.toNat % 16 * 4 / 4) = b := ofNat_eq_of_toNat (by omega)
    have hspare : b.toNat % 16 * 4 % 4 = 0 := by omega
    simp only [Option.bind_eq_bind, Option.bind_some, h₁, h₂, hspare, if_true]
  | case3 a =>
    have ha := a.toNat_lt
    rw [decode?, if_pos ⟨rfl, rfl⟩, if_pos rfl, value?_digit _ (by omega),
      value?_digit _ (by omega)]
    have h₁ : UInt8.ofNat (4 * (a.toNat / 4) + a.toNat % 4 * 16 / 16) = a :=
      ofNat_eq_of_toNat (by omega)
    have hspare : a.toNat % 4 * 16 % 16 = 0 := by omega
    simp only [Option.bind_eq_bind, Option.bind_some, h₁, hspare, if_true]
  | case4 => rfl

theorem encode_ne_nil {b : Bytes} (h : b ≠ []) : encode b ≠ [] := by
  intro hnil
  have hb := decode?_encode b
  rw [hnil, decode?, Option.some.injEq] at hb
  exact h hb.symm

/-- The characters of base64. -/
theorem mem_encode {b : Bytes} {x : UInt8} (h : x ∈ encode b) : (∃ n < 64, x = digit n) ∨ x = pad := by
  fun_induction encode b with
  | case1 a b c rest ih =>
    have ha := a.toNat_lt
    have hb := b.toNat_lt
    have hc := c.toNat_lt
    simp only [List.mem_cons] at h
    rcases h with rfl | rfl | rfl | rfl | h
    · exact .inl ⟨_, by omega, rfl⟩
    · exact .inl ⟨_, by omega, rfl⟩
    · exact .inl ⟨_, by omega, rfl⟩
    · exact .inl ⟨_, by omega, rfl⟩
    · exact ih h
  | case2 a b =>
    have ha := a.toNat_lt
    have hb := b.toNat_lt
    simp only [List.mem_cons, List.not_mem_nil, or_false] at h
    rcases h with rfl | rfl | rfl | rfl
    · exact .inl ⟨_, by omega, rfl⟩
    · exact .inl ⟨_, by omega, rfl⟩
    · exact .inl ⟨_, by omega, rfl⟩
    · exact .inr rfl
  | case3 a =>
    have ha := a.toNat_lt
    simp only [List.mem_cons, List.not_mem_nil, or_false] at h
    rcases h with rfl | rfl | rfl | rfl
    · exact .inl ⟨_, by omega, rfl⟩
    · exact .inl ⟨_, by omega, rfl⟩
    · exact .inr rfl
    · exact .inr rfl
  | case4 => cases h

/-- They are printable, and none of them is a hyphen. -/
theorem printable_of_mem_encode {b : Bytes} {x : UInt8} (h : x ∈ encode b) :
    0x21 ≤ x ∧ x ≤ 0x7e ∧ x ≠ 0x2d := by
  have hdigit : ∀ n < 64, 0x21 ≤ digit n ∧ digit n ≤ 0x7e ∧ digit n ≠ 0x2d := by decide
  rcases mem_encode h with ⟨n, hn, rfl⟩ | rfl
  · exact hdigit n hn
  · decide

theorem newline_notMem_encode (b : Bytes) : Pem.newline ∉ encode b := fun h =>
  absurd (printable_of_mem_encode h).1 (by decide)

end Base64

namespace Pem

theorem flatten_wrap (b : Bytes) : (wrap b).flatten = b := by
  fun_induction wrap b with
  | case1 b h => simp
  | case2 b h ih => rw [List.flatten_cons, ih, List.take_append_drop]

theorem length_wrap (b : Bytes) : (wrap b).length = (b.length - 1) / 64 + 1 := by
  fun_induction wrap b with
  | case1 b h =>
    rw [List.length_singleton]
    omega
  | case2 b h ih =>
    rw [List.length_cons, ih, List.length_drop]
    omega

/-- Each line has a character more in the text. -/
theorem length_flatMap_newline (lines : List Bytes) :
    (lines.flatMap (· ++ [newline])).length = lines.flatten.length + lines.length := by
  induction lines with
  | nil => rfl
  | cons line lines ih =>
    rw [List.flatMap_cons, List.length_append, ih, List.length_append, List.length_singleton,
      List.flatten_cons, List.length_append, List.length_cons]
    omega

/-- The size of a text is the one that is computed for it. -/
theorem length_render (label data : Bytes) :
    (render label data).length = neededSize label.length data.length := by
  have hbegin : beginMark.length = 11 := by decide +kernel
  have hend : endMark.length = 9 := by decide +kernel
  have hdashes : dashes.length = 5 := by decide +kernel
  simp only [render, List.length_append, List.length_singleton, length_flatMap_newline, flatten_wrap,
    length_wrap, Base64.length_encode, hbegin, hend, hdashes, neededSize]
  omega

theorem newline_notMem_wrap {b : Bytes} (h : newline ∉ b) : ∀ line ∈ wrap b, newline ∉ line := by
  intro line hline hmem
  apply h
  rw [← flatten_wrap b]
  exact List.mem_flatten_of_mem hline hmem

/-- The lines of a text. -/
def renderLines (label data : Bytes) : List Bytes :=
  (beginMark ++ label ++ dashes) :: (wrap (Base64.encode data) ++ [endMark ++ label ++ dashes])

theorem render_eq (label data : Bytes) :
    render label data = (renderLines label data).flatMap (· ++ [newline]) := by
  simp only [render, renderLines, List.flatMap_cons, List.flatMap_append, List.flatMap_nil,
    List.append_assoc, List.append_nil]

theorem isLabel_cons {x : UInt8} {label : Bytes} (h : isLabel (x :: label) = true) :
    isLabel label = true := by
  cases label with
  | nil => rfl
  | cons y label =>
    rw [isLabel, Bool.and_eq_true] at h
    exact h.2

theorem newline_notMem_of_isLabel {label : Bytes} (h : isLabel label = true) : newline ∉ label := by
  induction label with
  | nil => exact List.not_mem_nil
  | cons x label ih =>
    have hx : x ≠ newline := by
      rintro rfl
      cases label with
      | nil => exact absurd h (by decide)
      | cons y label =>
        rw [isLabel, Bool.and_eq_true, if_neg (show ¬ isSpace newline = true by decide)] at h
        exact absurd h.1 (by decide)
    simp only [List.mem_cons, not_or]
    exact ⟨fun heq => hx heq.symm, ih (isLabel_cons h)⟩

theorem newline_notMem_renderLines {label : Bytes} (h : newline ∉ label) (data : Bytes) :
    ∀ line ∈ renderLines label data, newline ∉ line := by
  have hbegin : newline ∉ beginMark := by decide +kernel
  have hend : newline ∉ endMark := by decide +kernel
  have hdashes : newline ∉ dashes := by decide +kernel
  intro line hline
  simp only [renderLines, List.mem_cons, List.mem_append, List.not_mem_nil, or_false] at hline
  rcases hline with rfl | hline | rfl
  · simp only [List.mem_append, not_or]
    exact ⟨⟨hbegin, h⟩, hdashes⟩
  · exact newline_notMem_wrap (Base64.newline_notMem_encode data) line hline
  · simp only [List.mem_append, not_or]
    exact ⟨⟨hend, h⟩, hdashes⟩

theorem pieces_render {label : Bytes} (h : newline ∉ label) (data : Bytes) :
    Text.pieces (· == newline) (render label data) = renderLines label data ++ [[]] := by
  have hseparator : (fun x => x == newline) newline = true := beq_self_eq_true newline
  rw [render_eq]
  refine Text.pieces_flatMap ?_ hseparator
  intro line hline x hx
  rw [beq_eq_false_iff_ne]
  rintro rfl
  exact newline_notMem_renderLines h data line hline hx

theorem unframe_frame (mark label : Bytes) : unframe mark (mark ++ label ++ dashes) = some label := by
  have hrest : (mark ++ label ++ dashes).drop mark.length = label ++ dashes := by
    rw [List.append_assoc, List.drop_left]
  have hlabel : (label ++ dashes).take ((label ++ dashes).length - dashes.length) = label := by
    rw [List.length_append, Nat.add_sub_cancel, List.take_left]
  rw [unframe]
  simp only [hrest, hlabel, if_true]

/-- The data of a rendered text come back, if the buffer holds them. -/
theorem decode_render_eq {label data : Bytes} (hlabel : isReadableLabel label = true)
    (hdata : data ≠ []) (capacity : ℕ) : decode (render label data) capacity =
      if data.length ≤ capacity then .ok data else .error .length := by
  have hnewline : newline ∉ label := by
    rw [isReadableLabel, Bool.and_eq_true] at hlabel
    exact newline_notMem_of_isLabel hlabel.1
  have hhead : (renderLines label data ++ [[]]).head? = some (beginMark ++ label ++ dashes) := rfl
  have hreverse : (renderLines label data ++ [[]]).reverse =
      [] :: (endMark ++ label ++ dashes)
        :: ((wrap (Base64.encode data)).reverse ++ [beginMark ++ label ++ dashes]) := by
    simp [renderLines]
  have hbody : (((wrap (Base64.encode data)).reverse ++ [beginMark ++ label ++ dashes]).reverse.drop
      1).flatten = Base64.encode data := by
    rw [List.reverse_append, List.reverse_reverse, List.reverse_singleton, List.singleton_append,
      List.drop_one, List.tail_cons, flatten_wrap]
  rw [decode, pieces_render hnewline, hhead, hreverse, Option.bind_some, unframe_frame]
  simp only [ne_eq, not_true_eq_false, if_false, hlabel, Bool.not_true, Bool.false_eq_true, hbody]
  rw [decodeBody, if_neg (Base64.encode_ne_nil hdata), Base64.decode?_encode]

theorem decode_render {label data : Bytes} {capacity : ℕ} (hlabel : isReadableLabel label = true)
    (hdata : data ≠ []) (hcapacity : data.length ≤ capacity) :
    decode (render label data) capacity = .ok data := by
  rw [decode_render_eq hlabel hdata, if_pos hcapacity]

/-- A text is written exactly if its label is one and its computed size is within the buffer. -/
theorem encode_eq_of_isLabel {label : String} (h : isLabel (Text.Utf8.encode label) = true)
    (data : Bytes) : encode label data =
      let needed := neededSize (Text.Utf8.encode label).length data.length
      if maxSize < needed then .error (.pemTooLarge needed maxSize)
      else .ok ⟨label, render (Text.Utf8.encode label) data⟩ := by
  simp only [encode, write, h, length_render, Bool.not_true, Bool.false_eq_true, if_false]
  split
  next => rfl
  next hfits => rw [if_pos (Nat.not_lt.1 hfits)]

end Pem

end MeasuredIdentity
