import MeasuredIdentity.Registration
import MeasuredIdentity.Text.Utf8
import Mathlib.Tactic.SplitIfs

/-!
The grammar of registration ids. The ids are the texts of one to 128 lower-case letters, digits and
hyphens, and each of them is taken as it is. Any other text is refused for its first fault: that it
is empty, that it has too many characters, or its first wrong character. A character of an id takes
one byte, so the buffer has room for all of them.
-/
namespace MeasuredIdentity

namespace Text.Utf8

theorem size_utf8Encode {cs : List Char} (h : ∀ c ∈ cs, c.utf8Size = 1) :
    cs.utf8Encode.size = cs.length := by
  induction cs with
  | nil => simp
  | cons c cs ih =>
    have hc : c.utf8Size = 1 := h c List.mem_cons_self
    have ih := ih fun d hd => h d (List.mem_cons_of_mem c hd)
    rw [List.utf8Encode_cons, ByteArray.size_append, ih, List.utf8Encode_singleton,
      List.size_toByteArray, String.length_utf8EncodeChar, hc, List.length_cons, Nat.add_comm]

/-- A text of ASCII characters has a byte for each of them. -/
theorem length_encode {s : String} (h : ∀ c ∈ s.toList, c.utf8Size = 1) :
    (encode s).length = s.toList.length := by
  rw [← size_utf8Encode h, String.utf8Encode_toList]
  rfl

theorem utf8ByteSize_eq_length {s : String} (h : ∀ c ∈ s.toList, c.utf8Size = 1) :
    s.utf8ByteSize = s.length := by
  rw [← String.length_toList, ← length_encode h]
  rfl

end Text.Utf8

/-- A lower-case letter, a digit or a hyphen. -/
def IsPlain (c : Char) : Prop := ('a' ≤ c ∧ c ≤ 'z') ∨ ('0' ≤ c ∧ c ≤ '9') ∨ c = '-'

/-- One to 128 characters, all of them plain. -/
structure IsIdText (s : String) : Prop where
  pos : 1 ≤ s.length
  length_le : s.length ≤ 128
  characters : ∀ c ∈ s.toList, IsPlain c

theorem isIdChar_iff {c : Char} : isIdChar c = true ↔ IsPlain c := by
  simp only [isIdChar, IsPlain, Bool.or_eq_true, Bool.and_eq_true, decide_eq_true_eq, beq_iff_eq,
    or_assoc]

/-- The first wrong character stands behind characters that are right. -/
theorem wrongIdChar?_eq_some_iff {s : List Char} {c : Char} {n : Nat} :
    wrongIdChar? s = some (c, n) ↔ ∃ front rest, s = front ++ c :: rest ∧ front.length = n ∧
      (∀ d ∈ front, IsPlain d) ∧ ¬ IsPlain c := by
  simp only [wrongIdChar?, List.find?_eq_some_iff_append, ← isIdChar_iff, Bool.not_eq_true]
  constructor
  · rintro ⟨hc, front, rest, hlist, hfront⟩
    obtain ⟨front, rest, rfl, rfl, hrest⟩ := List.zipIdx_eq_append_iff.1 hlist
    obtain ⟨d, rest, rfl, hd, -⟩ := List.zipIdx_eq_cons_iff.1 hrest.symm
    obtain ⟨rfl, rfl⟩ := Prod.mk.inj hd
    have hnone : wrongIdChar? front = none := by
      rw [wrongIdChar?, List.find?_eq_none]
      intro x hx
      simpa using hfront x hx
    exact ⟨front, rest, rfl, (Nat.zero_add _).symm,
      List.all_eq_true.1 (wrongIdChar?_eq_none_iff.1 hnone), by simpa using hc⟩
  · rintro ⟨front, rest, rfl, rfl, hfront, hc⟩
    refine ⟨by simpa using hc, front.zipIdx, rest.zipIdx (front.length + 1), ?_, ?_⟩
    · rw [List.zipIdx_append, List.zipIdx_cons, Nat.zero_add]
    · have hnone : wrongIdChar? front = none := wrongIdChar?_eq_none_iff.2 (List.all_eq_true.2 hfront)
      intro x hx
      simpa using List.find?_eq_none.1 hnone x hx

/-- Why a text is no registration id. The position of the first wrong character counts from zero. -/
inductive IdFault (s : String) : Error → Prop
  | empty (h : s = "") : IdFault s .emptyRegistrationId
  | tooLong (h : 128 < s.length) : IdFault s (.registrationIdTooLong s.length 128)
  | wrongChar {front rest : List Char} {c : Char} (hlength : s.length ≤ 128)
      (hsplit : s.toList = front ++ c :: rest)
      (hfront : ∀ d ∈ front, IsPlain d) (hc : ¬ IsPlain c) :
      IdFault s (.invalidRegistrationIdChar front.length c)

theorem IsIdText.not_idFault {s : String} (h : IsIdText s) {e : Error} : ¬ IdFault s e := by
  rintro (rfl | hlong | ⟨-, hsplit, -, hc⟩)
  · exact absurd h.pos (by decide)
  · exact Nat.not_lt.2 h.length_le hlong
  · refine hc (h.characters _ ?_)
    rw [hsplit]
    exact List.mem_append_right _ List.mem_cons_self

namespace RegistrationId

/-- The text is all that an id has. -/
@[ext] theorem ext {a b : RegistrationId} (h : a.text = b.text) : a = b := by
  cases a; cases b; cases h; rfl

theorem isIdText (id : RegistrationId) : IsIdText id.text where
  pos := by
    rw [← String.length_toList]
    exact List.length_pos_iff.2 id.ne_nil
  length_le := by
    rw [← String.length_toList]
    exact id.length_le
  characters := fun c hc => isIdChar_iff.1 (List.all_eq_true.1 id.all_chars c hc)

theorem utf8Size_of_isIdChar {c : Char} (h : isIdChar c = true) : c.utf8Size = 1 := by
  rw [Char.utf8Size_eq_one_iff]
  simp only [isIdChar, Bool.or_eq_true, Bool.and_eq_true, decide_eq_true_eq, beq_iff_eq,
    Char.le_def] at h
  rcases h with (⟨-, h⟩ | ⟨-, h⟩) | rfl
  · exact UInt32.le_trans h (by decide)
  · exact UInt32.le_trans h (by decide)
  · decide

theorem utf8ByteSize_eq_length {s : String} (h : s.toList.all isIdChar) :
    s.utf8ByteSize = s.toList.length := by
  rw [String.length_toList]
  exact Text.Utf8.utf8ByteSize_eq_length fun c hc =>
    utf8Size_of_isIdChar (List.all_eq_true.1 h c hc)

/-- The buffer has room for every text that passes the checks before it. -/
theorem exists_ofString? {s : String} (hlen : s.toList.length ≤ maxIdLength)
    (hall : s.toList.all isIdChar) :
    ∃ held, Text.Buffer.ofString? maxIdLength s = some held := by
  have hsize : s.utf8ByteSize ≤ maxIdLength := by
    rw [utf8ByteSize_eq_length hall]
    exact hlen
  exact ⟨⟨s, hsize⟩, Text.Buffer.ofString?_eq_some_iff.2 rfl⟩

/-- A text is taken as it is, or the error is about its fault. -/
theorem parse_cases (s : String) :
    (∃ id, parse s = .ok id ∧ id.text = s) ∨ ∃ e, parse s = .error e ∧ IdFault s e := by
  unfold parse
  split
  next hempty => exact .inr ⟨_, rfl, .empty (String.toList_eq_nil_iff.1 hempty)⟩
  next hne =>
    split
    next hlen =>
      split
      next found position hfound =>
        obtain ⟨front, rest, hsplit, rfl, hfront, hc⟩ := wrongIdChar?_eq_some_iff.1 hfound
        rw [String.length_toList] at hlen
        exact .inr ⟨_, rfl, .wrongChar hlen hsplit hfront hc⟩
      next hright =>
        obtain ⟨held, hheld⟩ := exists_ofString? hlen (wrongIdChar?_eq_none_iff.1 hright)
        rw [hheld]
        exact .inl ⟨_, rfl, rfl⟩
    next hlong =>
      rw [String.length_toList] at hlong ⊢
      exact .inr ⟨_, rfl, .tooLong (Nat.not_le.1 hlong)⟩

/-- Every text of the form is accepted, as it is. -/
theorem parse_eq_ok_of_isIdText {s : String} (h : IsIdText s) : ∃ id, parse s = .ok id ∧ id.text = s := by
  obtain hok | ⟨e, -, hfault⟩ := parse_cases s
  · exact hok
  · exact absurd hfault h.not_idFault

theorem parse_eq_ok_iff {s : String} {id : RegistrationId} : parse s = .ok id ↔ id.text = s := by
  constructor
  · intro h
    obtain ⟨id', h', htext⟩ | ⟨e, h', -⟩ := parse_cases s
    · cases h'.symm.trans h
      exact htext
    · cases h'.symm.trans h
  · rintro rfl
    obtain ⟨id', h, htext⟩ := parse_eq_ok_of_isIdText id.isIdText
    rw [h, ext htext]

theorem parse_of_idFault {s : String} {e : Error} (h : IdFault s e) : parse s = .error e := by
  cases h with
  | empty hempty =>
    subst hempty
    rfl
  | tooLong hlong =>
    rw [← String.length_toList] at hlong ⊢
    have hlimit : ¬ s.toList.length ≤ maxIdLength := Nat.not_le.2 hlong
    rw [parse, dif_neg (List.ne_nil_of_length_pos (by omega)), dif_neg hlimit]
    rfl
  | @wrongChar front rest c hlength hsplit hfront hc =>
    have hfirst : wrongIdChar? s.toList = some (c, front.length) :=
      wrongIdChar?_eq_some_iff.2 ⟨front, rest, hsplit, rfl, hfront, hc⟩
    have hne : s.toList ≠ [] := by
      rw [hsplit]
      exact List.append_ne_nil_of_right_ne_nil _ (List.cons_ne_nil _ _)
    have hlimit : s.toList.length ≤ maxIdLength := by
      rw [String.length_toList]
      exact hlength
    rw [parse, dif_neg hne, dif_pos hlimit]
    split
    next found position hfound =>
      cases hfirst.symm.trans hfound
      rfl
    next hnone => cases hfirst.symm.trans hnone

theorem parse_eq_error_iff {s : String} {e : Error} : parse s = .error e ↔ IdFault s e := by
  constructor
  · intro h
    obtain ⟨id, h', -⟩ | ⟨e', h', hfault⟩ := parse_cases s
    · cases h'.symm.trans h
    · cases h'.symm.trans h
      exact hfault
  · exact parse_of_idFault

/-- Validation by the grammar: the texts of the form are accepted as they are, the text of an id is
read as this id, and the error for any other text is about its first fault. The buffer is never the
reason: it has room for every text that passes the checks before it. -/
theorem parse_by_grammar :
    (∀ s : String, ((∃ id, parse s = .ok id) ↔ IsIdText s) ∧
      (∀ id, parse s = .ok id ↔ id.text = s) ∧ (∀ e, parse s = .error e ↔ IdFault s e)) ∧
    ∀ s : String, (∃ e, IdFault s e) ∨ ∃ held, Text.Buffer.ofString? maxIdLength s = some held := by
  refine ⟨fun s => ⟨⟨?_, ?_⟩, fun id => parse_eq_ok_iff, fun e => parse_eq_error_iff⟩, fun s => ?_⟩
  · rintro ⟨id, h⟩
    rw [← parse_eq_ok_iff.1 h]
    exact id.isIdText
  · intro h
    obtain ⟨id, hid, -⟩ := parse_eq_ok_of_isIdText h
    exact ⟨id, hid⟩
  · obtain ⟨id, -, rfl⟩ | ⟨e, -, hfault⟩ := parse_cases s
    · exact .inr (exists_ofString? id.length_le id.all_chars)
    · exact .inl ⟨e, hfault⟩

end RegistrationId

end MeasuredIdentity
