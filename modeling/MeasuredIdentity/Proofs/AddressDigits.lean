import MeasuredIdentity.Enrollment.LinkMap
import MeasuredIdentity.Proofs.HexDigits
import Mathlib.Data.List.Induction
import Mathlib.Data.Nat.Digits.Defs

/-!
Addresses in a map file. A token is read as the number that its digits write, whatever their case
and however many zeros stand in front. Every other token is refused for a fault, except that one
plus sign is passed over where the digits begin.
-/
namespace MeasuredIdentity

namespace Text

/-- At least one digit, in either case, and the number that the digits write. -/
def IsNumeral (s : List Char) (n : Nat) : Prop :=
  s ≠ [] ∧ ∃ digits : List (Fin 16), s.map Char.toLower = digits.map hexChar ∧
    Nat.ofDigits 16 (digits.reverse.map Fin.val) = n

variable {s : List Char} {values : List (Fin 16)} {n : Nat}

theorem toLower_eq_zero_iff {c : Char} : c.toLower = '0' ↔ c = '0' := by
  rw [← Char.toNat_inj, ← Char.toNat_inj, toNat_toLower]
  simp only [Char.reduceToNat]
  split_ifs <;> omega

theorem toLower_eq_x_iff {c : Char} : c.toLower = 'x' ↔ c = 'x' ∨ c = 'X' := by
  rw [← Char.toNat_inj, ← Char.toNat_inj, ← Char.toNat_inj, toNat_toLower]
  simp only [Char.reduceToNat]
  split_ifs <;> omega

theorem hexNumber_append_singleton (values : List (Fin 16)) (v : Fin 16) :
    hexNumber (values ++ [v]) = 16 * hexNumber values + v.val := by
  simp [hexNumber]

theorem hexNumber_eq_ofDigits (values : List (Fin 16)) :
    hexNumber values = Nat.ofDigits 16 (values.reverse.map Fin.val) := by
  induction values using List.reverseRecOn with
  | nil => rfl
  | append_singleton values v ih =>
    rw [hexNumber_append_singleton, ih, List.reverse_append, List.reverse_singleton,
      List.singleton_append, List.map_cons, Nat.ofDigits_cons, Nat.add_comm]

theorem isNumeral_iff_mapM : IsNumeral s n ↔
    s ≠ [] ∧ ∃ values, s.mapM hexValue? = some values ∧ hexNumber values = n := by
  simp only [IsNumeral, mapM_hexValue?_eq_some_iff, hexNumber_eq_ofDigits]

theorem exists_isNumeral_iff : (∃ n, IsNumeral s n) ↔ s ≠ [] ∧ ∀ c ∈ s, IsHexDigit c := by
  rw [← exists_mapM_hexValue?_iff]
  simp only [isNumeral_iff_mapM]
  constructor
  · rintro ⟨n, hne, values, hvalues, -⟩
    exact ⟨hne, values, hvalues⟩
  · rintro ⟨hne, values, hvalues⟩
    exact ⟨_, hne, values, hvalues, rfl⟩

theorem IsNumeral.unique {m : Nat} (hn : IsNumeral s n) (hm : IsNumeral s m) : n = m := by
  obtain ⟨-, values, hvalues, rfl⟩ := isNumeral_iff_mapM.1 hn
  obtain ⟨-, values', hvalues', rfl⟩ := isNumeral_iff_mapM.1 hm
  rw [Option.some.inj (hvalues.symm.trans hvalues')]

theorem hexChar_eq_digitChar (v : Fin 16) : hexChar v = Nat.digitChar v.val := by
  revert v
  decide

/-- Digits are the printed form of their number behind some zeros. -/
theorem exists_replicate_append_hexDigits (hne : values ≠ []) :
    ∃ zeros, values.map hexChar = List.replicate zeros '0' ++ hexDigits (hexNumber values) := by
  induction values using List.reverseRecOn with
  | nil => exact absurd rfl hne
  | append_singleton values v ih =>
    have hlast : hexDigits v.val = [hexChar v] := by
      rw [hexDigits, Nat.toDigits_of_lt_base v.isLt, hexChar_eq_digitChar]
    rw [List.map_append, List.map_singleton, hexNumber_append_singleton]
    cases values with
    | nil => exact ⟨0, by rw [hexNumber, List.foldl_nil, Nat.mul_zero, Nat.zero_add, hlast]; rfl⟩
    | cons w values =>
      obtain ⟨zeros, hzeros⟩ := ih (List.cons_ne_nil w values)
      rw [hzeros]
      obtain hnumber | hnumber := Nat.eq_zero_or_pos (hexNumber (w :: values))
      · -- The digits in front are zeros only, the printed form of their number too.
        refine ⟨zeros + 1, ?_⟩
        rw [hnumber, Nat.mul_zero, Nat.zero_add, hlast, List.replicate_succ']
        rfl
      · refine ⟨zeros, ?_⟩
        rw [hexDigits, hexDigits, ← Nat.toDigits_append_toDigits (by decide) hnumber v.isLt,
          List.append_assoc]
        exact congrArg _ (congrArg _ hlast.symm)

/-- A number is read back from its printed form. -/
theorem exists_hexDigits_eq (n : Nat) :
    ∃ values, hexDigits n = values.map hexChar ∧ hexNumber values = n := by
  induction n using Nat.strongRecOn with
  | ind n ih =>
    by_cases hn : n < 16
    · refine ⟨[⟨n, hn⟩], ?_, ?_⟩
      · rw [hexDigits, Nat.toDigits_of_lt_base hn, List.map_singleton, hexChar_eq_digitChar]
      · simp [hexNumber]
    · obtain ⟨values, hvalues, hnumber⟩ := ih (n / 16) (by omega)
      refine ⟨values ++ [⟨n % 16, by omega⟩], ?_, ?_⟩
      · rw [hexDigits, Nat.toDigits_of_base_le (by decide) (by omega), List.map_append, ← hvalues,
          List.map_singleton, hexChar_eq_digitChar]
        rfl
      · rw [hexNumber_append_singleton, hnumber]
        show 16 * (n / 16) + n % 16 = n
        omega

theorem hexNumber_replicate_append (zeros : Nat) (values : List (Fin 16)) :
    hexNumber (List.replicate zeros 0 ++ values) = hexNumber values := by
  induction zeros with
  | zero => rfl
  | succ zeros ih => exact ih

/-- The numerals of a number are its printed form behind zeros, up to their case. -/
theorem isNumeral_iff_hexDigits : IsNumeral s n ↔
    ∃ zeros, s.map Char.toLower = List.replicate zeros '0' ++ hexDigits n := by
  simp only [IsNumeral, ← hexNumber_eq_ofDigits]
  constructor
  · rintro ⟨hne, values, hs, rfl⟩
    rw [hs]
    refine exists_replicate_append_hexDigits ?_
    rintro rfl
    exact hne (List.map_eq_nil_iff.1 hs)
  · rintro ⟨zeros, hs⟩
    obtain ⟨values, hvalues, rfl⟩ := exists_hexDigits_eq n
    refine ⟨?_, List.replicate zeros 0 ++ values, ?_, hexNumber_replicate_append _ _⟩
    · rintro rfl
      exact Nat.toDigits_ne_nil (List.append_eq_nil_iff.1 hs.symm).2
    · rw [hs, hvalues, List.map_append, List.map_replicate]
      rfl

end Text

namespace Enrollment.Address

open Text

/-- A token with a mark, and what stands behind it. -/
def IsMarked (token rest : List Char) : Prop :=
  token = '0' :: 'x' :: rest ∨ token = '0' :: 'X' :: rest

/-- A mark and the digits of a number. The number of a `UInt64` is below 2⁶⁴. -/
def IsAddress (token : List Char) (address : UInt64) : Prop :=
  ∃ digits, IsMarked token digits ∧ IsNumeral digits address.toNat

/-- An address with a plus sign between its mark and its digits. -/
def IsPlusAddress (token : List Char) (address : UInt64) : Prop :=
  ∃ digits, IsMarked token ('+' :: digits) ∧ IsNumeral digits address.toNat

/-- Why a token is no address. A sign is no digit. -/
inductive Fault (token : List Char) : Prop
  | unmarked (h : ∀ rest, ¬ IsMarked token rest)
  | noDigits (h : IsMarked token [])
  | nonDigit {rest : List Char} {c : Char} (h : IsMarked token rest) (hmem : c ∈ rest)
      (hc : ¬ IsHexDigit c)
  | tooLarge {digits : List Char} {n : Nat} (h : IsMarked token digits) (hn : IsNumeral digits n)
      (hlarge : 2 ^ 64 ≤ n)

variable {token rest : List Char} {address : UInt64}

theorem IsMarked.unique {rest' : List Char} (h : IsMarked token rest) (h' : IsMarked token rest') :
    rest = rest' := by
  obtain rfl | rfl := h <;> simpa [IsMarked] using h'

theorem isMarked_cons_iff {x : Char} {s : List Char} :
    IsMarked ('0' :: x :: s) rest ↔ (x = 'x' ∨ x = 'X') ∧ s = rest := by
  simp only [IsMarked, List.cons.injEq, true_and]
  exact or_and_right.symm

theorem not_isHexDigit_plus : ¬ IsHexDigit '+' := by
  rw [isHexDigit_iff_toNat]
  decide

theorem not_isNumeral_plus (digits : List Char) (n : Nat) : ¬ IsNumeral ('+' :: digits) n := fun h =>
  not_isHexDigit_plus ((exists_isNumeral_iff.1 ⟨n, h⟩).2 '+' List.mem_cons_self)

/-- A number below the bound is kept as it is. -/
theorem map_hexNumberBelow?_eq_some_iff {values : List (Fin 16)} :
    (hexNumberBelow? UInt64.size values).map UInt64.ofNat = some address ↔
      hexNumber values = address.toNat := by
  rw [hexNumberBelow?_eq (by decide)]
  split_ifs with hlt
  · rw [Option.map_some, Option.some.injEq, ← UInt64.toNat_inj, UInt64.toNat_ofNat_of_lt' hlt]
  · refine iff_of_false nofun fun h => hlt ?_
    rw [h]
    exact address.toNat_lt_size

theorem ofDigits?_eq_some_iff {digits : List Char} :
    ofDigits? digits = some address ↔ IsNumeral digits address.toNat := by
  have hread (hne : digits ≠ []) : ofDigits? digits = (digits.mapM hexValue?).bind
      fun values => (hexNumberBelow? UInt64.size values).map UInt64.ofNat := by
    simp only [ofDigits?, if_neg hne, Option.map_eq_bind]
    rfl
  rw [isNumeral_iff_mapM]
  by_cases hnil : digits = []
  · exact iff_of_false (by simp [ofDigits?, hnil]) fun h => h.1 hnil
  · rw [hread hnil, Option.bind_eq_some_iff]
    simp only [map_hexNumberBelow?_eq_some_iff]
    exact (and_iff_right hnil).symm

theorem isAddress_cons_iff {x : Char} {s : List Char} :
    IsAddress ('0' :: x :: s) address ↔ (x = 'x' ∨ x = 'X') ∧ IsNumeral s address.toNat := by
  simp only [IsAddress, isMarked_cons_iff, and_assoc, exists_and_left, exists_eq_left']

theorem isPlusAddress_cons_iff {x : Char} {s : List Char} :
    IsPlusAddress ('0' :: x :: s) address ↔
      (x = 'x' ∨ x = 'X') ∧ ∃ digits, s = '+' :: digits ∧ IsNumeral digits address.toNat := by
  simp only [IsPlusAddress, isMarked_cons_iff, and_assoc, exists_and_left]

/-- One plus sign behind the mark is passed over. -/
theorem parse?_eq_some_iff :
    parse? token = some address ↔ IsAddress token address ∨ IsPlusAddress token address := by
  unfold parse?
  split
  next x digits =>
    rw [Option.ite_none_right_eq_some, ofDigits?_eq_some_iff, isAddress_cons_iff,
      isPlusAddress_cons_iff]
    simp [not_isNumeral_plus]
  next x digits hplus =>
    rw [Option.ite_none_right_eq_some, ofDigits?_eq_some_iff, isAddress_cons_iff,
      isPlusAddress_cons_iff]
    refine (or_iff_left ?_).symm
    rintro ⟨-, rest, rfl, -⟩
    exact hplus rest rfl
  next hmark =>
    refine iff_of_false nofun ?_
    rintro (⟨rest, rfl | rfl, -⟩ | ⟨rest, rfl | rfl, -⟩)
    all_goals exact hmark _ _ rfl

/-- What keeps a token from being an address is one of the faults. -/
theorem exists_isAddress_iff_not_fault : (∃ address, IsAddress token address) ↔ ¬ Fault token := by
  constructor
  · rintro ⟨address, digits, hmarked, hnumeral⟩ hfault
    obtain ⟨hne, hdigits⟩ := exists_isNumeral_iff.1 ⟨_, hnumeral⟩
    cases hfault with
    | unmarked h => exact h digits hmarked
    | noDigits h => exact hne (hmarked.unique h)
    | nonDigit h hmem hc =>
      obtain rfl := hmarked.unique h
      exact hc (hdigits _ hmem)
    | tooLarge h hn hlarge =>
      obtain rfl := hmarked.unique h
      have hlt := address.toNat_lt
      rw [hnumeral.unique hn] at hlt
      exact Nat.not_le.2 hlt hlarge
  · intro hfault
    by_cases hmark : ∃ rest, IsMarked token rest
    · obtain ⟨rest, hmarked⟩ := hmark
      have hne : rest ≠ [] := by
        rintro rfl
        exact hfault (.noDigits hmarked)
      have hdigits : ∀ c ∈ rest, IsHexDigit c := fun c hmem =>
        Classical.byContradiction fun hc => hfault (.nonDigit hmarked hmem hc)
      obtain ⟨n, hn⟩ := exists_isNumeral_iff.2 ⟨hne, hdigits⟩
      have hlt : n < 2 ^ 64 := Nat.not_le.1 fun hlarge => hfault (.tooLarge hmarked hn hlarge)
      refine ⟨UInt64.ofNat n, rest, hmarked, ?_⟩
      rwa [UInt64.toNat_ofNat_of_lt' hlt]
    · exact absurd (.unmarked (not_exists.1 hmark)) hfault

theorem parse?_eq_none_iff :
    parse? token = none ↔ Fault token ∧ ∀ address, ¬ IsPlusAddress token address := by
  rw [← not_not (a := Fault token), ← exists_isAddress_iff_not_fault, not_exists, ← forall_and,
    Option.eq_none_iff_forall_ne_some]
  simp only [ne_eq, parse?_eq_some_iff, not_or]

/-- The addresses of a number are its printed form of some width, up to its case. -/
theorem isAddress_iff_paddedHex : IsAddress token address ↔
    ∃ width, token.map Char.toLower = (paddedHex width address.toNat).toList := by
  simp only [paddedHex, String.toList_ofList]
  constructor
  · rintro ⟨digits, hmarked, hnumeral⟩
    obtain ⟨zeros, hzeros⟩ := isNumeral_iff_hexDigits.1 hnumeral
    have hlower : token.map Char.toLower = '0' :: 'x' :: digits.map Char.toLower := by
      obtain rfl | rfl := hmarked <;> rfl
    refine ⟨zeros + (hexDigits address.toNat).length, ?_⟩
    rw [hlower, hzeros, Nat.add_sub_cancel]
  · rintro ⟨width, hlower⟩
    obtain ⟨c, tail, rfl, hc, htail⟩ := List.map_eq_cons_iff.1 hlower
    obtain ⟨x, digits, rfl, hx, hdigits⟩ := List.map_eq_cons_iff.1 htail
    obtain rfl := toLower_eq_zero_iff.1 hc
    exact isAddress_cons_iff.2 ⟨toLower_eq_x_iff.1 hx, isNumeral_iff_hexDigits.2 ⟨_, hdigits⟩⟩

theorem IsPlusAddress.fault (h : IsPlusAddress token address) : Fault token := by
  obtain ⟨digits, hmarked, -⟩ := h
  exact .nonDigit hmarked List.mem_cons_self not_isHexDigit_plus

theorem exists_parse?_and_not_isAddress_iff :
    (∃ address, parse? token = some address ∧ ¬ IsAddress token address) ↔
      ∃ address, IsPlusAddress token address := by
  refine exists_congr fun address => ?_
  rw [parse?_eq_some_iff, or_and_right, and_not_self_iff, false_or, and_iff_left_iff_imp]
  intro hplus haddress
  exact exists_isAddress_iff_not_fault.1 ⟨address, haddress⟩ hplus.fault

/-- Addresses are read exactly, up to a plus sign. A token without a fault is a mark and the digits
of a number below 2⁶⁴, which are its printed form in either case and with any zeros in front, and
is read as this number. Of the other tokens, those with one plus sign behind the mark of an address
are read as well. -/
theorem read_up_to_plus (token : List Char) :
    (∀ address,
      parse? token = some address ↔ IsAddress token address ∨ IsPlusAddress token address) ∧
    (parse? token = none ↔ Fault token ∧ ∀ address, ¬ IsPlusAddress token address) ∧
    ((∃ address, IsAddress token address) ↔ ¬ Fault token) ∧
    (∀ address, IsAddress token address ↔
      ∃ width, token.map Char.toLower = (paddedHex width address.toNat).toList) ∧
    ((∃ address, parse? token = some address ∧ ¬ IsAddress token address) ↔
      ∃ address, IsPlusAddress token address) :=
  ⟨fun _ => parse?_eq_some_iff, parse?_eq_none_iff, exists_isAddress_iff_not_fault,
    fun _ => isAddress_iff_paddedHex, exists_parse?_and_not_isAddress_iff⟩

/-- A plus sign is no digit, but what stands behind it becomes the origin of the flash memory and
the address of a symbol. -/
theorem plus_sign_accepted : (∀ address, ¬ IsAddress "0x+10".toList address) ∧
    parse? "0x+10".toList = some 0x10 ∧
    (LinkMap.parse "FLASH 0x+10\n0x+10 s = .").flashOrigin = some 0x10 ∧
    (LinkMap.parse "FLASH 0x+10\n0x+10 s = .").symbol? "s" = some 0x10 := by
  refine ⟨?_, by decide, by decide, by decide⟩
  intro address haddress
  have hfault : Fault "0x+10".toList :=
    .nonDigit (.inl rfl) List.mem_cons_self not_isHexDigit_plus
  exact exists_isAddress_iff_not_fault.1 ⟨address, haddress⟩ hfault

end Enrollment.Address

end MeasuredIdentity
