import MeasuredIdentity.Enrollment.SecretText
import MeasuredIdentity.Proofs.HexDigits
import MeasuredIdentity.Proofs.IdGrammar
import Mathlib.Data.List.Basic

/-!
The digits of a device secret. A text is read exactly if it is the hexadecimal form of 32 bytes, in
either case and mixed, and these bytes are what is read. Any other text is refused, with all its
characters that are no digits if it has 64 characters. What is left for decoding is always in order.
-/
namespace MeasuredIdentity

namespace Text

instance : DecidablePred IsHexDigit := fun _ => inferInstanceAs (Decidable (_ ∨ _ ∨ _))

/-- The two digits of a byte. -/
def hexPair (x : UInt8) : List (Fin 16) :=
  [⟨x.toNat / 16, Nat.div_lt_of_lt_mul x.toNat_lt⟩, ⟨x.toNat % 16, Nat.mod_lt _ (by decide)⟩]

/-- The hexadecimal form of a byte string, in lower case. -/
def hexForm (b : Bytes) : List Char := (b.flatMap hexPair).map hexChar

theorem hexBytes_flatMap_hexPair (b : Bytes) : hexBytes (b.flatMap hexPair) = b := by
  induction b with
  | nil => rfl
  | cons x b ih =>
    have hx : 16 * (x.toNat / 16) + x.toNat % 16 = x.toNat := Nat.div_add_mod _ _
    rw [List.flatMap_cons, hexPair, List.cons_append, List.cons_append, List.nil_append, hexBytes, ih,
      hx, UInt8.ofNat_toNat]

/-- Digits in pairs are the digits of their bytes. -/
theorem flatMap_hexPair_hexBytes {digits : List (Fin 16)} (h : digits.length % 2 = 0) :
    (hexBytes digits).flatMap hexPair = digits := by
  fun_induction hexBytes digits with
  | case1 high low rest ih =>
    have hlow := low.isLt
    have hhigh := high.isLt
    have hbyte : (UInt8.ofNat (16 * high.val + low.val)).toNat = 16 * high.val + low.val :=
      UInt8.toNat_ofNat_of_lt' (Nat.lt_of_lt_of_le (by omega) (Nat.le_refl 256))
    have hpair : hexPair (UInt8.ofNat (16 * high.val + low.val)) = [high, low] := by
      simp only [hexPair, hbyte, List.cons.injEq, Fin.ext_iff, and_true]
      omega
    rw [List.length_cons, List.length_cons] at h
    rw [List.flatMap_cons, hpair, ih (by omega)]
    rfl
  | case2 digits hshort =>
    rcases digits with _ | ⟨a, _ | ⟨b, rest⟩⟩
    · rfl
    · cases h
    · exact absurd rfl (hshort a b rest)

theorem length_flatMap_hexPair (b : Bytes) : (b.flatMap hexPair).length = 2 * b.length := by
  induction b with
  | nil => rfl
  | cons x b ih =>
    rw [List.flatMap_cons, List.length_append, ih, List.length_cons, hexPair]
    simp only [List.length_cons, List.length_nil]
    omega

theorem map_hexChar_injective : Function.Injective (List.map hexChar) :=
  List.map_injective_iff.2 fun _ _ => hexChar_injective

theorem hexForm_injective {b b' : Bytes} (h : hexForm b = hexForm b') : b = b' := by
  rw [← hexBytes_flatMap_hexPair b, map_hexChar_injective h, hexBytes_flatMap_hexPair]

theorem IsHexDigit.toNat_lt {c : Char} (h : IsHexDigit c) : c.toNat < 128 := by
  rw [isHexDigit_iff_toNat] at h
  omega

theorem hexDigitAt_of_hexValue? {c : Char} {v : Fin 16} (h : hexValue? c = some v) (index : Nat) :
    hexDigitAt (UInt8.ofNat c.toNat, index) = .ok v := by
  have hlt := (exists_hexValue?_iff.1 ⟨v, h⟩).toNat_lt
  have hbyte : (UInt8.ofNat c.toNat).toNat = c.toNat :=
    UInt8.toNat_ofNat_of_lt' (Nat.lt_trans hlt (by decide))
  simp only [hexDigitAt, hbyte, Char.ofNat_toNat, h]

theorem mapM_hexDigitAt {cs : List Char} {digits : List (Fin 16)}
    (h : cs.mapM hexValue? = some digits) (index : Nat) :
    ((cs.map fun c => UInt8.ofNat c.toNat).zipIdx index).mapM hexDigitAt = .ok digits := by
  induction cs generalizing digits index with
  | nil =>
    cases h
    rfl
  | cons c cs ih =>
    simp only [List.mapM_cons, Option.bind_eq_bind, Option.bind_eq_some_iff, Option.pure_def,
      Option.some.injEq] at h
    obtain ⟨v, hc, rest, hrest, rfl⟩ := h
    rw [List.map_cons, List.zipIdx_cons, List.mapM_cons, hexDigitAt_of_hexValue? hc, ih hrest]
    rfl

/-- A text of digits is decoded into a buffer of half its size. -/
theorem exists_decodeHex {s : String} (size : Nat) (hlength : s.length = 2 * size)
    (hdigits : ∀ c ∈ s.toList, IsHexDigit c) :
    ∃ bytes, decodeHex size (Utf8.encode s) = .ok bytes ∧
      s.toList.map Char.toLower = hexForm bytes.toList := by
  obtain ⟨digits, h⟩ := exists_mapM_hexValue?_iff.2 hdigits
  have hlower := mapM_hexValue?_eq_some_iff.1 h
  have hcount : digits.length = 2 * size := by
    have hlengths := congrArg List.length hlower
    rw [List.length_map, List.length_map, String.length_toList] at hlengths
    rw [← hlengths, hlength]
  have hencode := Utf8.encode_eq_map fun c hc => (hdigits c hc).toNat_lt
  have hmapM := mapM_hexDigitAt h 0
  rw [← hencode] at hmapM
  have hsize : (Utf8.encode s).length = 2 * size := by
    rw [hencode, List.length_map, String.length_toList, hlength]
  have hbytes : (hexBytes digits).length = size := by
    rw [length_hexBytes, hcount]
    omega
  refine ⟨⟨hexBytes digits, hbytes⟩, ?_, ?_⟩
  · rw [decodeHex, if_neg (by omega), dif_pos (by omega)]
    split
    next found hfound =>
      cases hfound.symm.trans hmapM
      rfl
    next e herror => cases herror.symm.trans hmapM
  · rw [hlower, hexForm, flatMap_hexPair_hexBytes (by omega)]

end Text

namespace Enrollment

/-- 64 hexadecimal digits. -/
structure IsSecretText (s : String) : Prop where
  length_eq : s.length = 64
  digits : ∀ c ∈ s.toList, Text.IsHexDigit c

/-- The characters that are no digits, in the order of their positions, which count from one. -/
structure ListsNonDigits (s : List Char) (found : List (Char × Nat)) : Prop where
  mem_iff : ∀ c position, (c, position) ∈ found ↔
    1 ≤ position ∧ s[position - 1]? = some c ∧ ¬ Text.IsHexDigit c
  ascending : found.Pairwise fun x y => x.2 < y.2

/-- Why a text is no secret, and the lines that are logged for it. -/
inductive SecretFault (s : String) : SecretTextError → List String → Prop
  | empty (h : s = "") : SecretFault s .empty []
  | wrongLength (hne : s ≠ "") (h : s.length ≠ 64) : SecretFault s (.wrongLength s.length) []
  | nonHex {found : List (Char × Nat)} (hlength : s.length = 64) (hne : found ≠ [])
      (hfound : ListsNonDigits s.toList found)
      (hcount : found.length = s.toList.countP fun c => ¬ Text.IsHexDigit c) :
      SecretFault s (.nonHex found) (found.map fun x => "UDS character " ++ toString x.2 ++ " (" ++
        Text.quotedChar x.1 ++ ") is not a hex digit")

theorem hexValue?_isNone_iff {c : Char} : (Text.hexValue? c).isNone = true ↔ ¬ Text.IsHexDigit c := by
  rw [← Text.exists_hexValue?_iff, Option.isNone_iff_eq_none, Option.eq_none_iff_forall_ne_some,
    not_exists]

theorem listsNonDigits_nonHexChars (s : List Char) : ListsNonDigits s (nonHexChars s) where
  mem_iff c position := by
    rw [nonHexChars, List.mem_filter, List.mk_mem_zipIdx_iff_le_and_getElem?_sub,
      hexValue?_isNone_iff, and_assoc]
  ascending := by
    have hpositions : ((s.zipIdx 1).map Prod.snd).Pairwise (· < ·) := by
      rw [List.zipIdx_map_snd]
      exact List.pairwise_lt_range'
    exact (List.pairwise_map.1 hpositions).filter _

theorem length_nonHexChars (s : List Char) :
    (nonHexChars s).length = s.countP fun c => ¬ Text.IsHexDigit c := by
  have hfst : s.countP (fun c => (Text.hexValue? c).isNone) =
      ((s.zipIdx 1).map Prod.fst).countP fun c => (Text.hexValue? c).isNone := by
    rw [List.zipIdx_map_fst]
  rw [nonHexChars, ← List.countP_eq_length_filter]
  refine (List.countP_map (l := s.zipIdx 1)).symm.trans (hfst.symm.trans ?_)
  refine List.countP_congr fun c _ => ?_
  rw [hexValue?_isNone_iff, decide_eq_true_eq]

theorem nonHexChars_eq_nil_iff {s : List Char} :
    nonHexChars s = [] ↔ ∀ c ∈ s, Text.IsHexDigit c := by
  rw [← List.length_eq_zero_iff, length_nonHexChars, List.countP_eq_zero]
  simp only [decide_eq_true_eq, not_not]

/-- A text is the form of the secret, or the error is about its fault. -/
theorem parseSecret_cases (s : String) :
    (∃ bytes, parseSecret s = .ok (.provisioned bytes) ∧
      s.toList.map Char.toLower = Text.hexForm bytes.toList) ∨
    ∃ e, parseSecret s = .error e ∧ SecretFault s e e.log := by
  unfold parseSecret
  split
  next hempty => exact .inr ⟨_, rfl, .empty (String.toList_eq_nil_iff.1 hempty)⟩
  next hne =>
    have hne : s ≠ "" := fun h => hne (String.toList_eq_nil_iff.2 h)
    rw [String.length_toList]
    split
    next hlength =>
      split
      next hnone =>
        obtain ⟨bytes, hbytes, hform⟩ :=
          Text.exists_decodeHex 32 hlength (nonHexChars_eq_nil_iff.1 hnone)
        rw [hbytes]
        exact .inl ⟨bytes, rfl, hform⟩
      next hsome =>
        exact .inr ⟨_, rfl, .nonHex hlength hsome (listsNonDigits_nonHexChars _)
          (length_nonHexChars _)⟩
    next hlength => exact .inr ⟨_, rfl, .wrongLength hne hlength⟩

theorem SecretFault.not_isSecretText {s : String} {e : SecretTextError} {lines : List String}
    (h : SecretFault s e lines) : ¬ IsSecretText s := by
  intro htext
  cases h with
  | empty hempty =>
    subst hempty
    exact absurd htext.length_eq (by decide)
  | wrongLength _ hlength => exact hlength htext.length_eq
  | nonHex _ hne hfound =>
    obtain ⟨⟨c, position⟩, hmem⟩ := List.exists_mem_of_ne_nil _ hne
    obtain ⟨-, hc, hwrong⟩ := (hfound.mem_iff c position).1 hmem
    exact hwrong (htext.digits c (List.mem_of_getElem? hc))

/-- The form of 32 bytes is 64 digits. -/
theorem isSecretText_of_form {s : String} {bytes : Octets 32}
    (h : s.toList.map Char.toLower = Text.hexForm bytes.toList) : IsSecretText s where
  length_eq := by
    have hlength := congrArg List.length h
    rw [Text.hexForm, List.length_map, List.length_map, String.length_toList] at hlength
    rw [hlength, Text.length_flatMap_hexPair, bytes.length_toList]
  digits := Text.exists_mapM_hexValue?_iff.1 ⟨_, Text.mapM_hexValue?_eq_some_iff.2 h⟩

theorem parseSecret_eq_ok_iff {s : String} {secret : DeviceSecret} :
    parseSecret s = .ok secret ↔ secret.tag = DeviceSecret.provisioningTag ∧
      s.toList.map Char.toLower = Text.hexForm secret.bytes.toList := by
  obtain ⟨bytes, hok, hform⟩ | ⟨e, herror, hfault⟩ := parseSecret_cases s
  · rw [hok, Except.ok.injEq]
    constructor
    · rintro rfl
      exact ⟨rfl, hform⟩
    · obtain ⟨tag, bytes'⟩ := secret
      rintro ⟨rfl, hform'⟩
      rw [Octets.ext (Text.hexForm_injective (hform.symm.trans hform'))]
      rfl
  · rw [herror]
    exact iff_of_false nofun fun h => hfault.not_isSecretText (isSecretText_of_form h.2)

theorem exists_parseSecret_iff {s : String} : (∃ secret, parseSecret s = .ok secret) ↔ IsSecretText s := by
  constructor
  · rintro ⟨secret, h⟩
    exact isSecretText_of_form (parseSecret_eq_ok_iff.1 h).2
  · intro htext
    obtain ⟨bytes, hok, -⟩ | ⟨e, -, hfault⟩ := parseSecret_cases s
    · exact ⟨_, hok⟩
    · exact absurd htext hfault.not_isSecretText

/-- A list in ascending order is determined by its members. -/
theorem ListsNonDigits.unique {s : List Char} {found found' : List (Char × Nat)}
    (h : ListsNonDigits s found) (h' : ListsNonDigits s found') : found = found' := by
  refine List.Perm.eq_of_pairwise ?_ h.ascending h'.ascending ?_
  · intro x y _ _ hlt hgt
    omega
  · refine (List.perm_ext_iff_of_nodup ?_ ?_).2 fun x => ?_
    · exact h.ascending.imp fun hlt heq => Nat.ne_of_lt hlt (congrArg Prod.snd heq)
    · exact h'.ascending.imp fun hlt heq => Nat.ne_of_lt hlt (congrArg Prod.snd heq)
    · exact (h.mem_iff x.1 x.2).trans (h'.mem_iff x.1 x.2).symm

/-- A text has one fault at most. -/
theorem SecretFault.unique {s : String} {e e' : SecretTextError} {lines lines' : List String}
    (h : SecretFault s e lines) (h' : SecretFault s e' lines') : e = e' ∧ lines = lines' := by
  cases h with
  | empty hempty =>
    cases h' with
    | empty => exact ⟨rfl, rfl⟩
    | wrongLength hne => exact absurd hempty hne
    | nonHex hlength =>
      subst hempty
      exact absurd hlength (by decide)
  | wrongLength hne hwrong =>
    cases h' with
    | empty hempty => exact absurd hempty hne
    | wrongLength => exact ⟨rfl, rfl⟩
    | nonHex hlength => exact absurd hlength hwrong
  | nonHex hlength _ hfound =>
    cases h' with
    | empty hempty =>
      subst hempty
      exact absurd hlength (by decide)
    | wrongLength _ hwrong => exact absurd hlength hwrong
    | nonHex _ _ hfound' =>
      obtain rfl := hfound.unique hfound'
      exact ⟨rfl, rfl⟩

theorem parseSecret_eq_error_iff {s : String} {e : SecretTextError} {lines : List String} :
    parseSecret s = .error e ∧ e.log = lines ↔ SecretFault s e lines := by
  constructor
  · rintro ⟨h, rfl⟩
    obtain ⟨bytes, hok, -⟩ | ⟨e', herror, hfault⟩ := parseSecret_cases s
    · cases hok.symm.trans h
    · cases herror.symm.trans h
      exact hfault
  · intro hfault
    obtain ⟨bytes, hok, hform⟩ | ⟨e', herror, hfault'⟩ := parseSecret_cases s
    · exact absurd (isSecretText_of_form hform) hfault.not_isSecretText
    · obtain ⟨rfl, rfl⟩ := hfault'.unique hfault
      exact ⟨herror, rfl⟩

/-- The digits of a secret are read as what they are. A text is accepted exactly if it is 64
hexadecimal digits, what is read is the provisioned secret whose form it is in some mixture of
cases, and any other text is refused for its fault, with one line for each character that is no
digit. Decoding is never the reason. -/
theorem parseSecret_by_digits (s : String) :
    ((∃ secret, parseSecret s = .ok secret) ↔ IsSecretText s) ∧
    (∀ secret, parseSecret s = .ok secret ↔ secret.tag = 0x00534455 ∧
      s.toList.map Char.toLower = Text.hexForm secret.bytes.toList) ∧
    (∀ secret, parseSecret s = .ok secret → secret.validate = .ok ()) ∧
    (∀ e lines, parseSecret s = .error e ∧ e.log = lines ↔ SecretFault s e lines) ∧
    (∀ found, parseSecret s = .error (.nonHex found) →
      (SecretTextError.nonHex found).message = "UDS contains " ++
        toString (s.toList.countP fun c => ¬ Text.IsHexDigit c) ++ " non hex characters") ∧
    (IsSecretText s → ∃ bytes, Text.decodeHex 32 (Text.Utf8.encode s) = .ok bytes) ∧
    ∀ cause, parseSecret s ≠ .error (.undecodable cause) := by
  refine ⟨exists_parseSecret_iff, fun secret => parseSecret_eq_ok_iff, ?_, fun e lines =>
    parseSecret_eq_error_iff, ?_, ?_, ?_⟩
  · intro secret h
    exact if_pos (parseSecret_eq_ok_iff.1 h).1
  · intro found h
    cases parseSecret_eq_error_iff.1 ⟨h, rfl⟩ with
    | nonHex _ _ _ hcount => rw [SecretTextError.message, hcount]
  · intro htext
    obtain ⟨bytes, hbytes, -⟩ := Text.exists_decodeHex 32 htext.length_eq htext.digits
    exact ⟨bytes, hbytes⟩
  · intro cause h
    cases parseSecret_eq_error_iff.1 ⟨h, rfl⟩

end Enrollment

end MeasuredIdentity
