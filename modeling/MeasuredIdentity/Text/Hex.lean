/-!
Hexadecimal digits, and numbers in hexadecimal.
-/
namespace MeasuredIdentity.Text

/-- The lower-case digit of a value. -/
def hexChar (v : Fin 16) : Char :=
  if v.val < 10 then Char.ofNat (48 + v.val) else Char.ofNat (87 + v.val)

/-- The value of a digit in either case. -/
def hexValue? (c : Char) : Option (Fin 16) :=
  if h : 48 ≤ c.toNat ∧ c.toNat ≤ 57 then some ⟨c.toNat - 48, by omega⟩
  else if h : 97 ≤ c.toNat ∧ c.toNat ≤ 102 then some ⟨c.toNat - 87, by omega⟩
  else if h : 65 ≤ c.toNat ∧ c.toNat ≤ 70 then some ⟨c.toNat - 55, by omega⟩
  else none

@[simp] theorem hexValue?_hexChar (v : Fin 16) : hexValue? (hexChar v) = some v := by
  revert v; decide

/-- The number that digits stand for, the most significant digit first. -/
def hexNumber (digits : List (Fin 16)) : Nat := digits.foldl (fun (n : Nat) d => 16 * n + d.val) 0

/-- The number that digits stand for if it is below a bound. Digits are taken in one by one, and
the first number on the way that is not below the bound ends the reading. -/
def hexNumberBelow? (bound : Nat) (digits : List (Fin 16)) : Option Nat :=
  digits.foldlM (fun (n : Nat) d => if 16 * n + d.val < bound then some (16 * n + d.val) else none) 0

theorem le_foldl_hexNumber (digits : List (Fin 16)) (n : Nat) :
    n ≤ digits.foldl (fun (n : Nat) d => 16 * n + d.val) n := by
  induction digits generalizing n with
  | nil => exact Nat.le_refl n
  | cons d digits ih => exact Nat.le_trans (by omega) (ih (16 * n + d.val))

theorem hexNumberBelow?_eq {bound : Nat} (h : 0 < bound) (digits : List (Fin 16)) :
    hexNumberBelow? bound digits
      = if hexNumber digits < bound then some (hexNumber digits) else none := by
  have general : ∀ (digits : List (Fin 16)) (n : Nat), n < bound →
      digits.foldlM (fun (n : Nat) d =>
        if 16 * n + d.val < bound then some (16 * n + d.val) else none) n
      = if digits.foldl (fun (n : Nat) d => 16 * n + d.val) n < bound then
          some (digits.foldl (fun (n : Nat) d => 16 * n + d.val) n) else none := by
    intro digits
    induction digits with
    | nil =>
      intro n hn
      exact (if_pos hn).symm
    | cons d digits ih =>
      intro n hn
      rw [List.foldlM_cons, List.foldl_cons]
      by_cases hd : 16 * n + d.val < bound
      · rw [if_pos hd]
        exact ih _ hd
      · have hle := le_foldl_hexNumber digits (16 * n + d.val)
        rw [if_neg hd, if_neg (by omega)]
        rfl
  exact general digits 0 h

/-- The bytes of pairs of digits. -/
def hexBytes : List (Fin 16) → List UInt8
  | a :: b :: rest => UInt8.ofNat (16 * a.val + b.val) :: hexBytes rest
  | _ => []

theorem length_hexBytes (digits : List (Fin 16)) : (hexBytes digits).length = digits.length / 2 := by
  fun_induction hexBytes digits with
  | case1 a b rest ih => simp [ih]; omega
  | case2 digits h =>
    match digits, h with
    | [], _ => rfl
    | [_], _ => simp
    | a :: b :: rest, h => exact absurd rfl (h a b rest)

def hexDigits (n : Nat) : List Char := Nat.toDigits 16 n

/-- Lower-case hexadecimal behind `0x`, without leading zeros. -/
def hex (n : Nat) : String := String.ofList ('0' :: 'x' :: hexDigits n)

/-- Lower-case hexadecimal behind `0x`, with at least `width` digits. -/
def paddedHex (width n : Nat) : String :=
  let ds := hexDigits n
  String.ofList ('0' :: 'x' :: (List.replicate (width - ds.length) '0' ++ ds))

end MeasuredIdentity.Text
