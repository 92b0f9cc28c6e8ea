import MeasuredIdentity.Proofs.UtcTimeCodec

/-!
The calendar by its own rule: a day is followed by the next day of its month, or by the first day of
the next month, or by the first day of the next year. Counting this way from 1970-01-01 gives the
date of every day.
-/
namespace MeasuredIdentity.Calendar

/-- The number of days of the month of a date. -/
def Date.monthLength (d : Date) : ℕ := (monthLengths d.year)[d.month - 1]?.getD 0

/-- The date of the next day. -/
def Date.next (d : Date) : Date :=
  if d.day < d.monthLength then ⟨d.year, d.month, d.day + 1⟩
  else if d.month < 12 then ⟨d.year, d.month + 1, 1⟩
  else ⟨d.year + 1, 1, 1⟩

/-- The date that is reached from 1970-01-01 in this number of days. -/
def dateAfter : ℕ → Date
  | 0 => ⟨1970, 1, 1⟩
  | days + 1 => (dateAfter days).next

theorem exists_monthLength (year : ℕ) {k : ℕ} (h : k < 12) :
    ∃ n, (monthLengths year)[k]? = some n ∧ 0 < n := by
  have hpos : ∀ n ∈ monthLengths year, 0 < n := by
    unfold monthLengths
    split <;> simp
  have hlt : k < (monthLengths year).length := by
    rw [length_monthLengths]
    exact h
  exact ⟨_, List.getElem?_eq_getElem hlt, hpos _ (List.getElem_mem hlt)⟩

theorem sum_take_succ {lengths : List ℕ} {k n : ℕ} (hk : lengths[k]? = some n) :
    (lengths.take (k + 1)).sum = (lengths.take k).sum + n := by
  rw [List.take_add_one, hk, List.sum_append]
  simp

/-- The converse of `ofDays_eq`: a year, a month and a day of the month that make up a number of days
are the date of it. -/
theorem ofDays_of_sum {years k n d days : ℕ} (hk : (monthLengths (1970 + years))[k]? = some n)
    (hd : d < n) (hsum : daysBefore years + ((monthLengths (1970 + years)).take k).sum + d = days) :
    ofDays days = ⟨1970 + years, k + 1, d + 1⟩ := by
  have hvalid : (Date.mk (1970 + years) (k + 1) (d + 1)).isValid = true := by
    simp [Date.isValid, hk]
    omega
  have hdays : (Date.mk (1970 + years) (k + 1) (d + 1)).toDays = days := by
    simp only [Date.toDays, Nat.add_sub_cancel_left, Nat.add_sub_cancel, ← List.sum_eq_foldl_nat]
    exact hsum
  rw [← hdays]
  exact ofDays_toDays hvalid

/-- One day more is the next date. -/
theorem ofDays_succ (days : ℕ) : ofDays (days + 1) = (ofDays days).next := by
  obtain ⟨years, k, n, d, heq, hk, hd, hsum⟩ := ofDays_eq days
  have hlength : (Date.mk (1970 + years) (k + 1) (d + 1)).monthLength = n := by
    simp [Date.monthLength, hk]
  have hnext : (Date.mk (1970 + years) (k + 1) (d + 1)).next =
      if d + 1 < n then ⟨1970 + years, k + 1, d + 1 + 1⟩
      else if k + 1 < 12 then ⟨1970 + years, k + 1 + 1, 0 + 1⟩
      else ⟨1970 + (years + 1), 0 + 1, 0 + 1⟩ := by
    rw [Date.next, hlength]
    rfl
  have hmonth := (List.getElem?_eq_some_iff.1 hk).1
  rw [length_monthLengths] at hmonth
  have htake := sum_take_succ hk
  rw [heq, hnext]
  split_ifs with hday hmore
  · exact ofDays_of_sum hk hday (by omega)
  · obtain ⟨n', hk', hpos⟩ := exists_monthLength (1970 + years) hmore
    exact ofDays_of_sum hk' hpos (by omega)
  · -- The month is the twelfth, so the months up to it make up the year.
    obtain rfl : k = 11 := by omega
    have hyear := daysBefore_succ years
    rw [← List.take_length (l := monthLengths (1970 + years)), length_monthLengths, htake] at hyear
    obtain ⟨n', hk', hpos⟩ := exists_monthLength (1970 + (years + 1)) (show 0 < 12 by omega)
    refine ofDays_of_sum hk' hpos ?_
    rw [List.take_zero, List.sum_nil]
    omega

theorem ofDays_eq_dateAfter (days : ℕ) : ofDays days = dateAfter days := by
  induction days with
  | zero => rfl
  | succ days ih => rw [ofDays_succ, ih, dateAfter]

/-- The day before the first of March is the 29th of February in 2000 and the 28th in 2100. -/
example : Date.next ⟨2000, 2, 29⟩ = ⟨2000, 3, 1⟩ ∧ Date.next ⟨2100, 2, 28⟩ = ⟨2100, 3, 1⟩ := by decide

end MeasuredIdentity.Calendar
