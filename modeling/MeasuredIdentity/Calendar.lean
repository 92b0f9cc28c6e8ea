/-!
The Gregorian calendar from 1970 on: days since 1970-01-01 and dates.
-/
namespace MeasuredIdentity.Calendar

structure Date where
  year : Nat
  month : Nat
  day : Nat
  deriving DecidableEq, Repr

def isLeap (year : Nat) : Bool := year % 4 = 0 && (year % 100 != 0 || year % 400 = 0)

/-- The days of the first `years` years from 1970 on. -/
def daysBefore (years : Nat) : Nat :=
  365 * years + (years + 1) / 4 - (years + 69) / 100 + (years + 369) / 400

def monthLengths (year : Nat) : List Nat :=
  [31, if isLeap year then 29 else 28, 31, 30, 31, 30, 31, 31, 30, 31, 30, 31]

/-- The number of whole years from 1970 on that fit into `days`, at most `bound`. -/
def wholeYears (days : Nat) : (bound : Nat) → Nat
  | 0 => 0
  | bound + 1 => if daysBefore (bound + 1) ≤ days then bound + 1 else wholeYears days bound

theorem le_wholeYears {years days bound : Nat} (hbound : years ≤ bound)
    (h : daysBefore years ≤ days) : years ≤ wholeYears days bound := by
  induction bound with
  | zero => exact hbound
  | succ bound ih =>
    unfold wholeYears
    split
    · exact hbound
    · rename_i hlater
      have hne : years ≠ bound + 1 := fun heq => hlater (heq ▸ h)
      exact ih (by omega)

/-- The month, counted from `month`, and the day of the month of the day with this number. -/
def monthAndDay : (lengths : List Nat) → (month day : Nat) → Nat × Nat
  | [], month, day => (month, day + 1)
  | n :: rest, month, day => if day < n then (month, day + 1) else monthAndDay rest (month + 1) (day - n)

def ofDays (days : Nat) : Date :=
  let years := wholeYears days (days / 365)
  let (month, day) := monthAndDay (monthLengths (1970 + years)) 1 (days - daysBefore years)
  ⟨1970 + years, month, day⟩

/-- The first 29220 days are those before the year 2050. -/
theorem lt_of_year_ofDays {days : Nat} (h : (ofDays days).year < 2050) : days < 29220 := by
  have hyear : (ofDays days).year = 1970 + wholeYears days (days / 365) := rfl
  have hfirst : daysBefore 80 = 29220 := by decide
  apply Nat.lt_of_not_le
  intro hle
  have hyears : 80 ≤ wholeYears days (days / 365) := le_wholeYears (by omega) (by omega)
  omega

def Date.isValid (d : Date) : Bool :=
  1970 ≤ d.year && 1 ≤ d.month && 1 ≤ d.day
    && match (monthLengths d.year)[d.month - 1]? with
      | some n => d.day ≤ n
      | none => false

def Date.toDays (d : Date) : Nat :=
  daysBefore (d.year - 1970) + ((monthLengths d.year).take (d.month - 1)).foldl (· + ·) 0 + (d.day - 1)

end MeasuredIdentity.Calendar
