import MeasuredIdentity.Der.Time
import MeasuredIdentity.Proofs.FieldCodec

/-!
The calendar numbers the days: the date of a day is a valid date with the number of that day, and
each valid date is the date of its number. Instants are therefore read back from their UTCTime, and
an instant has one UTCTime.
-/
namespace MeasuredIdentity

namespace Calendar

/-- How many multiples of `m` there are up to a number and its successor. -/
theorem succ_div_eq (n m : Nat) : (n + 1) / m = n / m + if (n + 1) % m = 0 then 1 else 0 := by
  rw [Nat.succ_div]
  simp only [Nat.dvd_iff_mod_eq_zero]

theorem daysBefore_succ (years : Nat) :
    daysBefore (years + 1) = daysBefore years + (monthLengths (1970 + years)).sum := by
  have hsum : (monthLengths (1970 + years)).sum = if isLeap (1970 + years) then 366 else 365 := by
    unfold monthLengths
    split <;> rfl
  have hleap : isLeap (1970 + years) = true ↔
      (years + 2) % 4 = 0 ∧ ((years + 70) % 100 ≠ 0 ∨ (years + 370) % 400 = 0) := by
    simp only [isLeap, Bool.and_eq_true, Bool.or_eq_true, decide_eq_true_eq, bne_iff_ne]
    omega
  have h₄ := succ_div_eq (years + 1) 4
  have h₁₀₀ := succ_div_eq (years + 69) 100
  have h₄₀₀ := succ_div_eq (years + 369) 400
  have hnonneg : (years + 69) / 100 ≤ 365 * years + (years + 1) / 4 := by omega
  simp only [hsum, hleap]
  unfold daysBefore
  rw [Nat.add_right_comm years 1 1, Nat.add_right_comm years 1 69, Nat.add_right_comm years 1 369,
    h₄, h₁₀₀, h₄₀₀]
  split_ifs <;> omega

theorem daysBefore_mono : Monotone daysBefore := by
  apply monotone_nat_of_le_succ
  intro years
  rw [daysBefore_succ]
  exact Nat.le_add_right _ _

/-- The whole years of a number of days are past, and the next year is not over. -/
theorem wholeYears_bounds {days bound : Nat} (h : days < daysBefore (bound + 1)) :
    daysBefore (wholeYears days bound) ≤ days ∧ days < daysBefore (wholeYears days bound + 1) := by
  induction bound with
  | zero => exact ⟨by simp [wholeYears, daysBefore], h⟩
  | succ bound ih =>
    unfold wholeYears
    split_ifs with hle
    · exact ⟨hle, h⟩
    · exact ih (Nat.lt_of_not_le hle)

theorem lt_daysBefore (days : Nat) : days < daysBefore (days / 365 + 1) := by
  unfold daysBefore
  omega

theorem monthAndDay_eq {lengths : List Nat} (month day : Nat) (h : day < lengths.sum) :
    ∃ k n d, lengths[k]? = some n ∧ d < n ∧ (lengths.take k).sum + d = day ∧
      monthAndDay lengths month day = (month + k, d + 1) := by
  induction lengths generalizing month day with
  | nil => simp at h
  | cons n lengths ih =>
    rw [List.sum_cons] at h
    unfold monthAndDay
    split_ifs with hday
    · exact ⟨0, n, day, rfl, hday, by simp, by simp⟩
    · obtain ⟨k, n', d, hk, hd, hsum, heq⟩ := ih (month + 1) (day - n) (by omega)
      refine ⟨k + 1, n', d, by simpa using hk, hd, ?_, ?_⟩
      · rw [List.take_succ_cons, List.sum_cons]
        omega
      · rw [heq, Nat.add_assoc, Nat.add_comm 1]

theorem length_monthLengths (year : Nat) : (monthLengths year).length = 12 := rfl

theorem le_of_mem_monthLengths {year n : Nat} (h : n ∈ monthLengths year) : n ≤ 31 := by
  unfold monthLengths at h
  split at h <;> simp at h <;> omega

/-- The date of a day: its year is the last one that begins by then, and its month and day count
what remains. -/
theorem ofDays_eq (days : Nat) : ∃ years k n d, ofDays days = ⟨1970 + years, k + 1, d + 1⟩ ∧
    (monthLengths (1970 + years))[k]? = some n ∧ d < n ∧
    daysBefore years + ((monthLengths (1970 + years)).take k).sum + d = days := by
  obtain ⟨hle, hlt⟩ := wholeYears_bounds (lt_daysBefore days)
  rw [daysBefore_succ] at hlt
  obtain ⟨k, n, d, hk, hd, hsum, heq⟩ :=
    monthAndDay_eq 1 (days - daysBefore (wholeYears days (days / 365)))
      (show _ < (monthLengths (1970 + wholeYears days (days / 365))).sum by omega)
  refine ⟨wholeYears days (days / 365), k, n, d, ?_, hk, hd, by omega⟩
  simp only [ofDays, heq, Nat.add_comm 1 k]

theorem isValid_ofDays (days : Nat) : (ofDays days).isValid = true := by
  obtain ⟨years, k, n, d, heq, hk, hd, -⟩ := ofDays_eq days
  rw [heq]
  simp [Date.isValid, hk]
  omega

theorem toDays_ofDays (days : Nat) : (ofDays days).toDays = days := by
  obtain ⟨years, k, n, d, heq, -, -, hsum⟩ := ofDays_eq days
  rw [heq]
  simp only [Date.toDays, Nat.add_sub_cancel_left, Nat.add_sub_cancel, ← List.sum_eq_foldl_nat]
  exact hsum

theorem month_ofDays_le (days : Nat) : (ofDays days).month ≤ 12 := by
  obtain ⟨years, k, n, d, heq, hk, -, -⟩ := ofDays_eq days
  have hlt := (List.getElem?_eq_some_iff.1 hk).1
  rw [length_monthLengths] at hlt
  rw [heq]
  exact hlt

theorem day_ofDays_le (days : Nat) : (ofDays days).day ≤ 31 := by
  obtain ⟨years, k, n, d, heq, hk, hd, -⟩ := ofDays_eq days
  have hn := le_of_mem_monthLengths (List.mem_of_getElem? hk)
  rw [heq]
  show d + 1 ≤ 31
  omega

/-- Day 29220 is the first one of the year 2050. -/
theorem year_ofDays {days : Nat} (h : days < 29220) :
    1970 ≤ (ofDays days).year ∧ (ofDays days).year < 2050 := by
  obtain ⟨years, k, n, d, heq, -, -, hsum⟩ := ofDays_eq days
  have hyears : years < 80 := by
    by_contra hge
    have hmono : daysBefore 80 ≤ daysBefore years := daysBefore_mono (Nat.le_of_not_lt hge)
    have hfirst : daysBefore 80 = 29220 := by decide
    omega
  rw [heq]
  exact ⟨Nat.le_add_right _ _, by show 1970 + years < 2050; omega⟩

/-- A day of a month has its number among the days of the year. -/
theorem monthAndDay_sum_take {lengths : List Nat} {k n d : Nat} (month : Nat)
    (hk : lengths[k]? = some n) (hd : d < n) :
    monthAndDay lengths month ((lengths.take k).sum + d) = (month + k, d + 1) := by
  induction lengths generalizing k month with
  | nil => simp at hk
  | cons m lengths ih =>
    unfold monthAndDay
    cases k with
    | zero =>
      obtain rfl : m = n := by simpa using hk
      rw [List.take_zero, List.sum_nil, Nat.zero_add, if_pos hd]
      rfl
    | succ k =>
      have hrest : m + (lengths.take k).sum + d - m = (lengths.take k).sum + d := by omega
      rw [List.take_succ_cons, List.sum_cons, if_neg (by omega), hrest,
        ih (month + 1) (by simpa using hk), Nat.add_assoc, Nat.add_comm 1]

theorem sum_take_add_le {lengths : List Nat} {k n : Nat} (hk : lengths[k]? = some n) :
    (lengths.take k).sum + n ≤ lengths.sum := by
  obtain ⟨hlt, rfl⟩ := List.getElem?_eq_some_iff.1 hk
  have hsum := List.sum_take_add_sum_drop lengths k
  rw [List.drop_eq_getElem_cons hlt, List.sum_cons] at hsum
  omega

/-- Only one year has begun by a day and is not over. -/
theorem wholeYears_eq {days years : Nat} (hle : daysBefore years ≤ days)
    (hlt : days < daysBefore (years + 1)) : wholeYears days (days / 365) = years := by
  obtain ⟨hle', hlt'⟩ := wholeYears_bounds (lt_daysBefore days)
  apply Nat.le_antisymm
  · by_contra hgt
    have := daysBefore_mono (show years + 1 ≤ wholeYears days (days / 365) by omega)
    omega
  · by_contra hgt
    have := daysBefore_mono (show wholeYears days (days / 365) + 1 ≤ years by omega)
    omega

theorem ofDays_toDays {d : Date} (h : d.isValid = true) : ofDays d.toDays = d := by
  obtain ⟨year, month, day⟩ := d
  simp only [Date.isValid, Bool.and_eq_true, decide_eq_true_eq] at h
  obtain ⟨⟨⟨hyear, hmonth⟩, hday⟩, hlength⟩ := h
  rcases hn : (monthLengths year)[month - 1]? with _ | n
  · simp [hn] at hlength
  simp only [hn, decide_eq_true_eq] at hlength
  have hfit := sum_take_add_le hn
  have hyears : 1970 + (year - 1970) = year := by omega
  have hdays : (Date.mk year month day).toDays = daysBefore (year - 1970)
      + (((monthLengths year).take (month - 1)).sum + (day - 1)) := by
    rw [Date.toDays, ← List.sum_eq_foldl_nat, Nat.add_assoc]
  have hwhole : wholeYears (Date.mk year month day).toDays ((Date.mk year month day).toDays / 365)
      = year - 1970 := by
    apply wholeYears_eq
    · omega
    · rw [daysBefore_succ, hyears]
      omega
  rw [ofDays, hwhole, hdays, Nat.add_sub_cancel_left, hyears]
  rw [monthAndDay_sum_take 1 hn (by omega)]
  show Date.mk year (1 + (month - 1)) (day - 1 + 1) = _
  rw [Nat.add_sub_cancel' hmonth, Nat.sub_add_cancel hday]

end Calendar

namespace Der.UtcTime

theorem digit?_ofNat : ∀ n < 10, digit? (UInt8.ofNat (48 + n)) = some n := by decide

theorem number?_twoDigits {n : Nat} (h : n < 100) :
    number? (UInt8.ofNat (48 + n / 10 % 10)) (UInt8.ofNat (48 + n % 10)) = some n := by
  rw [number?, digit?_ofNat _ (by omega), digit?_ofNat _ (by omega)]
  show some (10 * (n / 10 % 10) + n % 10) = some n
  congr 1
  omega

theorem ofContent?_content (t : UtcTime) : ofContent? t.content = some t := by
  obtain ⟨seconds, hlt⟩ := t
  have hday : seconds / 86400 < 29220 := by omega
  obtain ⟨hy, hy'⟩ := Calendar.year_ofDays hday
  have hm := Calendar.month_ofDays_le (seconds / 86400)
  have hd := Calendar.day_ofDays_le (seconds / 86400)
  have hvalid := Calendar.isValid_ofDays (seconds / 86400)
  have hdays := Calendar.toDays_ofDays (seconds / 86400)
  have hfull : (if 50 ≤ (Calendar.ofDays (seconds / 86400)).year % 100
      then 1900 + (Calendar.ofDays (seconds / 86400)).year % 100
      else 2000 + (Calendar.ofDays (seconds / 86400)).year % 100)
      = (Calendar.ofDays (seconds / 86400)).year := by
    split_ifs <;> omega
  have hsum : 86400 * (seconds / 86400) + 3600 * (seconds % 86400 / 3600)
      + 60 * (seconds % 86400 / 60 % 60) + seconds % 86400 % 60 = seconds := by omega
  simp only [content, twoDigits, List.cons_append, List.nil_append, ofContent?,
    number?_twoDigits (show (Calendar.ofDays (seconds / 86400)).year % 100 < 100 by omega),
    number?_twoDigits (show (Calendar.ofDays (seconds / 86400)).month < 100 by omega),
    number?_twoDigits (show (Calendar.ofDays (seconds / 86400)).day < 100 by omega),
    number?_twoDigits (show seconds % 86400 / 3600 < 100 by omega),
    number?_twoDigits (show seconds % 86400 / 60 % 60 < 100 by omega),
    number?_twoDigits (show seconds % 86400 % 60 < 100 by omega), Option.bind_eq_bind,
    Option.bind_some]
  simp only [ofFields?, hfull, hdays, hsum]
  rw [dif_pos ⟨hvalid, by omega, by omega, by omega, hlt⟩]

theorem readsBack : ReadsBack encode decode := by
  intro t h rest
  exact primitive_element h (ofContent?_content t) rest

theorem ofNat_digit? {x : UInt8} {n : Nat} (h : digit? x = some n) :
    n < 10 ∧ UInt8.ofNat (48 + n) = x := by
  unfold digit? at h
  split_ifs at h with hx
  rw [Option.some.injEq] at h
  subst h
  rw [UInt8.le_iff_toNat_le, UInt8.le_iff_toNat_le] at hx
  have hlow : 48 ≤ x.toNat := hx.1
  have hhigh : x.toNat ≤ 57 := hx.2
  rw [Nat.add_sub_cancel' hlow, UInt8.ofNat_toNat]
  exact ⟨by omega, rfl⟩

theorem twoDigits_number? {x y : UInt8} {n : Nat} (h : number? x y = some n) :
    n < 100 ∧ twoDigits n = [x, y] := by
  simp only [number?, Option.bind_eq_bind, Option.bind_eq_some_iff, Option.pure_def,
    Option.some.injEq] at h
  obtain ⟨a, ha, b, hb, rfl⟩ := h
  obtain ⟨halt, hx⟩ := ofNat_digit? ha
  obtain ⟨hblt, hy⟩ := ofNat_digit? hb
  have htens : (10 * a + b) / 10 % 10 = a := by omega
  have hones : (10 * a + b) % 10 = b := by omega
  rw [twoDigits, htens, hones, hx, hy]
  exact ⟨by omega, rfl⟩

/-- The fields of a date and time of day are those of the instant. -/
theorem content_of_ofFields? {yy month day hour minute second : Nat} {t : UtcTime} (hyy : yy < 100)
    (h : ofFields? yy month day hour minute second = some t) :
    t.content = twoDigits yy ++ twoDigits month ++ twoDigits day ++ twoDigits hour
      ++ twoDigits minute ++ twoDigits second ++ [0x5a] := by
  have hyear : (if 50 ≤ yy then 1900 + yy else 2000 + yy) % 100 = yy := by
    split_ifs <;> omega
  obtain ⟨⟨hvalid, hhour, hminute, hsecond, hlimit⟩, ht⟩ := Option.dite_none_right_eq_some.1 h
  have hseconds := congrArg seconds (Option.some.inj ht)
  dsimp only at hseconds
  have hdate := Calendar.ofDays_toDays hvalid
  generalize (if 50 ≤ yy then 1900 + yy else 2000 + yy) = year at hdate hyear hseconds
  generalize hdays : (Calendar.Date.mk year month day).toDays = days at hdate hseconds
  have hday : t.seconds / 86400 = days := by omega
  have hrest : t.seconds % 86400 = 3600 * hour + 60 * minute + second := by omega
  have hh : (3600 * hour + 60 * minute + second) / 3600 = hour := by omega
  have hm : (3600 * hour + 60 * minute + second) / 60 % 60 = minute := by omega
  have hs : (3600 * hour + 60 * minute + second) % 60 = second := by omega
  simp only [content, hday, hrest, hdate, hyear, hh, hm, hs]

theorem content_of_ofContent? {c : Bytes} {t : UtcTime} (h : ofContent? c = some t) :
    t.content = c := by
  unfold ofContent? at h
  split at h
  · simp only [Option.bind_eq_bind, Option.bind_eq_some_iff] at h
    obtain ⟨yy, hyy, month, hmonth, day, hday, hour, hhour, minute, hminute, second, hsecond, h⟩ := h
    obtain ⟨hlt, hyy⟩ := twoDigits_number? hyy
    rw [content_of_ofFields? hlt h, hyy, (twoDigits_number? hmonth).2, (twoDigits_number? hday).2,
      (twoDigits_number? hhour).2, (twoDigits_number? hminute).2, (twoDigits_number? hsecond).2]
    rfl
  · cases h

theorem canonical : Canonical encode decode := by
  intro b t rest h
  obtain ⟨c, hc, -, rfl⟩ := eq_element_of_primitive h
  rw [encode, content_of_ofContent? hc]

theorem length_content (t : UtcTime) : t.content.length = 13 := rfl

end Der.UtcTime

end MeasuredIdentity
