import KeyPool.Time.Calendar

/-! Every number of days has a valid date, and that date has the same number of days. A day is placed in
the 400 years that it belongs to by its century, its four years, its year and its day, of which the last
century, the last four years and the last year are a day longer than the others. -/

namespace KeyPool

/-- A day of 400 years that start with the first of March, by its century, the four years of that, the
year of those and the day of the year. A leap day ends four years, but not a century unless it ends the
last one. -/
structure EraDay where
  century : Int
  olympiad : Int
  year : Int
  day : Int
  century_bounds : 0 ≤ century ∧ century ≤ 3
  olympiad_bounds : 0 ≤ olympiad ∧ olympiad ≤ 24
  year_bounds : 0 ≤ year ∧ year ≤ 3
  day_bounds : 0 ≤ day ∧ day ≤ 365
  leap : day = 365 → year = 3 ∧ (olympiad ≠ 24 ∨ century = 3)

namespace EraDay

/-- Days from the start of the 400 years. -/
def toDays (d : EraDay) : Int := 36524 * d.century + 1461 * d.olympiad + 365 * d.year + d.day

def toYears (d : EraDay) : Int := 100 * d.century + 4 * d.olympiad + d.year

theorem exists_toDays {n : Int} (hn : 0 ≤ n ∧ n < 146097) : ∃ d : EraDay, d.toDays = n := by
  let century := min 3 (n / 36524)
  let olympiad := (n - 36524 * century) / 1461
  let year := min 3 ((n - 36524 * century - 1461 * olympiad) / 365)
  let day := n - 36524 * century - 1461 * olympiad - 365 * year
  have hcentury : 0 ≤ century ∧ century ≤ 3 := by omega
  have holympiad : 0 ≤ olympiad ∧ olympiad ≤ 24 := by omega
  have hyear : 0 ≤ year ∧ year ≤ 3 := by omega
  have hday : 0 ≤ day ∧ day ≤ 365 := by omega
  have hleap : day = 365 → year = 3 ∧ (olympiad ≠ 24 ∨ century = 3) := by omega
  refine ⟨⟨century, olympiad, year, day, hcentury, holympiad, hyear, hday, hleap⟩, ?_⟩
  simp only [toDays]
  omega

theorem toDays_bounds (d : EraDay) : 0 ≤ d.toDays ∧ d.toDays < 146097 := by
  obtain ⟨c, o, y, n, hc, ho, hy, hn, hleap⟩ := d
  simp only [toDays]
  omega

/-- The year is found by taking off one day for each four years but the last of a century, and dividing
by the days of a common year. -/
theorem toYears_eq (d : EraDay) :
    (d.toDays - d.toDays / 1460 + d.toDays / 36524 - d.toDays / 146096) / 365 = d.toYears := by
  obtain ⟨c, o, y, n, hc, ho, hy, hn, hleap⟩ := d
  simp only [toDays, toYears]
  generalize hdays : 36524 * c + 1461 * o + 365 * y + n = days
  -- the last day of all counts for a century more, which is taken off again
  have hlast : 0 ≤ days - 36524 * c ∧ days - 36524 * c < 36524 ∨ days = 146096 ∧ c = 3 := by
    by_cases hn' : n = 365
    · obtain ⟨rfl, hend⟩ := hleap hn'
      omega
    · omega
  have hcenturies : days / 36524 - days / 146096 = c := by
    rcases hlast with ⟨h, h'⟩ | ⟨rfl, rfl⟩
    · have hzero : days / 146096 = 0 := by omega
      omega
    · rfl
  -- what the four years come to is one more only late in the last of them
  have holympiads : days / 1460 = 25 * c + o ∧ n ≠ 365 ∨ days / 1460 = 25 * c + o + 1 ∧ n ≠ 0 := by
    omega
  rw [Int.add_sub_assoc, hcenturies]
  rcases holympiads with ⟨h, hn'⟩ | ⟨h, hn'⟩ <;> rw [h] <;> omega

end EraDay

namespace Date

def afterMarch (year day : Int) : Date :=
  let monthFromMarch := (5 * day + 2) / 153
  let month := if monthFromMarch < 10 then monthFromMarch + 3 else monthFromMarch - 9
  ⟨year + (if month ≤ 2 then 1 else 0), month.toNat, (day - (153 * monthFromMarch + 2) / 5 + 1).toNat⟩

theorem ofDays_eq (era : Int) (d : EraDay) :
    ofDays (146097 * era + d.toDays - 719468) = afterMarch (400 * era + d.toYears) d.day := by
  have hbounds := d.toDays_bounds
  have hera : (146097 * era + d.toDays) / 146097 = era := by omega
  have hrest : (146097 * era + d.toDays) % 146097 = d.toDays := by omega
  have hday : d.toDays - (365 * d.toYears + d.toYears / 4 - d.toYears / 100) = d.day := by
    obtain ⟨c, o, y, n, hc, ho, hy, hn, hleap⟩ := d
    simp only [EraDay.toDays, EraDay.toYears]
    omega
  have hyears : d.toYears + 400 * era = 400 * era + d.toYears := Int.add_comm _ _
  simp only [ofDays, Int.sub_add_cancel, hera, hrest, d.toYears_eq, hday, hyears, afterMarch]

theorem exists_ofDays (n : Int) : ∃ (era : Int) (d : EraDay),
    n = 146097 * era + d.toDays - 719468 ∧ ofDays n = afterMarch (400 * era + d.toYears) d.day := by
  obtain ⟨d, hd⟩ := EraDay.exists_toDays (n := (n + 719468) % 146097) (by omega)
  refine ⟨(n + 719468) / 146097, d, by omega, ?_⟩
  rw [← ofDays_eq]
  congr 1
  omega

theorem isLeap_iff {year : Int} :
    isLeap year = true ↔ year % 4 = 0 ∧ (year % 100 ≠ 0 ∨ year % 400 = 0) := decide_eq_true_iff

theorem daysInMonth_le (year : Int) (month : Nat) : daysInMonth year month ≤ 31 := by
  unfold daysInMonth
  repeat' split
  all_goals decide

/-- The days of a month that is counted from March on; those of February are counted apart. -/
theorem daysInMonth_eq (year : Int) {m : Int} (hm : 0 ≤ m ∧ m ≤ 10) :
    daysInMonth year (if m < 10 then m + 3 else m - 9).toNat =
      (153 * (m + 1) + 2) / 5 - (153 * m + 2) / 5 := by
  have hcases : m = 0 ∨ m = 1 ∨ m = 2 ∨ m = 3 ∨ m = 4 ∨ m = 5 ∨ m = 6 ∨ m = 7 ∨ m = 8 ∨ m = 9 ∨
      m = 10 := by omega
  rcases hcases with rfl | rfl | rfl | rfl | rfl | rfl | rfl | rfl | rfl | rfl | rfl <;> rfl

theorem afterMarch_valid {year day : Int} (h : 0 ≤ day ∧ day ≤ 365)
    (hleap : day = 365 → isLeap (year + 1) = true) : (afterMarch year day).Valid := by
  have hm : 0 ≤ (5 * day + 2) / 153 ∧ (5 * day + 2) / 153 ≤ 11 := by omega
  unfold afterMarch
  generalize hmonth : (5 * day + 2) / 153 = m at hm
  refine ⟨?_, ?_, ?_, ?_⟩
  · simp only
    omega
  · simp only
    omega
  · simp only
    omega
  · by_cases hfebruary : m = 11
    · subst hfebruary
      have hlength : (daysInMonth (year + 1) 2 : Int) = if isLeap (year + 1) then 29 else 28 := by
        rw [daysInMonth, if_pos rfl]
        split <;> rfl
      change (day - 337 + 1).toNat ≤ daysInMonth (year + 1) 2
      by_cases hlast : day = 365
      · rw [hleap hlast] at hlength
        simp only [ite_true] at hlength
        omega
      · split at hlength <;> omega
    · have hlength := daysInMonth_eq (year + (if (if m < 10 then m + 3 else m - 9) ≤ 2 then 1 else 0))
        (m := m) (by omega)
      simp only
      omega

theorem toDays_afterMarch {year day : Int} (h : 0 ≤ day ∧ day ≤ 365) :
    (afterMarch year day).toDays = daysBeforeMarch year + day := by
  have hm : 0 ≤ (5 * day + 2) / 153 ∧ (5 * day + 2) / 153 ≤ 11 := by omega
  unfold afterMarch toDays
  generalize hmonth : (5 * day + 2) / 153 = m at hm
  have hday : ((day - (153 * m + 2) / 5 + 1).toNat : Int) = day - (153 * m + 2) / 5 + 1 := by omega
  by_cases hlate : m < 10
  · have hfromMarch : ((((m + 3).toNat + 9) % 12 : Nat) : Int) = m := by omega
    have hyear : ¬ (m + 3).toNat ≤ 2 := by omega
    have hyear' : ¬ m + 3 ≤ 2 := by omega
    simp only [hlate, ite_true, hyear, hyear', ite_false, hfromMarch, hday, Int.add_zero]
    omega
  · have hfromMarch : ((((m - 9).toNat + 9) % 12 : Nat) : Int) = m := by omega
    have hyear : (m - 9).toNat ≤ 2 := by omega
    have hyear' : m - 9 ≤ 2 := by omega
    simp only [hlate, ite_true, hyear, hyear', ite_false, hfromMarch, hday, Int.add_sub_cancel]
    omega

theorem ofDays_valid (n : Int) : (ofDays n).Valid := by
  obtain ⟨era, d, -, hdate⟩ := exists_ofDays n
  rw [hdate]
  refine afterMarch_valid d.day_bounds fun hlast => isLeap_iff.mpr ?_
  obtain ⟨c, o, y, n, hc, ho, hy, hn, hleap⟩ := d
  simp only [EraDay.toYears] at hlast ⊢
  obtain ⟨rfl, hend⟩ := hleap hlast
  omega

/-- The date of a number of days has that number of days. -/
theorem toDays_ofDays (n : Int) : (ofDays n).toDays = n := by
  obtain ⟨era, d, hn, hdate⟩ := exists_ofDays n
  rw [hdate, toDays_afterMarch d.day_bounds, hn]
  obtain ⟨c, o, y, n, hc, ho, hy, hn, hleap⟩ := d
  simp only [daysBeforeMarch, EraDay.toYears, EraDay.toDays]
  omega

/-- The days of February are the last after a first of March. -/
theorem february_eq_afterMarch (year : Int) {day : Nat} (hday : 1 ≤ day ∧ day ≤ 29) :
    (⟨year, 2, day⟩ : Date) = afterMarch (year - 1) (336 + day) := by
  have hm : (5 * (336 + (day : Int)) + 2) / 153 = 11 := by omega
  have hday' : (336 + (day : Int) - 337 + 1).toNat = day := by omega
  simp [afterMarch, hm, hday']

/-- A valid date stands some days after a first of March, in January and February after that of the year
before. -/
theorem Valid.exists_afterMarch {d : Date} (h : d.Valid) : ∃ year day : Int, 0 ≤ day ∧ day ≤ 365 ∧
    (day = 365 → isLeap (year + 1) = true) ∧ d = afterMarch year day := by
  obtain ⟨year, month, day⟩ := d
  obtain ⟨hmonth, hmonth', hday, hday'⟩ := h
  simp only at hmonth hmonth' hday hday'
  by_cases hfebruary : month = 2
  · subst hfebruary
    rw [daysInMonth, if_pos rfl] at hday'
    have hlast : day = 29 → isLeap year = true := by
      intro hend
      split at hday'
      · assumption
      · omega
    have hmost : day ≤ 29 := by split at hday' <;> omega
    refine ⟨year - 1, 336 + day, by omega, by omega, ?_, february_eq_afterMarch year ⟨hday, hmost⟩⟩
    intro hend
    rw [Int.sub_add_cancel]
    exact hlast (by omega)
  · obtain ⟨m, hm⟩ : ∃ m : Int, m = if 3 ≤ month then (month : Int) - 3 else month + 9 := ⟨_, rfl⟩
    have hm' : 0 ≤ m ∧ m ≤ 10 := by split at hm <;> omega
    have hsame : (if m < 10 then m + 3 else m - 9).toNat = month := by split at hm <;> split <;> omega
    have hlength := daysInMonth_eq year hm'
    rw [hsame] at hlength
    refine ⟨year - (if month ≤ 2 then 1 else 0), (153 * m + 2) / 5 + day - 1, by omega, by omega,
      by omega, ?_⟩
    have hfound : (5 * ((153 * m + 2) / 5 + (day : Int) - 1) + 2) / 153 = m := by omega
    have hday'' : ((153 * m + 2) / 5 + (day : Int) - 1 - (153 * m + 2) / 5 + 1).toNat = day := by omega
    have hyear : year - (if month ≤ 2 then 1 else 0) +
        (if (if m < 10 then m + 3 else m - 9) ≤ 2 then 1 else 0) = year := by
      have hcount : (if m < 10 then m + 3 else m - 9) = (month : Int) := by omega
      rw [hcount]
      omega
    simp only [afterMarch, hfound, hday'', hsame, hyear]

theorem ofDays_toDays {d : Date} (h : d.Valid) : ofDays d.toDays = d := by
  obtain ⟨year, day, hday, hday', hleap, rfl⟩ := h.exists_afterMarch
  rw [toDays_afterMarch ⟨hday, hday'⟩]
  have hyear : 0 ≤ year % 400 ∧ year % 400 < 400 := by omega
  have hend : day = 365 → year % 4 = 3 ∧ (year % 100 ≠ 99 ∨ year % 400 = 399) := by
    intro hlast
    have hleap' := isLeap_iff.mp (hleap hlast)
    omega
  let place : EraDay := ⟨year % 400 / 100, year % 100 / 4, year % 4, day, by omega, by omega, by omega,
    ⟨hday, hday'⟩, by omega⟩
  have hplace : 400 * (year / 400) + place.toYears = year := by
    simp only [place, EraDay.toYears]
    omega
  have hdays : daysBeforeMarch year + day = 146097 * (year / 400) + place.toDays - 719468 := by
    simp only [place, EraDay.toDays, daysBeforeMarch]
    omega
  rw [hdays, ofDays_eq, hplace]

theorem ofDays_eq_iff {n : Int} {d : Date} : ofDays n = d ↔ d.Valid ∧ d.toDays = n := by
  constructor
  · rintro rfl
    exact ⟨ofDays_valid n, toDays_ofDays n⟩
  · rintro ⟨hvalid, rfl⟩
    exact ofDays_toDays hvalid

end Date

end KeyPool
