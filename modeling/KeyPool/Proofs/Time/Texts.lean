import KeyPool.Time.Text
import KeyPool.Proofs.Decimal
import KeyPool.Proofs.Time.Calendar
import Mathlib.Data.Option.Basic

/-! The RFC 3339 text of a time tells its clock and its offset: it reads back as the time that it was
written for. What is read has such a text of its own, which may be another one. -/

namespace KeyPool

namespace Decimal

theorem isDigit_spelled {width n : Nat} : ∀ c ∈ spelled width n, c.isDigit = true := by
  induction width generalizing n with
  | zero => simp [spelled]
  | succ width ih =>
      intro c hc
      rcases List.mem_append.mp hc with hinit | hlast
      · exact ih c hinit
      · rw [List.mem_singleton.mp hlast, Nat.isDigit_digitChar, decide_eq_true_iff]
        exact Nat.mod_lt n (by decide)

theorem readFixed?_spelled {width n : Nat} (hn : n < 10 ^ width) (rest : List Char) :
    readFixed? width (spelled width n ++ rest) = some (n, rest) :=
  readFixed?_eq_some.mpr ⟨hn, rfl⟩

theorem spelled_inj {width m n : Nat} (hm : m < 10 ^ width) (hn : n < 10 ^ width)
    (h : spelled width m = spelled width n) : m = n := by
  have hread := readFixed?_spelled hm []
  rw [h, readFixed?_spelled hn] at hread
  simpa using hread.symm

/-- The zeros that end a fraction are all that is taken off it. -/
theorem trimmedFraction_append {width n : Nat} (hwidth : 0 < width) (hn : n < 10 ^ width) :
    ∃ zeros, (trimmedFraction width n).toList ++ List.replicate zeros '0' = spelled width n := by
  have htext := toList_padded hwidth hn
  have hall := List.all_takeWhile (p := fun c => decide (c = '0')) (l := (spelled width n).reverse)
  simp only [List.all_eq_true, decide_eq_true_iff] at hall
  have hsplit := List.takeWhile_append_dropWhile (p := fun c => decide (c = '0'))
    (l := (spelled width n).reverse)
  refine ⟨((spelled width n).reverse.takeWhile fun c => decide (c = '0')).length, ?_⟩
  rw [trimmedFraction, htext, String.toList_ofList, ← List.reverse_replicate,
    ← List.eq_replicate_of_mem hall, ← List.reverse_append, hsplit, List.reverse_reverse]

theorem spelled_zero (width : Nat) : spelled width 0 = List.replicate width '0' := by
  induction width with
  | zero => rfl
  | succ width ih =>
      rw [spelled, Nat.zero_div, ih, List.replicate_succ']
      rfl

/-- A fraction that is not zero keeps some digits. -/
theorem trimmedFraction_ne_nil {width n : Nat} (hwidth : 0 < width) (hpos : 0 < n)
    (hn : n < 10 ^ width) : (trimmedFraction width n).toList ≠ [] := by
  intro hnil
  obtain ⟨zeros, hzeros⟩ := trimmedFraction_append hwidth hn
  rw [hnil, List.nil_append] at hzeros
  have hlength : zeros = width := by
    simpa [length_spelled] using congrArg List.length hzeros
  rw [hlength, ← spelled_zero] at hzeros
  exact absurd (spelled_inj (Nat.lt_trans hpos hn) hn hzeros) (Nat.ne_of_lt hpos)

/-- It reads back when zeros are put behind them. -/
theorem nat?_trimmedFraction {width n : Nat} (hwidth : 0 < width) (hn : n < 10 ^ width) :
    nat? (((trimmedFraction width n).toList ++ List.replicate width '0').take width) = some n := by
  obtain ⟨zeros, hzeros⟩ := trimmedFraction_append hwidth hn
  have hlength := congrArg List.length hzeros
  rw [List.length_append, List.length_replicate, length_spelled] at hlength
  have hpadded : ((trimmedFraction width n).toList ++ List.replicate width '0').take width =
      spelled width n := by
    have hrest : min (width - (trimmedFraction width n).toList.length) width = zeros := by omega
    rw [← hzeros, List.take_append, List.take_of_length_le (by omega), List.take_replicate, hrest]
  have hne : spelled width n ≠ [] := by
    rw [← List.length_pos_iff, length_spelled]
    exact hwidth
  have hspelled : n < 10 ^ (spelled width n).length ∧
      spelled width n = spelled (spelled width n).length n := by
    rw [length_spelled]
    exact ⟨hn, rfl⟩
  obtain ⟨digits, hdigits, hvalue⟩ := mapM_digit?_eq_some.mpr hspelled
  simp [hpadded, nat?, hne, hdigits, hvalue]

end Decimal

namespace Timestamp

variable {t : Timestamp}

/-! ## The parts of a text -/

/-- The times that have an RFC 3339 text: their own clock shows a year of four digits, and their offset
is one of whole minutes below a day. -/
structure HasRfc3339 (t : Timestamp) : Prop where
  year : 0 ≤ t.date.year ∧ t.date.year ≤ 9999
  offset : t.offset.natAbs < 24 * 3600 ∧ t.offset.natAbs % 60 = 0

def spelledFraction (nanos : Nat) : List Char :=
  if nanos = 0 then [] else '.' :: (Decimal.trimmedFraction 9 nanos).toList

def spelledOffset (offset : Int) : List Char :=
  if offset = 0 then ['Z']
  else (if offset < 0 then '-' else '+') :: (Decimal.spelled 2 (offset.natAbs / 3600) ++
    ':' :: Decimal.spelled 2 (offset.natAbs / 60 % 60))

def spelledClock (t : Timestamp) : List Char :=
  Decimal.spelled 2 t.clockParts.1 ++ ':' :: (Decimal.spelled 2 t.clockParts.2.1 ++ ':' ::
    (Decimal.spelled 2 t.clockParts.2.2.1 ++ spelledFraction t.clockParts.2.2.2))

def spelled (t : Timestamp) : List Char :=
  Decimal.spelled 4 t.date.year.toNat ++ '-' :: (Decimal.spelled 2 t.date.month ++ '-' ::
    (Decimal.spelled 2 t.date.day ++ 'T' :: (t.spelledClock ++ spelledOffset t.offset)))

theorem ofClock?_eq_some {clock offset : Int} :
    ofClock? clock offset = some t ↔ t.clock = clock ∧ t.offset = offset := by
  unfold ofClock?
  constructor
  · intro h
    split at h
    · split at h
      · cases h
        exact ⟨rfl, rfl⟩
      · cases h
    · cases h
  · rintro ⟨rfl, rfl⟩
    exact (dif_pos t.clock_bounds).trans (dif_pos t.offset_bounds)

theorem expect_eq_some {c : Char} {cs rest : List Char} :
    expect c cs = some rest ↔ cs = c :: rest := by
  unfold expect
  split
  · split
    · simp_all
    · rename_i hne
      refine ⟨fun h => (nomatch h), fun h => absurd ?_ hne⟩
      exact (List.cons.inj h).1.symm
  · simp

theorem clockParts_bounds (t : Timestamp) : t.clockParts.1 ≤ 23 ∧ t.clockParts.2.1 ≤ 59 ∧
    t.clockParts.2.2.1 ≤ 59 ∧ t.clockParts.2.2.2 < 10 ^ 9 := by
  have hday : t.nanosOfDay < 86400 * 1000000000 := by
    unfold nanosOfDay Span.nanosPerSecond
    omega
  simp only [clockParts]
  omega

theorem clock_eq (t : Timestamp) : t.clock = (t.date.toDays * 86400 + t.clockParts.1 * 3600 +
    t.clockParts.2.1 * 60 + t.clockParts.2.2.1) * Span.nanosPerSecond + t.clockParts.2.2.2 := by
  rw [date, Date.toDays_ofDays]
  simp only [clockParts, nanosOfDay, Span.nanosPerSecond]
  omega

theorem date_bounds (t : Timestamp) : t.date.month < 10 ^ 2 ∧ t.date.day < 10 ^ 2 := by
  obtain ⟨-, hmonth, -, hday⟩ : t.date.Valid := Date.ofDays_valid _
  have hlast := Date.daysInMonth_le t.date.year t.date.month
  omega

/-! ## Writing -/

theorem toList_offset {offset : Int} (h : offset.natAbs < 24 * 3600) :
    (if offset = 0 then "Z" else signOf offset ++ Decimal.padded 2 (offset.natAbs / 3600) ++ ":"
      ++ Decimal.padded 2 (offset.natAbs / 60 % 60)).toList = spelledOffset offset := by
  have hhour : offset.natAbs / 3600 < 10 ^ 2 := by omega
  have hminute : offset.natAbs / 60 % 60 < 10 ^ 2 := by omega
  unfold spelledOffset signOf
  split
  · rfl
  · simp only [String.toList_append, Decimal.toList_padded Nat.two_pos hhour,
      Decimal.toList_padded Nat.two_pos hminute]
    split <;> simp

theorem toList_fraction (nanos : Nat) :
    (if nanos = 0 then "" else "." ++ Decimal.trimmedFraction 9 nanos).toList =
      spelledFraction nanos := by
  unfold spelledFraction
  split <;> simp

/-- A time with a text is written as it is spelled. -/
theorem HasRfc3339.toRfc3339? (h : t.HasRfc3339) :
    ∃ text, t.toRfc3339? = some text ∧ text.toList = t.spelled := by
  obtain ⟨⟨hyear, hyear'⟩, hoffset, hwhole⟩ := h
  obtain ⟨hmonth, hday⟩ := t.date_bounds
  obtain ⟨hhour, hminute, hsecond, -⟩ := t.clockParts_bounds
  simp only [clockParts] at hhour hminute hsecond
  have hnone : ¬ (t.date.year < 0 ∨ 9999 < t.date.year ∨ 24 * 3600 ≤ t.offset.natAbs ∨
      t.offset.natAbs % 60 ≠ 0) := by omega
  refine ⟨_, if_neg hnone, ?_⟩
  simp only [String.toList_append, toList_fraction, toList_offset hoffset,
    Decimal.toList_padded (by decide : 0 < 4) (by omega : t.date.year.toNat < 10 ^ 4),
    Decimal.toList_padded Nat.two_pos hmonth, Decimal.toList_padded Nat.two_pos hday,
    Decimal.toList_padded Nat.two_pos (by omega : t.nanosOfDay / 1000000000 / 3600 < 10 ^ 2),
    Decimal.toList_padded Nat.two_pos (by omega : t.nanosOfDay / 1000000000 / 60 % 60 < 10 ^ 2),
    Decimal.toList_padded Nat.two_pos (by omega : t.nanosOfDay / 1000000000 % 60 < 10 ^ 2)]
  simp [spelled, spelledClock, clockParts]

theorem isSome_toRfc3339? : t.toRfc3339?.isSome ↔ t.HasRfc3339 := by
  constructor
  · intro h
    by_contra hnot
    have hsome : t.date.year < 0 ∨ 9999 < t.date.year ∨ 24 * 3600 ≤ t.offset.natAbs ∨
        t.offset.natAbs % 60 ≠ 0 := by
      by_contra hall
      exact hnot ⟨by omega, by omega⟩
    have hnone : t.toRfc3339? = none := if_pos hsome
    rw [hnone] at h
    cases h
  · intro h
    obtain ⟨text, htext, -⟩ := h.toRfc3339?
    rw [htext, Option.isSome_some]

/-! ## Reading -/

/-- What stands in a text that is read as a time, with what follows the second and what follows the
fraction. -/
structure Parts where
  year : Nat
  month : Nat
  day : Nat
  separator : Char
  hour : Nat
  minute : Nat
  second : Nat
  fraction : List Char
  nanos : Nat
  zone : List Char
  offset : Int

namespace Parts

def date (p : Parts) : Date := ⟨p.year, p.month, p.day⟩

/-- The second that the clock shows; a leap second is shown as the one before. -/
def shownSecond (p : Parts) : Nat := if p.second = 60 then 59 else p.second

def shownNanos (p : Parts) : Nat := if p.second = 60 then 999999999 else p.nanos

/-- How the parts stand in a text, and what time they make. -/
structure Make (p : Parts) (text : String) (t : Timestamp) : Prop where
  spelled : text.toList = Decimal.spelled 4 p.year ++ '-' :: (Decimal.spelled 2 p.month ++ '-' ::
    (Decimal.spelled 2 p.day ++ p.separator :: (Decimal.spelled 2 p.hour ++ ':' ::
      (Decimal.spelled 2 p.minute ++ ':' :: (Decimal.spelled 2 p.second ++ p.fraction)))))
  year : p.year < 10 ^ 4
  separator : p.separator.toNat < 128 ∧ (!p.separator.isDigit) = true
  fraction : readFraction p.fraction = some (p.nanos, p.zone)
  zone : readOffset p.zone = some (p.offset, [])
  range : p.hour ≤ 23 ∧ p.minute ≤ 59 ∧ p.second ≤ 60
  date : p.date.Valid
  clock : t.clock = (p.date.toDays * 86400 + p.hour * 3600 + p.minute * 60 + p.shownSecond) *
    Span.nanosPerSecond + p.shownNanos
  offset : t.offset = p.offset
  leap : p.second = 60 → t.endsMonth = true

end Parts

/-- What is read as a time has the parts that make it. -/
theorem exists_parts {text : String} (h : ofRfc3339? text = some t) : ∃ p : Parts, p.Make text t := by
  unfold ofRfc3339? at h
  obtain ⟨⟨year, afterYear⟩, hyear, h⟩ := Option.bind_eq_some_iff.mp h
  obtain ⟨afterHyphen, hhyphen, h⟩ := Option.bind_eq_some_iff.mp h
  obtain ⟨⟨month, afterMonth⟩, hmonth, h⟩ := Option.bind_eq_some_iff.mp h
  obtain ⟨afterHyphen', hhyphen', h⟩ := Option.bind_eq_some_iff.mp h
  obtain ⟨⟨day, afterDay⟩, hday, h⟩ := Option.bind_eq_some_iff.mp h
  obtain ⟨separator, hhead, h⟩ := Option.bind_eq_some_iff.mp h
  obtain ⟨_, hseparator, h⟩ := Option.bind_eq_some_iff.mp h
  obtain ⟨⟨hour, afterHour⟩, hhour, h⟩ := Option.bind_eq_some_iff.mp h
  obtain ⟨afterColon, hcolon, h⟩ := Option.bind_eq_some_iff.mp h
  obtain ⟨⟨minute, afterMinute⟩, hminute, h⟩ := Option.bind_eq_some_iff.mp h
  obtain ⟨afterColon', hcolon', h⟩ := Option.bind_eq_some_iff.mp h
  obtain ⟨⟨second, fraction⟩, hsecond, h⟩ := Option.bind_eq_some_iff.mp h
  obtain ⟨⟨nanos, zone⟩, hfraction, h⟩ := Option.bind_eq_some_iff.mp h
  obtain ⟨⟨offset, rest⟩, hzone, h⟩ := Option.bind_eq_some_iff.mp h
  obtain ⟨_, hrange, h⟩ := Option.bind_eq_some_iff.mp h
  obtain ⟨_, hdate, h⟩ := Option.bind_eq_some_iff.mp h
  obtain ⟨t', hclock, h⟩ := Option.bind_eq_some_iff.mp h
  obtain ⟨_, hleap, h⟩ := Option.bind_eq_some_iff.mp h
  cases h
  obtain ⟨hfits, hyear⟩ := Decimal.readFixed?_eq_some.mp hyear
  obtain ⟨-, hmonth⟩ := Decimal.readFixed?_eq_some.mp hmonth
  obtain ⟨-, hday⟩ := Decimal.readFixed?_eq_some.mp hday
  obtain ⟨-, hhour⟩ := Decimal.readFixed?_eq_some.mp hhour
  obtain ⟨-, hminute⟩ := Decimal.readFixed?_eq_some.mp hminute
  obtain ⟨-, hsecond⟩ := Decimal.readFixed?_eq_some.mp hsecond
  have hhead' : afterDay = separator :: afterDay.tail := (List.cons_head?_tail hhead).symm
  obtain ⟨rfl, hshown⟩ := (Option.guard_eq_some' _).mp hrange
  obtain ⟨hclock, hoffset⟩ := ofClock?_eq_some.mp hclock
  rw [expect_eq_some] at hhyphen hhyphen' hcolon hcolon'
  refine ⟨⟨year, month, day, separator, hour, minute, second, fraction, nanos, zone, offset⟩, ?_,
    hfits, (Option.guard_eq_some' _).mp hseparator, hfraction, hzone, hshown,
    (Option.guard_eq_some' _).mp hdate, ?_, hoffset, ?_⟩
  · rw [hyear, hhyphen, hmonth, hhyphen', hday, hhead', hhour, hcolon, hminute, hcolon', hsecond]
  · exact hclock
  · intro hsixty
    have hends : ¬ second = 60 ∨ t.endsMonth = true := by
      simpa using (Option.guard_eq_some' _).mp hleap
    exact hends.resolve_left (not_not_intro hsixty)

/-- A text is read as the time that its parts make. -/
theorem Parts.Make.ofRfc3339? {text : String} {p : Parts} (h : p.Make text t) :
    Timestamp.ofRfc3339? text = some t := by
  obtain ⟨hspelled, hyear, hseparator, hfraction, hzone, hrange, hdate, hclock, hoffset, hleap⟩ := h
  have hlast : Date.daysInMonth p.year p.month ≤ 31 := Date.daysInMonth_le _ _
  have hmonth : p.month < 10 ^ 2 := Nat.lt_of_le_of_lt hdate.2.1 (by decide)
  have hday : p.day < 10 ^ 2 := Nat.lt_of_le_of_lt (Nat.le_trans hdate.2.2.2 hlast) (by decide)
  unfold Timestamp.ofRfc3339?
  refine Option.bind_eq_some_iff.mpr
    ⟨(p.year, _), Decimal.readFixed?_eq_some.mpr ⟨hyear, hspelled⟩, ?_⟩
  refine Option.bind_eq_some_iff.mpr ⟨_, expect_eq_some.mpr rfl, ?_⟩
  refine Option.bind_eq_some_iff.mpr ⟨(p.month, _), Decimal.readFixed?_spelled hmonth _, ?_⟩
  refine Option.bind_eq_some_iff.mpr ⟨_, expect_eq_some.mpr rfl, ?_⟩
  refine Option.bind_eq_some_iff.mpr ⟨(p.day, _), Decimal.readFixed?_spelled hday _, ?_⟩
  refine Option.bind_eq_some_iff.mpr ⟨p.separator, rfl, ?_⟩
  refine Option.bind_eq_some_iff.mpr ⟨(), (Option.guard_eq_some' _).mpr hseparator, ?_⟩
  refine Option.bind_eq_some_iff.mpr ⟨(p.hour, _), Decimal.readFixed?_spelled (by omega) _, ?_⟩
  refine Option.bind_eq_some_iff.mpr ⟨_, expect_eq_some.mpr rfl, ?_⟩
  refine Option.bind_eq_some_iff.mpr ⟨(p.minute, _), Decimal.readFixed?_spelled (by omega) _, ?_⟩
  refine Option.bind_eq_some_iff.mpr ⟨_, expect_eq_some.mpr rfl, ?_⟩
  refine Option.bind_eq_some_iff.mpr ⟨(p.second, _), Decimal.readFixed?_spelled (by omega) _, ?_⟩
  refine Option.bind_eq_some_iff.mpr ⟨(p.nanos, p.zone), hfraction, ?_⟩
  refine Option.bind_eq_some_iff.mpr ⟨(p.offset, []), hzone, ?_⟩
  refine Option.bind_eq_some_iff.mpr ⟨(), (Option.guard_eq_some' _).mpr ⟨rfl, hrange⟩, ?_⟩
  refine Option.bind_eq_some_iff.mpr ⟨(), (Option.guard_eq_some' _).mpr hdate, ?_⟩
  refine Option.bind_eq_some_iff.mpr ⟨t, ofClock?_eq_some.mpr ⟨hclock, hoffset⟩, ?_⟩
  refine Option.bind_eq_some_iff.mpr ⟨(), (Option.guard_eq_some' _).mpr ?_, rfl⟩
  by_cases hsixty : p.second = 60
  · simp [hleap hsixty]
  · simp [hsixty]

/-- What is read as a fraction of a second, up to a character that is no part of one. -/
theorem readFraction_spelled {nanos : Nat} (hnanos : nanos < 10 ^ 9) {rest : List Char}
    (hrest : ∀ c ∈ rest.head?, c.isDigit = false ∧ c ≠ '.') :
    readFraction (spelledFraction nanos ++ rest) = some (nanos, rest) := by
  have htake : rest.takeWhile Char.isDigit = [] ∧ rest.dropWhile Char.isDigit = rest := by
    cases rest with
    | nil => exact ⟨rfl, rfl⟩
    | cons c rest =>
        have hc := (hrest c rfl).1
        simp [hc]
  unfold spelledFraction
  split
  · rename_i hzero
    subst hzero
    rw [List.nil_append]
    unfold readFraction
    split
    · exact absurd rfl (hrest '.' rfl).2
    · rfl
  · rename_i hpos
    have hnine : 0 < 9 := by decide
    have hdigits : ∀ c ∈ (Decimal.trimmedFraction 9 nanos).toList, c.isDigit = true := by
      obtain ⟨zeros, hzeros⟩ := Decimal.trimmedFraction_append hnine hnanos
      intro c hc
      exact Decimal.isDigit_spelled c (hzeros ▸ List.mem_append_left _ hc)
    have hne := Decimal.trimmedFraction_ne_nil hnine (Nat.pos_of_ne_zero hpos) hnanos
    have hread : ((Decimal.trimmedFraction 9 nanos).toList ++ rest).takeWhile Char.isDigit =
        (Decimal.trimmedFraction 9 nanos).toList := by
      rw [List.takeWhile_append_of_pos hdigits, htake.1, List.append_nil]
    have hleft : ((Decimal.trimmedFraction 9 nanos).toList ++ rest).dropWhile Char.isDigit = rest := by
      rw [List.dropWhile_append_of_pos hdigits, htake.2]
    have hvalue := Decimal.nat?_trimmedFraction hnine hnanos
    simp only [List.cons_append, readFraction, hread, hleft, hvalue, List.isEmpty_iff, hne, if_false,
      Option.map_some]

theorem readOffset_spelled {offset : Int} (h : offset.natAbs < 24 * 3600 ∧ offset.natAbs % 60 = 0) :
    readOffset (spelledOffset offset) = some (offset, []) := by
  unfold spelledOffset
  split
  · rename_i hzero
    rw [hzero]
    rfl
  · have hhour : offset.natAbs / 3600 < 10 ^ 2 := by omega
    have hminute : offset.natAbs / 60 % 60 < 10 ^ 2 := by omega
    have hbounds : offset.natAbs / 3600 ≤ 23 ∧ offset.natAbs / 60 % 60 ≤ 59 := by omega
    have hsum : ((offset.natAbs / 3600 : Nat) : Int) * 3600 +
        ((offset.natAbs / 60 % 60 : Nat) : Int) * 60 = offset.natAbs := by omega
    have hread (sign : Char) (hsign : sign = '+' ∨ sign = '-') :
        readOffset (sign :: (Decimal.spelled 2 (offset.natAbs / 3600) ++
          ':' :: Decimal.spelled 2 (offset.natAbs / 60 % 60))) =
        some (if sign = '-' then -(offset.natAbs : Int) else offset.natAbs, []) := by
      have hlast := Decimal.readFixed?_spelled hminute []
      rw [List.append_nil] at hlast
      have hzone : ¬ (sign = 'Z' ∨ sign = 'z') := by rcases hsign with rfl | rfl <;> decide
      simp only [readOffset, if_neg hzone, if_pos hsign, Decimal.readFixed?_spelled hhour, hlast,
        expect, guard, if_pos hbounds, hsum, Option.bind_eq_bind, Option.bind_some, Option.pure_def,
        ite_true]
    by_cases hneg : offset < 0
    · have habs : -(offset.natAbs : Int) = offset := by omega
      rw [if_pos hneg, hread '-' (.inr rfl), if_pos rfl, habs]
    · have habs : (offset.natAbs : Int) = offset := by omega
      rw [if_neg hneg, hread '+' (.inl rfl), if_neg (by decide), habs]

theorem head_spelledOffset (offset : Int) :
    ∀ c ∈ (spelledOffset offset).head?, c.isDigit = false ∧ c ≠ '.' := by
  unfold spelledOffset
  split
  · simp
  · split <;> simp

def parts (t : Timestamp) : Parts where
  year := t.date.year.toNat
  month := t.date.month
  day := t.date.day
  separator := 'T'
  hour := t.clockParts.1
  minute := t.clockParts.2.1
  second := t.clockParts.2.2.1
  fraction := spelledFraction t.clockParts.2.2.2 ++ spelledOffset t.offset
  nanos := t.clockParts.2.2.2
  zone := spelledOffset t.offset
  offset := t.offset

theorem HasRfc3339.make (h : t.HasRfc3339) {text : String} (hspelled : text.toList = t.spelled) :
    t.parts.Make text t := by
  obtain ⟨⟨hyear, hyear'⟩, hoffset⟩ := h
  obtain ⟨hhour, hminute, hsecond, hnanos⟩ := t.clockParts_bounds
  have hdate : t.parts.date = t.date := by
    simp only [Parts.date, parts, Int.toNat_of_nonneg hyear]
  have hleap : ¬ t.parts.second = 60 := Nat.ne_of_lt (Nat.lt_succ_of_le hsecond)
  refine ⟨?_, ?_, ?_, readFraction_spelled hnanos (head_spelledOffset t.offset),
    readOffset_spelled hoffset, ?_, ?_, ?_, rfl, fun hsixty => absurd hsixty hleap⟩
  · rw [hspelled]
    simp [spelled, spelledClock, parts]
  · simp only [parts]
    omega
  · simp only [parts]
    decide
  · simp only [parts]
    omega
  · rw [hdate]
    exact Date.ofDays_valid _
  · rw [hdate, Parts.shownSecond, Parts.shownNanos, if_neg hleap, if_neg hleap]
    exact t.clock_eq

/-- The text of a time reads back as the time, with its offset. -/
theorem ofRfc3339?_toRfc3339? {text : String} (h : t.toRfc3339? = some text) :
    ofRfc3339? text = some t := by
  have hform : t.HasRfc3339 := isSome_toRfc3339?.mp (by rw [h, Option.isSome_some])
  obtain ⟨_, htext, hspelled⟩ := hform.toRfc3339?
  cases h.symm.trans htext
  exact (hform.make hspelled).ofRfc3339?

theorem readFraction_lt {cs rest : List Char} {nanos : Nat}
    (h : readFraction cs = some (nanos, rest)) : nanos < 10 ^ 9 := by
  unfold readFraction at h
  split at h
  · dsimp only at h
    split at h
    · cases h
    · obtain ⟨n, hn, hpair⟩ := Option.map_eq_some_iff.mp h
      cases hpair
      unfold Decimal.nat? at hn
      obtain ⟨-, -, hn⟩ := Option.bind_eq_some_iff.mp hn
      obtain ⟨read, hread, hn⟩ := Option.bind_eq_some_iff.mp hn
      obtain ⟨hlt, -⟩ := Decimal.mapM_digit?_eq_some.mp ⟨read, hread, Option.some.inj hn⟩
      exact Nat.lt_of_lt_of_le hlt (Nat.pow_le_pow_right (by decide) (List.length_take_le _ _))
  · cases h
    decide

theorem readOffset_bounds {cs rest : List Char} {offset : Int}
    (h : readOffset cs = some (offset, rest)) :
    offset.natAbs < 24 * 3600 ∧ offset.natAbs % 60 = 0 := by
  unfold readOffset at h
  split at h
  · cases h
  · split at h
    · cases h
      decide
    · split at h
      · obtain ⟨⟨hour, afterHour⟩, -, h⟩ := Option.bind_eq_some_iff.mp h
        obtain ⟨afterColon, -, h⟩ := Option.bind_eq_some_iff.mp h
        obtain ⟨⟨minute, afterMinute⟩, -, h⟩ := Option.bind_eq_some_iff.mp h
        obtain ⟨_, hrange, h⟩ := Option.bind_eq_some_iff.mp h
        obtain ⟨hhour, hminute⟩ := (Option.guard_eq_some' _).mp hrange
        cases h
        split <;> omega
      · cases h

/-- What is read has a text, as it is read from four digits of a year and an offset of whole minutes
below a day. -/
theorem hasRfc3339_of_read {text : String} (h : ofRfc3339? text = some t) : t.HasRfc3339 := by
  obtain ⟨p, hp⟩ := exists_parts h
  have hnanos := readFraction_lt hp.fraction
  have hshown : p.shownSecond ≤ 59 ∧ p.shownNanos < 10 ^ 9 := by
    obtain ⟨-, -, hsecond⟩ := hp.range
    unfold Parts.shownSecond Parts.shownNanos
    split <;> omega
  have hdays : t.clock / (86400 * Span.nanosPerSecond) = p.date.toDays := by
    obtain ⟨hhour, hminute, -⟩ := hp.range
    rw [hp.clock]
    unfold Span.nanosPerSecond
    omega
  have hdate : t.date = p.date := Date.ofDays_eq_iff.mpr ⟨hp.date, hdays.symm⟩
  have hyear := hp.year
  refine ⟨?_, hp.offset ▸ readOffset_bounds hp.zone⟩
  rw [hdate, Parts.date]
  simp only
  omega

end Timestamp

end KeyPool
