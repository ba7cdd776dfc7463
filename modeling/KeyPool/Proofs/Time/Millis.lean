import KeyPool.Certificate.Validity

/-! Times in whole milliseconds keep the order of the instants they stand for. -/

namespace KeyPool

namespace Timestamp

theorem toMillis_mono {t u : Timestamp} (h : t ≤ u) : t.toMillis ≤ u.toMillis :=
  Int.tdiv_le_tdiv (by decide) h

theorem instant_ofNanos? {nanos : Int} {t : Timestamp} (h : ofNanos? nanos = some t) :
    t.instant = nanos := by
  unfold ofNanos? ofClock? at h
  split at h
  · split at h
    · cases h
      simp [instant]
    · cases h
  · cases h

theorem offset_ofNanos? {nanos : Int} {t : Timestamp} (h : ofNanos? nanos = some t) :
    t.offset = 0 := by
  unfold ofNanos? ofClock? at h
  split at h
  · split at h
    · cases h
      rfl
    · cases h
  · cases h

theorem instant_ofMillis? {millis : Int} {t : Timestamp} (h : ofMillis? millis = some t) :
    t.instant = millis * 1000000 :=
  instant_ofNanos? h

theorem toMillis_ofMillis? {millis : Int} {t : Timestamp} (h : ofMillis? millis = some t) :
    t.toMillis = millis := by
  rw [toMillis, instant_ofMillis? h]
  exact Int.mul_tdiv_cancel millis (by decide)

/-- Times that are read from milliseconds are in the order of those that they were counted to. -/
theorem ofMillis?_mono {t u kept kept' : Timestamp} (ht : ofMillis? t.toMillis = some kept)
    (hu : ofMillis? u.toMillis = some kept') (h : t ≤ u) : kept ≤ kept' := by
  have hmillis : t.toMillis ≤ u.toMillis := toMillis_mono h
  change kept.instant ≤ kept'.instant
  rw [instant_ofMillis? ht, instant_ofMillis? hu]
  omega

/-- A time read from milliseconds that is not before an instant is not before it in milliseconds. -/
theorem toMillis_le_of_not_lt {millis : Int} {t u : Timestamp} (h : ofMillis? millis = some t)
    (hu : ¬ t < u) : u.toMillis ≤ millis := by
  have hle : u ≤ t := Int.not_lt.mp hu
  calc
    u.toMillis ≤ t.toMillis := toMillis_mono hle
    _ = millis := toMillis_ofMillis? h

/-- What is left of an instant beside its milliseconds points away from 1970. -/
theorem toMillis_cases (t : Timestamp) :
    0 ≤ t.instant ∧ t.toMillis * 1000000 ≤ t.instant ∧ t.instant < (t.toMillis + 1) * 1000000 ∨
      t.instant < 0 ∧ t.instant ≤ t.toMillis * 1000000 ∧
        (t.toMillis - 1) * 1000000 < t.instant := by
  unfold toMillis
  rcases Int.lt_or_le t.instant 0 with hneg | hpos
  · have hflip : t.instant.tdiv 1000000 = -((-t.instant) / 1000000) := by
      rw [← Int.tdiv_eq_ediv_of_nonneg (by omega), Int.neg_tdiv, Int.neg_neg]
    omega
  · rw [Int.tdiv_eq_ediv_of_nonneg hpos]
    omega

/-- An instant that a clock on UTC shows is still shown in whole milliseconds. -/
theorem exists_ofMillis?_toMillis {t : Timestamp} (h : minClock ≤ t.instant ∧ t.instant ≤ maxClock) :
    ∃ kept, ofMillis? t.toMillis = some kept := by
  have hshown : minClock ≤ t.toMillis * 1000000 ∧ t.toMillis * 1000000 ≤ maxClock := by
    have hmillis := t.toMillis_cases
    unfold minClock maxClock at h ⊢
    omega
  rw [ofMillis?, ofNanos?, ofClock?, dif_pos hshown, dif_pos (by decide)]
  exact ⟨_, rfl⟩

/-- Whether an instant lies so far outside of the calendar that its whole milliseconds name no time. -/
def isBeyondCalendar (t : Timestamp) : Bool := (ofMillis? t.toMillis).isNone

theorem isBeyondCalendar_iff {t : Timestamp} :
    t.isBeyondCalendar = true ↔ t.instant ≤ minClock - 1000000 ∨ maxClock < t.instant := by
  have hshown : t.isBeyondCalendar = true ↔
      ¬ (minClock ≤ t.toMillis * 1000000 ∧ t.toMillis * 1000000 ≤ maxClock) := by
    rw [isBeyondCalendar, ofMillis?, ofNanos?, ofClock?]
    split <;> simp_all
  have hmillis := t.toMillis_cases
  rw [hshown]
  unfold minClock maxClock
  omega

/-- A time whose milliseconds are not past some that name a time is named by its own, unless it lies
before the calendar. -/
theorem exists_ofMillis?_of_le {t : Timestamp} {millis : Int} (h : ofMillis? millis ≠ none)
    (hle : t.toMillis ≤ millis) (ht : minClock - 1000000 < t.instant) :
    ∃ kept, ofMillis? t.toMillis = some kept := by
  obtain ⟨later, hlater⟩ := Option.ne_none_iff_exists'.mp h
  have hlast : ¬ later.isBeyondCalendar = true := by
    simp [isBeyondCalendar, toMillis_ofMillis? hlater, hlater]
  have hinside : ¬ t.isBeyondCalendar = true := by
    have hmillis := t.toMillis_cases
    rw [isBeyondCalendar_iff, instant_ofMillis? hlater] at hlast
    rw [isBeyondCalendar_iff]
    unfold minClock maxClock at *
    omega
  apply Option.ne_none_iff_exists'.mp
  simpa [isBeyondCalendar] using hinside

end Timestamp

/-! ## Times of certificates -/

namespace CertificateTime

theorem instant_toTimestamp (t : CertificateTime) :
    t.toTimestamp.instant = t.toSeconds * 1000 * 1000000 := by
  rw [Timestamp.instant, toTimestamp, Int.zero_mul, Int.sub_zero, Int.mul_assoc]
  rfl

theorem toMillis_toTimestamp (t : CertificateTime) : t.toTimestamp.toMillis = t.toSeconds * 1000 := by
  rw [Timestamp.toMillis, instant_toTimestamp, Int.mul_tdiv_cancel _ (by decide)]

/-- A time of a certificate names a whole second, so milliseconds lose nothing of it. -/
theorem ofMillis?_toMillis (t : CertificateTime) :
    Timestamp.ofMillis? t.toTimestamp.toMillis = some t.toTimestamp := by
  have hclock : t.toTimestamp.toMillis * 1000000 = t.toTimestamp.clock := by
    rw [toMillis_toTimestamp, Int.mul_assoc]
    rfl
  have hshown : Timestamp.minClock ≤ t.toTimestamp.clock ∧
      t.toTimestamp.clock ≤ Timestamp.maxClock := t.toTimestamp.clock_bounds
  rw [Timestamp.ofMillis?, hclock, Timestamp.ofNanos?, Timestamp.ofClock?, dif_pos hshown,
    dif_pos (by decide)]
  rfl

end CertificateTime

end KeyPool
