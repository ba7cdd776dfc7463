import KeyPool.Proofs.Store.Reading

/-! What the tables keep of times. Whole milliseconds fit a signed word, and they keep the order of the
times that they stand for. Read again, they name the last whole millisecond on the way from 1970. -/

namespace KeyPool

namespace Timestamp

variable {t cut : Timestamp}

/-- The last whole millisecond on the way from 1970 to a time. -/
structure IsCut (t cut : Timestamp) : Prop where
  whole : 1000000 ∣ cut.instant
  late : 0 ≤ t.instant → cut.instant ≤ t.instant ∧ t.instant < cut.instant + 1000000
  early : t.instant < 0 → t.instant ≤ cut.instant ∧ cut.instant < t.instant + 1000000

/-- There is one of them, and milliseconds count up to it. -/
theorem isCut_iff : t.IsCut cut ↔ cut.instant = t.toMillis * 1000000 := by
  have hmillis := t.toMillis_cases
  constructor
  · rintro ⟨⟨millis, hwhole⟩, hlate, hearly⟩
    rcases hmillis with ⟨hpos, hle, hlt⟩ | ⟨hneg, hle, hlt⟩
    · have hbounds := hlate hpos
      omega
    · have hbounds := hearly hneg
      omega
  · intro h
    refine ⟨⟨t.toMillis, by omega⟩, ?_, ?_⟩ <;> omega

/-- An offset takes an instant past the calendar by less than two days, and a signed word holds the
milliseconds of far more years than the calendar has. -/
theorem toMillis_bounds (t : Timestamp) : -2 ^ 63 ≤ t.toMillis ∧ t.toMillis < 2 ^ 63 := by
  have hclock := t.clock_bounds
  have hoffset := t.offset_bounds
  have hinstant : t.instant = t.clock - t.offset * 1000000000 := rfl
  have hmillis := t.toMillis_cases
  omega

theorem exists_ofMillis?_iff {millis : Int} : (∃ t, ofMillis? millis = some t) ↔
    ∃ t : Timestamp, (minClock ≤ t.instant ∧ t.instant ≤ maxClock) ∧ t.toMillis = millis := by
  constructor
  · rintro ⟨t, ht⟩
    have hoffset : t.offset = 0 := offset_ofNanos? ht
    have hinstant : t.instant = t.clock := by simp [instant, hoffset]
    exact ⟨t, hinstant ▸ t.clock_bounds, toMillis_ofMillis? ht⟩
  · rintro ⟨t, hshown, rfl⟩
    exact exists_ofMillis?_toMillis hshown

end Timestamp

/-- A window that does not end before it starts is recorded as one, and never refused as another when it
is read. -/
theorem WindowRow.ofRecord_ordered {record : BadWindowRecord} (h : record.window.isOrdered = true) :
    (ofRecord record).start ≤ (ofRecord record).stop ∧
      ∀ window, (ofRecord record).toRecord ≠ .error (.invertedWindow window) := by
  have hle : record.window.start ≤ record.window.stop := of_decide_eq_true h
  refine ⟨Timestamp.toMillis_mono hle, ?_⟩
  intro window hinverted
  rcases toRecord_cases record hle with ⟨-, found, hfound⟩ | ⟨t, -, -, hunread⟩
  · cases hfound.symm.trans hinverted
  · cases hunread.symm.trans hinverted

/-- How times are kept in whole milliseconds. No bit is lost in a signed word, and what is read again
is the time on UTC, cut toward 1970. -/
structure MillisSpec : Prop where
  fits : ∀ t : Timestamp, (Int64.ofInt t.toMillis).toInt = t.toMillis
  ordered : ∀ t u : Timestamp, t ≤ u → t.toMillis ≤ u.toMillis
  unreversed : ∀ t u : Timestamp, t.toMillis < u.toMillis → t < u
  kept : ∀ t : Timestamp, Timestamp.minClock ≤ t.instant ∧ t.instant ≤ Timestamp.maxClock →
    ∃ kept, Timestamp.ofMillis? t.toMillis = some kept ∧ kept.offset = 0 ∧
      (∀ cut, t.IsCut cut ↔ cut.instant = kept.instant) ∧
      (kept.instant = t.instant ↔ 1000000 ∣ t.instant) ∧ kept.toMillis = t.toMillis
  readable : ∀ millis, (∃ t, Timestamp.ofMillis? millis = some t) ↔
    ∃ t : Timestamp, (Timestamp.minClock ≤ t.instant ∧ t.instant ≤ Timestamp.maxClock) ∧
      t.toMillis = millis
  read : ∀ millis t, Timestamp.ofMillis? millis = some t → t.toMillis = millis
  reread : ∀ t u kept kept' : Timestamp, Timestamp.ofMillis? t.toMillis = some kept →
    Timestamp.ofMillis? u.toMillis = some kept' → t ≤ u → kept ≤ kept'
  window : ∀ record : BadWindowRecord, record.window.isOrdered = true →
    (WindowRow.ofRecord record).start ≤ (WindowRow.ofRecord record).stop ∧
      ∀ window, (WindowRow.ofRecord record).toRecord ≠ .error (.invertedWindow window)

/-- Times go through whole milliseconds in their order, and with nothing lost but their fractions. -/
theorem millis_spec : MillisSpec := by
  refine ⟨?_, fun t u => Timestamp.toMillis_mono, ?_, ?_, fun _ => Timestamp.exists_ofMillis?_iff,
    fun _ _ => Timestamp.toMillis_ofMillis?, fun _ _ _ _ => Timestamp.ofMillis?_mono,
    fun _ => WindowRow.ofRecord_ordered⟩
  · intro t
    exact Int64.toInt_ofInt_of_le t.toMillis_bounds.1 t.toMillis_bounds.2
  · intro t u hlt
    by_contra hle
    have hmono : u.toMillis ≤ t.toMillis := Timestamp.toMillis_mono (Int.not_lt.mp hle)
    omega
  · intro t hshown
    obtain ⟨kept, hkept⟩ := Timestamp.exists_ofMillis?_toMillis hshown
    have hinstant : kept.instant = t.toMillis * 1000000 := Timestamp.instant_ofMillis? hkept
    refine ⟨kept, hkept, Timestamp.offset_ofNanos? hkept, ?_, ?_, Timestamp.toMillis_ofMillis? hkept⟩
    · intro cut
      rw [Timestamp.isCut_iff, hinstant]
    · have hmillis := t.toMillis_cases
      rw [hinstant]
      omega

end KeyPool
