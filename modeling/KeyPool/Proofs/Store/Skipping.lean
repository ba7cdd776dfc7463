import KeyPool.Proofs.Store.Handout
import KeyPool.Proofs.Store.Purge

/-! When a purge may be passed over. A window is passed over if it agrees with the recorded one in
whole milliseconds, but keys are looked through with all of its bounds. So a key can be spared that was
issued in the window passed over and not in the one that was processed. That takes a bound of the
latter which lies within a millisecond of the issue. -/

namespace KeyPool

/-! ## Windows that agree in milliseconds -/

/-- Whether nothing of an instant is lost in milliseconds. -/
def Timestamp.IsWhole (t : Timestamp) : Prop := t.instant = t.toMillis * 1000000

/-- The two ways in which a window can miss an instant that windows with the same milliseconds hold:
it starts later in the same millisecond, or it ends in the last one before 1970, which is counted as
the first one after. -/
def BadWindow.Misses (window : BadWindow) (t : Timestamp) : Prop :=
  t < window.start ∧ window.start.toMillis = t.toMillis ∨
    window.stop < t ∧ t.instant = 0 ∧ window.stop.toMillis = 0

theorem BadWindow.Misses.not_whole {window : BadWindow} {t : Timestamp} (h : window.Misses t)
    (ht : t.IsWhole) : ¬ (window.start.IsWhole ∧ window.stop.IsWhole) := by
  rintro ⟨hstart, hstop⟩
  unfold Timestamp.IsWhole at ht hstart hstop
  rcases h with ⟨hlate, hsame⟩ | ⟨hearly, hzero, hsame⟩
  · have hlt : t.instant < window.start.instant := hlate
    rw [hsame] at hstart
    omega
  · have hlt : window.stop.instant < t.instant := hearly
    rw [hsame] at hstop
    omega

/-- A whole instant from 1970 on that one window holds is held by another of the same milliseconds,
or that one misses it. -/
theorem BadWindow.contains_or_misses {recorded window : BadWindow} {t : Timestamp} (ht : t.IsWhole)
    (hpositive : 0 ≤ t.instant) (hm : Store.sameMillis recorded window = true)
    (hw : window.contains t = true) : recorded.contains t = true ∨ recorded.Misses t := by
  obtain ⟨hstart, hstop⟩ := Store.sameMillis_iff.mp hm
  obtain ⟨hfrom, huntil⟩ : window.start ≤ t ∧ t ≤ window.stop := by
    simpa [BadWindow.contains] using hw
  have hafter : recorded.start.toMillis ≤ t.toMillis := hstart ▸ Timestamp.toMillis_mono hfrom
  have hbefore : t.toMillis ≤ recorded.stop.toMillis := hstop ▸ Timestamp.toMillis_mono huntil
  by_cases hlate : t < recorded.start
  · have hle := Timestamp.toMillis_mono (Int.le_of_lt hlate : t ≤ recorded.start)
    exact .inr (.inl ⟨hlate, le_antisymm hafter hle⟩)
  by_cases hearly : recorded.stop < t
  · have hle := Timestamp.toMillis_mono (Int.le_of_lt hearly : recorded.stop ≤ t)
    have hsame : recorded.stop.toMillis = t.toMillis := le_antisymm hle hbefore
    -- a bound below a whole instant of its own millisecond is rounded up, so it lies before 1970
    have hlt : recorded.stop.instant < t.instant := hearly
    have hbound := recorded.stop.toMillis_cases
    unfold Timestamp.IsWhole at ht
    have hzero : t.toMillis = 0 := by omega
    exact .inr (.inr ⟨hearly, by omega, hsame.trans hzero⟩)
  · have hinside : recorded.start ≤ t ∧ t ≤ recorded.stop :=
      ⟨Int.not_lt.mp hlate, Int.not_lt.mp hearly⟩
    exact .inl (by simpa [BadWindow.contains] using hinside)

namespace CertificateTime

theorem isWhole (t : CertificateTime) : t.toTimestamp.IsWhole := by
  rw [Timestamp.IsWhole, instant_toTimestamp, toMillis_toTimestamp]

theorem instant_nonneg (t : CertificateTime) : 0 ≤ t.toTimestamp.instant := by
  have hseconds := t.toSeconds_bounds
  rw [instant_toTimestamp]
  omega

end CertificateTime

/-! ## Rows of a run that brings no keys in -/

namespace KeyRow

theorem issuedAt_eq_ok {row : KeyRow} {issued : Timestamp} (h : row.issuedAt = .ok issued) :
    ∃ t : CertificateTime, t.toTimestamp = issued := by
  unfold issuedAt Certificate.issuedAt at h
  split at h
  · cases h
  · split at h
    · cases h
    · rename_i leaf rest hleaf
      cases h
      exact ⟨leaf.body.notBefore, rfl⟩

theorem Becomes.issuedAt_eq {row later : KeyRow} (h : row.Becomes later) :
    later.issuedAt = row.issuedAt := by
  cases h <;> rfl

end KeyRow

namespace Database

variable {db : Database}

theorem rows_origin_of_given {call : StoreCall} (h : db.Numbered)
    (hnone : (call.record db).given = []) :
    ∀ later ∈ (call.next db).rows, ∃ row ∈ db.rows, row.Becomes later := by
  rcases (call.next_change db).rows_origin h with ⟨keys, -, happend⟩ | ⟨-, horigin⟩
  · have hnil : keys = [] := by
      rw [StoreCall.given_of_append happend, List.map_eq_nil_iff] at hnone
      rw [← List.length_eq_zero_iff, ← KeyRow.length_numbered db.lastUsed keys, hnone]
      rfl
    intro later hlater
    rw [happend, hnil] at hlater
    exact ⟨later, by simpa [append, KeyRow.numbered] using hlater, .same⟩
  · exact horigin

theorem rows_origin_after {calls : List StoreCall} (h : db.Numbered)
    (hnone : ∀ r ∈ db.history calls, r.given = []) :
    ∀ later ∈ (db.after calls).rows, ∃ row ∈ db.rows, row.Becomes later := by
  induction calls generalizing db with
  | nil => exact fun later hlater => ⟨later, hlater, .same⟩
  | cons call calls ih =>
      intro last hlast
      have hrest : ∀ r ∈ (call.next db).history calls, r.given = [] :=
        fun r hr => hnone r (List.mem_cons_of_mem _ hr)
      obtain ⟨later, hlater, hl⟩ := ih (h.change (call.next_change db)) hrest last hlast
      obtain ⟨row, hrow, hr⟩ :=
        rows_origin_of_given h (hnone _ List.mem_cons_self) later hlater
      exact ⟨row, hrow, hr.trans hl⟩

end Database

/-! ## Windows that are passed over -/

theorem Store.purge_skipped {s : Store} {window : BadWindow}
    (h : (s.purge window).result = .ok .alreadyProcessed) :
    ∃ record, s.db.recordedWindow = .ok (some record) ∧ sameMillis record.window window = true := by
  have hp := s.purge_purging window
  generalize s.purge window = outcome at h hp
  cases hp with
  | repeated record hr hm => exact ⟨record, hr, hm⟩
  | _ => cases h

/-- What a window that is passed over can spare, where `recorded` was the last one processed. It is
nothing if that was given in whole milliseconds. -/
structure SkippingSpec (recorded window : BadWindow) (db : Database) : Prop where
  spared : ∀ row ∈ db.rows, ∀ issued, row.issuedAt = .ok issued → window.contains issued = true →
    recorded.Misses issued
  sound : recorded.start.IsWhole → recorded.stop.IsWhole →
    ∀ row ∈ db.rows, ∀ issued, row.issuedAt = .ok issued → window.contains issued = false

/-- After the last window that was processed, and as long as no keys come in, a window that is passed
over spares no key but those that the last one missed by less than a millisecond. -/
theorem skipping_spec {earlier later : List StoreCall} {recorded window : BadWindow}
    {poisoned : Bool} {s : Store} {version : UInt64}
    (hprocessed : ((StoreCall.mk (.purge recorded) poisoned).record
      (Database.empty.after earlier)).purgedVersion? = some version)
    (hlast : ∀ r ∈ ((StoreCall.mk (.purge recorded) poisoned).next
      (Database.empty.after earlier)).history later, r.purgedVersion? = none)
    (hfresh : ∀ r ∈ ((StoreCall.mk (.purge recorded) poisoned).next
      (Database.empty.after earlier)).history later, r.given = [])
    (hs : s.db = Database.empty.after (earlier ++ ⟨.purge recorded, poisoned⟩ :: later))
    (hskipped : (s.purge window).result = .ok .alreadyProcessed) :
    SkippingSpec recorded window s.db := by
  generalize hcall : StoreCall.mk (.purge recorded) poisoned = call at *
  have hnumbered : (Database.empty.after earlier).Numbered := Database.numbered_empty.after earlier
  rw [Database.after_append, Database.after_cons] at hs
  generalize Database.empty.after earlier = db at *
  obtain ⟨hwindow, hrows⟩ : (call.next db).window = some (.ofRecord ⟨recorded, db.version + 1⟩) ∧
      (call.next db).rows = db.rows.filter (Store.outlives recorded) := by
    rcases call.window_cases db with ⟨hnone, -⟩ | ⟨other, _, hop, -, -, -, hwindow, hrows⟩
    · simp [hnone] at hprocessed
    · subst hcall
      cases hop
      exact ⟨hwindow, hrows⟩
  have hkept : ((call.next db).after later).window = (call.next db).window :=
    Database.window_after fun r hr _ _ hne => absurd (hlast r hr) hne
  -- the window that is passed over agrees with the one processed last
  have hsame : Store.sameMillis recorded window = true := by
    obtain ⟨record, hrecord, hm⟩ := Store.purge_skipped hskipped
    rw [hs] at hrecord
    rcases Database.recordedWindow_eq_ok hrecord with ⟨-, hnone⟩ | ⟨row, found, hrow, hread, hfound⟩
    · cases hnone
    · cases hfound
      rw [hkept, hwindow] at hrow
      cases hrow
      obtain ⟨hstart, hstop, -⟩ := WindowRow.toRecord_eq_ok hread
      simpa [Store.sameMillis, hstart, hstop, WindowRow.ofRecord] using hm
  have hspared : ∀ row ∈ s.db.rows, ∀ issued, row.issuedAt = .ok issued →
      window.contains issued = true → recorded.Misses issued := by
    intro last hmem issued hissued hinside
    rw [hs] at hmem
    obtain ⟨row, hrow, hbecomes⟩ := Database.rows_origin_after (hnumbered.change (call.next_change db))
      hfresh last hmem
    rw [hrows] at hrow
    obtain ⟨found, hfound, houtside⟩ := Store.outlives_iff.mp (List.mem_filter.mp hrow).2
    rw [hbecomes.issuedAt_eq, hfound] at hissued
    cases hissued
    obtain ⟨t, rfl⟩ := KeyRow.issuedAt_eq_ok hfound
    rcases BadWindow.contains_or_misses t.isWhole t.instant_nonneg hsame hinside with hin | hmiss
    · exact absurd (by simpa [BadWindow.contains] using hin) houtside
    · exact hmiss
  refine ⟨hspared, ?_⟩
  intro hstart hstop row hrow issued hissued
  cases hinside : window.contains issued with
  | false => rfl
  | true =>
      obtain ⟨t, rfl⟩ := KeyRow.issuedAt_eq_ok hissued
      exact absurd ⟨hstart, hstop⟩ ((hspared row hrow _ hissued hinside).not_whole t.isWhole)

def issuedAtNewYear : AttestationKey := ⟨none, [1], "hal", [], .selfSigned, .epoch, none⟩

/-- The first hour of 2024, of which some nanoseconds may be cut off. -/
def firstHour (cut : Fin 1000000) : BadWindow where
  start := ⟨1704067200000000000 + cut, 0, by omega, Timestamp.epoch.offset_bounds⟩
  stop := ⟨1704070800000000000, 0, by decide, Timestamp.epoch.offset_bounds⟩

/-- A key comes in, and the hour is processed without its first half millisecond. -/
def hourMissed : List StoreCall :=
  [⟨.insert [issuedAtNewYear], false⟩, ⟨.purge (firstHour 500000), false⟩]

/-- Then the whole hour is passed over, and the key stays although it was issued in that hour. -/
theorem skipping_spec_spares :
    (Store.purge ⟨Database.empty.after hourMissed, false⟩ (firstHour 0)).result =
        .ok .alreadyProcessed ∧
      SkippingSpec (firstHour 500000) (firstHour 0) (Database.empty.after hourMissed) ∧
      ∃ row ∈ (Database.empty.after hourMissed).rows, ∃ issued, row.issuedAt = .ok issued ∧
        (firstHour 0).contains issued = true := by
  obtain ⟨chain, hchain, -, hfrom, -⟩ := CertificateChain.ofBytes_selfSigned
  have hissued : (KeyRow.ofKey 1 issuedAtNewYear).issuedAt = .ok chain.leaf.notBefore :=
    CertificateChain.issuedAt_of_ofBytes hchain
  have hinsert : (StoreCall.mk (.insert [issuedAtNewYear]) false).next .empty =
      Database.empty.append [issuedAtNewYear] :=
    StoreCall.next_insert_selfSigned (List.cons_ne_nil _ _) (by simp [issuedAtNewYear]) rfl
  have hbefore : Database.empty.after [⟨.insert [issuedAtNewYear], false⟩] =
      Database.empty.append [issuedAtNewYear] := by
    rw [Database.after_cons, hinsert]
    rfl
  have hafter : Database.empty.after hourMissed =
      (StoreCall.mk (.purge (firstHour 500000)) false).next
        (Database.empty.append [issuedAtNewYear]) := by
    rw [hourMissed, Database.after_cons, hinsert, Database.after_cons]
    rfl
  have hprocessed : ((StoreCall.mk (.purge (firstHour 500000)) false).record
      (Database.empty.append [issuedAtNewYear])).purgedVersion? = some 1 := by
    decide +kernel
  have hskipped : (Store.purge ⟨Database.empty.after hourMissed, false⟩ (firstHour 0)).result =
      .ok .alreadyProcessed := by
    rw [hafter]
    decide +kernel
  have hnone (P : StoreRecord → Prop) : ∀ r ∈ Database.history
      ((StoreCall.mk (.purge (firstHour 500000)) false).next
        (Database.empty.after [⟨.insert [issuedAtNewYear], false⟩])) [], P r :=
    fun r hr => absurd hr List.not_mem_nil
  refine ⟨hskipped, ?_, KeyRow.ofKey 1 issuedAtNewYear, ?_, chain.leaf.notBefore, hissued, ?_⟩
  · rw [← hbefore] at hprocessed
    have hspec := @skipping_spec _ [] _ _ _ (Store.mk (Database.empty.after hourMissed) false) 1
      hprocessed (hnone _) (hnone _) (by rw [hourMissed, List.singleton_append]) hskipped
    simpa only using hspec
  · rw [hafter]
    rcases StoreCall.window_cases ⟨.purge (firstHour 500000), false⟩
        (Database.empty.append [issuedAtNewYear]) with ⟨hquiet, -⟩ | ⟨_, _, hop, -, -, -, -, hrows⟩
    · cases hprocessed.symm.trans hquiet
    · cases hop
      have houtlives : Store.outlives (firstHour 500000) (KeyRow.ofKey 1 issuedAtNewYear) = true :=
        Store.outlives_iff.mpr ⟨_, hissued, by rw [hfrom]; decide⟩
      rw [hrows]
      exact List.mem_filter.mpr ⟨List.mem_singleton_self _, houtlives⟩
  · rw [hfrom]
    decide

end KeyPool
