import KeyPool.Proofs.Store.History

/-! What a purge does. It deletes the keys that were issued in a bad window and those that do not say
when they were issued, and records the window. Over a run, the windows that were processed count up
from one. -/

namespace KeyPool

/-! ## The recorded window -/

namespace WindowRow

variable {row : WindowRow} {record : BadWindowRecord}

theorem readTime_eq_ok {millis : Int} {t : Timestamp} (h : readTime millis = .ok t) :
    Timestamp.ofMillis? millis = some t := by
  unfold readTime at h
  split at h
  · simp_all
  · cases h

theorem toRecord_eq_ok (h : row.toRecord = .ok record) :
    record.window.start.toMillis = row.start ∧ record.window.stop.toMillis = row.stop ∧
      record.version = UInt64.ofInt row.version := by
  obtain ⟨start, hstart, h⟩ := bind_eq_ok.mp h
  obtain ⟨stop, hstop, h⟩ := bind_eq_ok.mp h
  simp only at h
  split at h
  · cases h
    have hfirst := Timestamp.toMillis_ofMillis? (readTime_eq_ok hstart)
    have hlast := Timestamp.toMillis_ofMillis? (readTime_eq_ok hstop)
    exact ⟨hfirst, hlast, rfl⟩
  · cases h

/-- A version is not lost where it is kept as a signed number. -/
theorem version_ofRecord (record : BadWindowRecord) :
    UInt64.ofInt (ofRecord record).version = record.version := by
  have hsigned : record.version.toInt64.toInt = (record.version.toNat : Int).bmod (2 ^ 64) :=
    BitVec.toInt_eq_toNat_bmod record.version.toBitVec
  have hroom : record.version.toNat < 2 ^ 64 := record.version.toNat_lt
  have hbits : record.version.toInt64.toInt % 2 ^ 64 = record.version.toNat := by
    rw [hsigned, Int.bmod_def]
    split <;> omega
  rw [ofRecord, UInt64.ofInt, hbits, Int.toNat_natCast, UInt64.ofNat_toNat]

theorem toRecord_ofRecord (record : BadWindowRecord) {start stop : Timestamp}
    (hstart : Timestamp.ofMillis? record.window.start.toMillis = some start)
    (hstop : Timestamp.ofMillis? record.window.stop.toMillis = some stop)
    (ho : record.window.isOrdered = true) :
    (ofRecord record).toRecord = .ok ⟨⟨start, stop⟩, record.version⟩ := by
  have hle : start ≤ stop := Timestamp.ofMillis?_mono hstart hstop (of_decide_eq_true ho)
  have hordered : BadWindow.isOrdered ⟨start, stop⟩ = true := decide_eq_true hle
  have hversion := version_ofRecord record
  simp only [ofRecord] at hversion
  simp [toRecord, ofRecord, readTime, hstart, hstop, hordered, hversion, bind, Except.bind, pure,
    Except.pure]

end WindowRow

namespace Database

variable {db : Database}

theorem recordedWindow_eq_ok {recorded : Option BadWindowRecord}
    (h : db.recordedWindow = .ok recorded) :
    (db.window = none ∧ recorded = none) ∨ ∃ row record, db.window = some row ∧
      row.toRecord = .ok record ∧ recorded = some record := by
  unfold recordedWindow at h
  split at h
  · rename_i hnone
    cases h
    exact .inl ⟨hnone, rfl⟩
  · rename_i row hrow
    obtain ⟨record, hrecord, rfl⟩ := map_eq_ok.mp h
    exact .inr ⟨row, record, hrow, hrecord, rfl⟩

/-- How many windows were processed; none at first. -/
def version (db : Database) : UInt64 := db.window.elim 0 (UInt64.ofInt ·.version)

theorem version_succ {recorded : Option BadWindowRecord} (h : db.recordedWindow = .ok recorded) :
    recorded.elim 1 (·.version + 1) = db.version + 1 := by
  rcases recordedWindow_eq_ok h with ⟨hnone, rfl⟩ | ⟨row, record, hrow, hrecord, rfl⟩
  · rw [version, hnone]
    rfl
  · rw [version, hrow, Option.elim_some, (WindowRow.toRecord_eq_ok hrecord).2.2]
    rfl

end Database

/-! ## One purge -/

namespace Store

variable {s : Store} {window : BadWindow}

theorem sameMillis_iff {a b : BadWindow} : sameMillis a b = true ↔
    a.start.toMillis = b.start.toMillis ∧ a.stop.toMillis = b.stop.toMillis := by
  simp [sameMillis]

/-- A row outlives a window if its leaf says when it was issued, and that was outside of it. -/
theorem outlives_iff {row : KeyRow} : outlives window row = true ↔
    ∃ issued, row.issuedAt = .ok issued ∧ ¬ (window.start ≤ issued ∧ issued ≤ window.stop) := by
  unfold outlives
  cases row.issuedAt <;> simp [BadWindow.contains, imp_iff_not_or]

theorem checkChains_eq_ok {db : Database} :
    db.checkChains = .ok () ↔ ∀ row ∈ db.rows, ∃ octets, row.chain = .blob octets := by
  have hblob (c : Cell) : c.toBlob?.isNone = false ↔ ∃ octets, c = .blob octets := by
    cases c <;> simp [Cell.toBlob?]
  unfold Database.checkChains
  cases hfound : db.rows.find? (·.chain.toBlob?.isNone) with
  | none =>
      have hnone := List.find?_eq_none.mp hfound
      simp only [Bool.not_eq_true, hblob] at hnone
      simpa using hnone
  | some row =>
      have hmem := List.mem_of_find?_eq_some hfound
      have hbad := List.find?_some hfound
      simp only [reduceCtorEq, false_iff, not_forall]
      refine ⟨row, hmem, ?_⟩
      rw [← hblob, hbad]
      decide

theorem checkChains_eq_error {db : Database} {row : KeyRow} (hrow : row ∈ db.rows)
    (hchain : ∀ octets, row.chain ≠ .blob octets) :
    ∃ first ∈ db.rows, db.checkChains = .error (.mistyped first.chain.kind 1 .chain) := by
  have hbad : db.checkChains ≠ .ok () := by
    intro hok
    obtain ⟨octets, hblob⟩ := checkChains_eq_ok.mp hok row hrow
    exact hchain octets hblob
  unfold Database.checkChains at hbad ⊢
  cases hfound : db.rows.find? (·.chain.toBlob?.isNone) with
  | none =>
      rw [hfound] at hbad
      exact absurd rfl hbad
  | some first => exact ⟨first, List.mem_of_find?_eq_some hfound, rfl⟩

/-- What is left by a purge that was carried out. Some rows go, the others stay as they are and in
their order. The window can be read back, in whole milliseconds. -/
structure Purged (s : Store) (window : BadWindow) (deleted : Nat) (version : UInt64) (s' : Store) :
    Prop where
  rows : s'.db.rows = s.db.rows.filter (outlives window)
  spared : ∀ row, row ∈ s'.db.rows ↔ row ∈ s.db.rows ∧
    ∃ issued, row.issuedAt = .ok issued ∧ ¬ (window.start ≤ issued ∧ issued ≤ window.stop)
  deleted : deleted + s'.db.rows.length = s.db.rows.length
  recorded : ∃ start stop, Timestamp.ofMillis? window.start.toMillis = some start ∧
    Timestamp.ofMillis? window.stop.toMillis = some stop ∧
      s'.db.recordedWindow = .ok (some ⟨⟨start, stop⟩, version⟩)
  lastId : s'.db.lastId = s.db.lastId
  updatesIgnored : s'.db.updatesIgnored = s.db.updatesIgnored
  poisoned : s'.poisoned = s.poisoned

theorem purge_eq_applyWindow {recorded : Option BadWindowRecord}
    (hle : window.start ≤ window.stop) (hp : s.poisoned = false)
    (hr : s.db.recordedWindow = .ok recorded)
    (hother : ∀ record ∈ recorded, ¬ (record.window.start.toMillis = window.start.toMillis ∧
      record.window.stop.toMillis = window.stop.toMillis)) :
    s.purge window = s.applyWindow window recorded := by
  have ho : window.isOrdered = true := decide_eq_true hle
  have hm : (recorded.any fun record => sameMillis record.window window) = false := by
    cases recorded with
    | none => rfl
    | some record => simpa [← sameMillis_iff] using hother record rfl
  simp [purge, ho, hp, hr, hm]

theorem applyWindow_purged (recorded : Option BadWindowRecord) (hle : window.start ≤ window.stop)
    (hchains : ∀ row ∈ s.db.rows, ∃ octets, row.chain = .blob octets)
    (hshown : ∀ t ∈ [window.start, window.stop],
      Timestamp.minClock ≤ t.instant ∧ t.instant ≤ Timestamp.maxClock) :
    ∃ deleted version, (s.applyWindow window recorded).result = .ok (.purged deleted version) ∧
      version = recorded.elim 1 (·.version + 1) ∧
        s.Purged window deleted version (s.applyWindow window recorded).store := by
  obtain ⟨start, hstart⟩ := Timestamp.exists_ofMillis?_toMillis (hshown window.start (by simp))
  obtain ⟨stop, hstop⟩ := Timestamp.exists_ofMillis?_toMillis (hshown window.stop (by simp))
  have hshorter := List.length_filter_le (outlives window) s.db.rows
  unfold applyWindow
  rw [checkChains_eq_ok.mpr hchains]
  refine ⟨_, _, rfl, rfl, rfl, ?_, Nat.sub_add_cancel hshorter, ⟨start, stop, hstart, hstop, ?_⟩,
    rfl, rfl, rfl⟩
  · intro row
    exact List.mem_filter.trans (and_congr_right fun _ => outlives_iff)
  · have hrecord := WindowRow.toRecord_ofRecord ⟨window, recorded.elim 1 (·.version + 1)⟩ hstart
      hstop (decide_eq_true hle)
    exact congrArg (Except.map some) hrecord

/-- What a purge answers, from any store. Octets that are no chain do no harm to it, but something else
in their place does. -/
structure PurgeSpec (s : Store) (window : BadWindow) : Prop where
  inverted : ¬ window.start ≤ window.stop → s.purge window = s.refuse (.invertedWindow window)
  poisoned : window.start ≤ window.stop → s.poisoned = true → s.purge window = s.refuse .lockPoisoned
  repeated : window.start ≤ window.stop → s.poisoned = false →
    ∀ record, s.db.recordedWindow = .ok (some record) →
      record.window.start.toMillis = window.start.toMillis →
        record.window.stop.toMillis = window.stop.toMillis →
          s.purge window = s.answer .alreadyProcessed
  purged : window.start ≤ window.stop → s.poisoned = false →
    ∀ recorded, s.db.recordedWindow = .ok recorded →
      (∀ record ∈ recorded, ¬ (record.window.start.toMillis = window.start.toMillis ∧
        record.window.stop.toMillis = window.stop.toMillis)) →
      (∀ row ∈ s.db.rows, ∃ octets, row.chain = .blob octets) →
      (∀ t ∈ [window.start, window.stop],
        Timestamp.minClock ≤ t.instant ∧ t.instant ≤ Timestamp.maxClock) →
        ∃ deleted version, (s.purge window).result = .ok (.purged deleted version) ∧
          version = recorded.elim 1 (·.version + 1) ∧
            s.Purged window deleted version (s.purge window).store
  mistyped : window.start ≤ window.stop → s.poisoned = false →
    ∀ recorded, s.db.recordedWindow = .ok recorded →
      (∀ record ∈ recorded, ¬ (record.window.start.toMillis = window.start.toMillis ∧
        record.window.stop.toMillis = window.stop.toMillis)) →
      ∀ row ∈ s.db.rows, (∀ octets, row.chain ≠ .blob octets) →
        ∃ first ∈ s.db.rows, s.purge window = s.refuse (.mistyped first.chain.kind 1 .chain)

theorem purge_spec (s : Store) (window : BadWindow) : s.PurgeSpec window := by
  refine ⟨?_, ?_, ?_, ?_, ?_⟩
  · intro hinverted
    have ho : window.isOrdered = false := decide_eq_false hinverted
    simp [purge, ho]
  · intro hle hp
    have ho : window.isOrdered = true := decide_eq_true hle
    simp [purge, ho, hp]
  · intro hle hp record hrecord hstart hstop
    have ho : window.isOrdered = true := decide_eq_true hle
    have hm := sameMillis_iff.mpr ⟨hstart, hstop⟩
    simp [purge, ho, hp, hrecord, hm]
  · intro hle hp recorded hr hother hchains hshown
    rw [purge_eq_applyWindow hle hp hr hother]
    exact applyWindow_purged recorded hle hchains hshown
  · intro hle hp recorded hr hother row hrow hchain
    obtain ⟨first, hfirst, herror⟩ := checkChains_eq_error hrow hchain
    refine ⟨first, hfirst, ?_⟩
    rw [purge_eq_applyWindow hle hp hr hother, applyWindow, herror]

end Store

/-! ## Windows over a run -/

def StoreRecord.purgedVersion? (r : StoreRecord) : Option UInt64 :=
  match r.result with
  | .ok (.purge (.purged _ version)) => some version
  | _ => none

namespace StoreCall

variable {db : Database}

theorem purgedVersion?_eq_some {call : StoreCall} {version : UInt64}
    (h : (call.record db).purgedVersion? = some version) :
    ∃ window deleted, call.operation = .purge window ∧
      (Store.purge ⟨db, call.poisoned⟩ window).result = .ok (.purged deleted version) := by
  obtain ⟨op, poisoned⟩ := call
  have hresult : ∃ deleted, (op.perform ⟨db, poisoned⟩).result = .ok (.purge (.purged deleted version)) := by
    unfold StoreRecord.purgedVersion? at h
    split at h
    · rename_i deleted found hfound
      cases h
      exact ⟨deleted, hfound⟩
    · cases h
  obtain ⟨deleted, hresult⟩ := hresult
  cases op with
  | purge window =>
      obtain ⟨outcome, houtcome, hpurged⟩ := map_eq_ok.mp hresult
      cases hpurged
      exact ⟨window, deleted, rfl, houtcome⟩
  | _ =>
      obtain ⟨_, -, hpurged⟩ := map_eq_ok.mp hresult
      cases hpurged

theorem window_unchanged {call : StoreCall} (h : ∀ window, call.operation ≠ .purge window) :
    (call.record db).purgedVersion? = none ∧ (call.next db).window = db.window := by
  constructor
  · cases hversion : (call.record db).purgedVersion? with
    | none => rfl
    | some version =>
        obtain ⟨window, deleted, hop, -⟩ := purgedVersion?_eq_some hversion
        exact absurd hop (h window)
  · have hc := call.next_change db
    generalize call.next db = db' at hc ⊢
    generalize call.operation = op at h hc
    cases hc with
    | purge window => exact absurd rfl (h window)
    | _ => rfl

/-- A call that processes a window records it with the next version; no other call touches what is
recorded. -/
theorem window_cases (call : StoreCall) (db : Database) :
    ((call.record db).purgedVersion? = none ∧ (call.next db).window = db.window) ∨
      ∃ window recorded, call.operation = .purge window ∧ db.recordedWindow = .ok recorded ∧
        (recorded.any fun record => Store.sameMillis record.window window) = false ∧
        (call.record db).purgedVersion? = some (db.version + 1) ∧
        (call.next db).window = some (.ofRecord ⟨window, db.version + 1⟩) ∧
        (call.next db).rows = db.rows.filter (Store.outlives window) := by
  obtain ⟨op, poisoned⟩ := call
  cases op with
  | purge window =>
      have hp := Store.purge_purging ⟨db, poisoned⟩ window
      have hrecord : (StoreCall.mk (.purge window) poisoned).record db =
          ⟨⟨.purge window, poisoned⟩, db, (Store.purge ⟨db, poisoned⟩ window).result.map .purge,
            (Store.purge ⟨db, poisoned⟩ window).store.db⟩ := rfl
      have hnext : (StoreCall.mk (.purge window) poisoned).next db =
          (Store.purge ⟨db, poisoned⟩ window).store.db := rfl
      rw [hrecord, hnext]
      generalize Store.purge ⟨db, poisoned⟩ window = outcome at hp ⊢
      cases hp with
      | purged recorded ho hpoisoned hr hm hc =>
          refine .inr ⟨window, recorded, rfl, hr, hm, ?_, ?_, rfl⟩
          · rw [← Database.version_succ hr]
            rfl
          · rw [← Database.version_succ hr]
      | _ => exact .inl ⟨rfl, rfl⟩
  | _ => exact .inl (window_unchanged fun _ => StoreOperation.noConfusion)

end StoreCall

namespace Database

def versions (db : Database) (calls : List StoreCall) : List UInt64 :=
  (db.history calls).filterMap StoreRecord.purgedVersion?

/-- Versions count on from the one that is recorded at first. -/
theorem versions_eq (db : Database) (calls : List StoreCall) :
    ∃ n, db.versions calls = (List.range n).map fun k => db.version + UInt64.ofNat (k + 1) := by
  induction calls generalizing db with
  | nil => exact ⟨0, rfl⟩
  | cons call calls ih =>
      obtain ⟨n, hrest⟩ := ih (call.next db)
      have hcons : db.versions (call :: calls) =
          [call.record db].filterMap StoreRecord.purgedVersion? ++ (call.next db).versions calls :=
        List.filterMap_append (l := [call.record db])
      rw [hcons, hrest]
      rcases call.window_cases db with ⟨hnone, hsame⟩ | ⟨window, recorded, -, -, -, hsome, hnext, -⟩
      · have hversion : (call.next db).version = db.version := by rw [version, hsame, version]
        exact ⟨n, by simp [hnone, hversion]⟩
      · have hversion : (call.next db).version = db.version + 1 := by
          rw [version, hnext, Option.elim_some, WindowRow.version_ofRecord]
        have hnumber (k : Nat) : db.version + 1 + UInt64.ofNat (k + 1) =
            db.version + UInt64.ofNat (k + 1 + 1) := by
          rw [UInt64.add_assoc, UInt64.add_comm 1, UInt64.ofNat_add (k + 1) 1]
          rfl
        refine ⟨n + 1, ?_⟩
        rw [List.range_succ_eq_map, List.map_cons, List.map_map, hversion]
        simp only [hnumber, List.filterMap_cons, hsome, List.filterMap_nil]
        rfl

/-- A recorded window stays recorded until another one is processed. -/
theorem window_after {db : Database} {calls : List StoreCall}
    (hsame : ∀ r ∈ db.history calls, ∀ other, r.call.operation = .purge other →
      r.purgedVersion? ≠ none → ∃ record, db.recordedWindow = .ok (some record) ∧
        Store.sameMillis record.window other = true) :
    (db.after calls).window = db.window := by
  induction calls generalizing db with
  | nil => rfl
  | cons call calls ih =>
      have hstep : (call.next db).window = db.window := by
        rcases call.window_cases db with
          ⟨-, hkept⟩ | ⟨window, recorded, hop, hr, hm, hsome, -, -⟩
        · exact hkept
        · obtain ⟨record, hrecord, hagrees⟩ :=
            hsame (call.record db) List.mem_cons_self window hop (by simp [hsome])
          cases hrecord.symm.trans hr
          simp [hagrees] at hm
      have hrest : (call.next db).recordedWindow = db.recordedWindow := by
        rw [recordedWindow, recordedWindow, hstep]
      rw [after_cons, ih, hstep]
      rw [hrest]
      exact fun r hr => hsame r (List.mem_cons_of_mem _ hr)

end Database

/-- How windows go over a run from an empty store. Those that are processed count up from one, and a
window that is recorded is not processed again before another one was. -/
structure PurgeRunSpec (calls : List StoreCall) : Prop where
  counted : (Database.empty.versions calls).length < 9223372036854775808 →
    (Database.empty.versions calls).map UInt64.toNat =
      List.range' 1 (Database.empty.versions calls).length
  repeated : ∀ earlier later, earlier ++ later = calls →
    ∀ record, (Database.empty.after earlier).recordedWindow = .ok (some record) →
      (∀ r ∈ (Database.empty.after earlier).history later, ∀ other, r.call.operation = .purge other →
        r.purgedVersion? ≠ none → Store.sameMillis record.window other = true) →
      ∀ window : BadWindow, window.start ≤ window.stop →
        Store.sameMillis record.window window = true →
          Store.purge ⟨Database.empty.after calls, false⟩ window =
            Store.answer ⟨Database.empty.after calls, false⟩ .alreadyProcessed

/-- A purge deletes the keys of its window and no others, and no version is skipped or given
twice. -/
theorem purging_spec :
    (∀ s window, Store.PurgeSpec s window) ∧ ∀ calls, PurgeRunSpec calls := by
  refine ⟨Store.purge_spec, ?_⟩
  intro calls
  constructor
  · intro hfew
    obtain ⟨n, hversions⟩ := Database.empty.versions_eq calls
    have hlength : (Database.empty.versions calls).length = n := by simp [hversions]
    rw [hlength] at hfew ⊢
    rw [hversions, List.map_map, List.range'_eq_map_range]
    apply List.map_congr_left
    intro k hk
    have hroom : k + 1 < 18446744073709551616 := by
      have hlt := List.mem_range.mp hk
      omega
    have hzero : Database.empty.version = 0 := rfl
    simp [hzero, hroom, Nat.add_comm]
  · rintro earlier later rfl record hrecord hother window hle hm
    have hkept := Database.window_after fun r hr other hop hne =>
      ⟨record, hrecord, hother r hr other hop hne⟩
    rw [← Database.after_append] at hkept
    have hstill : (Database.empty.after (earlier ++ later)).recordedWindow = .ok (some record) := by
      rw [← hrecord, Database.recordedWindow, Database.recordedWindow, hkept]
    obtain ⟨hstart, hstop⟩ := Store.sameMillis_iff.mp hm
    exact (Store.purge_spec ⟨_, false⟩ window).repeated hle rfl record hstill hstart hstop

/-- Between two windows that are processed the store is emptied, and the first comes a second time. -/
example : Database.empty.versions
    [⟨.purge ⟨.epoch, .epoch⟩, false⟩, ⟨.clear, false⟩, ⟨.purge ⟨.epoch, .epoch⟩, false⟩,
      ⟨.purge ⟨.epoch, ⟨1000000, 0, by decide, Timestamp.epoch.offset_bounds⟩⟩, false⟩] = [1, 2] := by
  decide

end KeyPool
