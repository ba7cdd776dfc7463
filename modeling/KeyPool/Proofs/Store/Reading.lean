import KeyPool.Proofs.Store.Expiry
import KeyPool.Proofs.Store.Handout
import KeyPool.Proofs.Store.Purge

/-! What was written can be read again. A store that was only ever changed by its own operations holds
nothing that it cannot read, except for times beyond the calendar: their offsets let them name instants
for which whole milliseconds have no clock face, and they are taken in unchecked. -/

namespace KeyPool

def AttestationKey.times (key : AttestationKey) : List Timestamp :=
  key.expiration :: key.assignment.toList.map (·.assignedAt)

/-- The times that an operation may leave in the tables. -/
def StoreOperation.times : StoreOperation → List Timestamp
  | insert batch => batch.flatMap AttestationKey.times
  | assign _ now _ _ => [now]
  | purge window => [window.start, window.stop]
  | _ => []

def StoreCall.given (calls : List StoreCall) : List Timestamp := calls.flatMap (·.operation.times)

def KeyRow.millis (row : KeyRow) : List Int := [row.expiration, row.assignedAt].filterMap Cell.toInteger?

def Database.millis (db : Database) : List Int :=
  db.rows.flatMap KeyRow.millis ++ db.window.elim [] fun row => [row.start, row.stop]

/-! ## Rows -/

namespace KeyRow

theorem millis_ofKey (id : Int) (key : AttestationKey) :
    (ofKey id key).millis = key.times.map Timestamp.toMillis := by
  obtain ⟨_, _, _, _, _, _, assignment⟩ := key
  cases assignment <;> rfl

theorem readTime_cases (column : KeyColumn) (t : Timestamp) :
    t.isBeyondCalendar = false ∧ (∃ kept, readTime column t.toMillis = .ok kept) ∨
      t.isBeyondCalendar = true ∧
        readTime column t.toMillis = .error (.unreadableTime column t.toMillis) := by
  unfold Timestamp.isBeyondCalendar readTime
  cases Timestamp.ofMillis? t.toMillis with
  | none => exact .inr ⟨rfl, rfl⟩
  | some kept => exact .inl ⟨rfl, kept, rfl⟩

theorem readAssignment_ofKey_some {key : AttestationKey} {a : Assignment}
    (h : key.assignment = some a) (id : Int) : (ofKey id key).readAssignment =
      (readTime .assignedAt a.assignedAt.toMillis).map fun t => some ⟨a.client, a.irpc, t⟩ := by
  rw [← readAssignment_assign (ofKey id key)]
  simp [ofKey, assign, h, Cell.ofInteger?]

theorem readAssignment_ofKey (id : Int) (key : AttestationKey) :
    (∀ a ∈ key.assignment, a.assignedAt.isBeyondCalendar = false) ∧
        (∃ found, (ofKey id key).readAssignment = .ok found) ∨
      ∃ a ∈ key.assignment, a.assignedAt.isBeyondCalendar = true ∧
        (ofKey id key).readAssignment =
          .error (.unreadableTime .assignedAt a.assignedAt.toMillis) := by
  cases hassignment : key.assignment with
  | none => exact .inl ⟨by simp, none, readAssignment_unbound (ofKey_unbound hassignment)⟩
  | some a =>
      rw [readAssignment_ofKey_some hassignment]
      rcases readTime_cases .assignedAt a.assignedAt with ⟨hshown, kept, hkept⟩ | ⟨hbeyond, herror⟩
      · rw [hkept]
        exact .inl ⟨by simpa using hshown, _, rfl⟩
      · rw [herror]
        exact .inr ⟨a, rfl, hbeyond, rfl⟩

/-- Of a row for a key, only the times can be read otherwise than they were written. -/
theorem toKey_ofKey_eq (id : Int) (key : AttestationKey) :
    (ofKey id key).toKey = (ofKey id key).readAssignment.bind fun assignment =>
      (readTime .expiration key.expiration.toMillis).map fun expiration =>
        { key with id := some id, expiration, assignment } := by
  cases hassignment : (ofKey id key).readAssignment with
  | error e =>
      rw [toKey, hassignment]
      rfl
  | ok assignment =>
      rw [toKey, hassignment]
      simp only [ofKey, read, Cell.toBlob?, Cell.toText?, Cell.toInteger?, bind, Except.bind]
      cases readTime .expiration key.expiration.toMillis <;> rfl

/-- A row for a key reads as a key, unless one of its times is beyond the calendar. -/
theorem toKey_ofKey (id : Int) (key : AttestationKey) :
    (∀ t ∈ key.times, t.isBeyondCalendar = false) ∧ (∃ found, (ofKey id key).toKey = .ok found) ∨
      ∃ t ∈ key.times, t.isBeyondCalendar = true ∧
        ∃ column, (ofKey id key).toKey = .error (.unreadableTime column t.toMillis) := by
  rw [toKey_ofKey_eq]
  rcases readAssignment_ofKey id key with ⟨hnone, found, hfound⟩ | ⟨a, ha, hbeyond, herror⟩
  · rw [hfound]
    rcases readTime_cases .expiration key.expiration with ⟨hshown, kept, hkept⟩ | ⟨hbeyond, herror⟩
    · refine .inl ⟨?_, _, by rw [hkept]; rfl⟩
      simpa [AttestationKey.times, hshown] using hnone
    · exact .inr ⟨_, List.mem_cons_self, hbeyond, .expiration, by rw [herror]; rfl⟩
  · rw [herror]
    refine .inr ⟨a.assignedAt, ?_, hbeyond, .assignedAt, rfl⟩
    exact List.mem_cons_of_mem _ (List.mem_map.mpr ⟨a, Option.mem_toList.mpr ha, rfl⟩)

end KeyRow

/-! ## The recorded window -/

namespace WindowRow

theorem readTime_cases (t : Timestamp) :
    t.isBeyondCalendar = false ∧ (∃ kept, Timestamp.ofMillis? t.toMillis = some kept) ∨
      t.isBeyondCalendar = true ∧ readTime t.toMillis = .error (.timestampOutOfRange t.toMillis) := by
  unfold Timestamp.isBeyondCalendar readTime
  cases Timestamp.ofMillis? t.toMillis with
  | none => exact .inr ⟨rfl, rfl⟩
  | some kept => exact .inl ⟨rfl, kept, rfl⟩

/-- A window that was recorded in order can be read, unless a bound is beyond the calendar. -/
theorem toRecord_cases (record : BadWindowRecord) (hle : record.window.start ≤ record.window.stop) :
    (∀ t ∈ [record.window.start, record.window.stop], t.isBeyondCalendar = false) ∧
        (∃ found, (ofRecord record).toRecord = .ok found) ∨
      ∃ t ∈ [record.window.start, record.window.stop], t.isBeyondCalendar = true ∧
        (ofRecord record).toRecord = .error (.timestampOutOfRange t.toMillis) := by
  rcases readTime_cases record.window.start with ⟨hfirst, start, hstart⟩ | ⟨hbeyond, herror⟩
  · rcases readTime_cases record.window.stop with ⟨hlast, stop, hstop⟩ | ⟨hbeyond, herror⟩
    · refine .inl ⟨?_, _, toRecord_ofRecord record hstart hstop (decide_eq_true hle)⟩
      simp [hfirst, hlast]
    · refine .inr ⟨record.window.stop, by simp, hbeyond, ?_⟩
      have hread : readTime record.window.start.toMillis = .ok start := by rw [readTime, hstart]
      simp only [toRecord, ofRecord, hread, herror, bind, Except.bind]
  · refine .inr ⟨record.window.start, by simp, hbeyond, ?_⟩
    simp only [toRecord, ofRecord, herror, bind, Except.bind]

end WindowRow

/-! ## What a run leaves -/

namespace Database

variable {db db' : Database} {times : List Timestamp}

/-- The rows stand for keys and the window was recorded in order, with no times but some given ones. -/
structure WrittenFrom (times : List Timestamp) (db : Database) : Prop where
  rows : ∀ row ∈ db.rows, ∃ id key, row = .ofKey id key ∧ key.times ⊆ times
  window : ∀ row ∈ db.window, ∃ record, row = .ofRecord record ∧
    record.window.start ≤ record.window.stop ∧ [record.window.start, record.window.stop] ⊆ times

theorem writtenFrom_empty : empty.WrittenFrom times := by
  constructor
  · intro row hrow
    cases hrow
  · intro row hrow
    cases hrow

/-- Every row that an operation leaves was there, stands for a key that it was given, or is bound. -/
theorem Change.rows_written {op : StoreOperation} (hc : db.Change op db') (hop : op.times ⊆ times)
    (h : db.WrittenFrom times) :
    ∀ row ∈ db'.rows, ∃ id key, row = .ofKey id key ∧ key.times ⊆ times := by
  intro row hrow
  cases hc with
  | none => exact h.rows row hrow
  | insert keys =>
      rcases List.mem_append.mp hrow with hold | hnew
      · exact h.rows row hold
      · obtain ⟨key, hkey, id, rfl⟩ := KeyRow.exists_key_of_mem_numbered hnew
        exact ⟨id, key, rfl, fun t ht => hop (List.mem_flatMap.mpr ⟨key, hkey, ht⟩)⟩
  | assign component now client irpc =>
      obtain ⟨old, hold, rfl⟩ := List.mem_map.mp hrow
      obtain ⟨id, key, rfl, hkey⟩ := h.rows old hold
      split
      · refine ⟨id, { key with assignment := some ⟨client, irpc, now⟩ }, rfl, ?_⟩
        exact List.cons_subset.mpr ⟨hkey List.mem_cons_self, hop⟩
      · exact ⟨id, key, rfl, hkey⟩
  | clear => cases hrow
  | expire cutoff => exact h.rows row (List.mem_filter.mp hrow).1
  | purge window => exact h.rows row (List.mem_filter.mp hrow).1

end Database

namespace StoreCall

variable {db : Database} {times : List Timestamp}

/-- The recorded window is the one before a call, or the call's own, which is in order. -/
theorem next_window (call : StoreCall) (db : Database) :
    (call.next db).window = db.window ∨
      ∃ window version, call.operation = .purge window ∧ window.start ≤ window.stop ∧
        (call.next db).window = some (.ofRecord ⟨window, version⟩) := by
  obtain ⟨op, poisoned⟩ := call
  cases op with
  | purge window =>
      have hp := Store.purge_purging ⟨db, poisoned⟩ window
      have hnext : (StoreCall.mk (.purge window) poisoned).next db =
          (Store.purge ⟨db, poisoned⟩ window).store.db := rfl
      rw [hnext]
      generalize Store.purge ⟨db, poisoned⟩ window = outcome at hp ⊢
      cases hp with
      | purged recorded ho => exact .inr ⟨window, _, rfl, of_decide_eq_true ho, rfl⟩
      | _ => exact .inl rfl
  | _ => exact .inl (window_unchanged fun _ => StoreOperation.noConfusion).2

theorem next_written (call : StoreCall) (hop : call.operation.times ⊆ times)
    (h : db.WrittenFrom times) : (call.next db).WrittenFrom times := by
  refine ⟨(call.next_change db).rows_written hop h, ?_⟩
  intro row hrow
  rcases call.next_window db with hsame | ⟨window, version, hpurge, hle, hrecorded⟩
  · rw [hsame] at hrow
    exact h.window row hrow
  · rw [hrecorded] at hrow
    cases hrow
    rw [hpurge] at hop
    exact ⟨⟨window, version⟩, rfl, hle, hop⟩

theorem written_after (calls : List StoreCall) :
    (Database.empty.after calls).WrittenFrom (given calls) := by
  refine Database.after_invariant ?_ Database.writtenFrom_empty
  intro call hcall db hdb
  exact call.next_written (fun t ht => List.mem_flatMap.mpr ⟨call, hcall, ht⟩) hdb

end StoreCall

/-! ## Reading -/

/-- That everything in a store can be read. -/
structure Store.ReadsAll (s : Store) : Prop where
  keys : ∃ keys, s.keys.result = .ok keys
  count : ∀ component, ∃ n, (s.count component).result = .ok n
  countFree : ∀ component now, ∃ n, (s.countFree component now).result = .ok n
  lookup : ∀ component client irpc, ∃ found, (s.lookup component client irpc).result = .ok found
  lastWindow : ∃ record, s.lastWindow.result = .ok record

/-- Whether an error says that something stored cannot be read, or that a window is out of order. -/
def StoreError.isOfContent : StoreError → Bool
  | mistyped _ _ _ | wideInteger _ _ | partialAssignment | unreadableTime _ _ | corruptRecord _
  | timestampOutOfRange _ | invertedWindow _ => true
  | _ => false

/-- What an error says that comes from one of some times, which is beyond the calendar. -/
def StoreError.BlamesTime (times : List Timestamp) (e : StoreError) : Prop :=
  ∃ t ∈ times, t.isBeyondCalendar = true ∧
    ((∃ column, e = .unreadableTime column t.toMillis) ∨ e = .timestampOutOfRange t.toMillis)

theorem StoreError.BlamesTime.mono {times times' : List Timestamp} {e : StoreError}
    (h : e.BlamesTime times) (hsub : times ⊆ times') : e.BlamesTime times' := by
  obtain ⟨t, ht, hblame⟩ := h
  exact ⟨t, hsub ht, hblame⟩

/-- What can be read after a run from an empty store. The tables hold no times but some that were
given, in whole milliseconds. What keeps anything from being read is a time for which there is no clock
face, and every such time does. No operation finds anything else wrong with what is stored. A window
that cannot be read is there for good, and no other is processed. -/
structure ReadingSpec (calls : List StoreCall) : Prop where
  given : ∀ millis ∈ (Database.empty.after calls).millis,
    ∃ t ∈ StoreCall.given calls, millis = t.toMillis
  reads_iff : Store.ReadsAll ⟨Database.empty.after calls, false⟩ ↔
    ∀ millis ∈ (Database.empty.after calls).millis, Timestamp.ofMillis? millis ≠ none
  faults : ∀ call : StoreCall, ∀ e, (call.perform (Database.empty.after calls)).result = .error e →
    e.isOfContent = true → (∃ window, call.operation = .purge window ∧ e = .invertedWindow window) ∨
      e.BlamesTime (StoreCall.given calls ++ call.operation.times)
  sound : (∀ t ∈ StoreCall.given calls, Timestamp.minClock - 1000000 < t.instant ∧
    t.instant ≤ Timestamp.maxClock) → Store.ReadsAll ⟨Database.empty.after calls, false⟩
  lasting : ∀ e, (Database.empty.after calls).recordedWindow = .error e →
    ∀ later, (Database.empty.after (calls ++ later)).recordedWindow = .error e

namespace Database

variable {db : Database} {times : List Timestamp}

theorem WrittenFrom.given (h : db.WrittenFrom times) {millis : Int} (hm : millis ∈ db.millis) :
    ∃ t ∈ times, millis = t.toMillis := by
  rcases List.mem_append.mp hm with hrows | hwindow
  · obtain ⟨row, hrow, hcell⟩ := List.mem_flatMap.mp hrows
    obtain ⟨id, key, rfl, hkey⟩ := h.rows row hrow
    rw [KeyRow.millis_ofKey] at hcell
    obtain ⟨t, ht, rfl⟩ := List.mem_map.mp hcell
    exact ⟨t, hkey ht, rfl⟩
  · cases hrecorded : db.window with
    | none =>
        rw [hrecorded] at hwindow
        cases hwindow
    | some row =>
        rw [hrecorded] at hwindow
        obtain ⟨record, rfl, -, hbounds⟩ := h.window row hrecorded
        rcases List.mem_pair.mp hwindow with rfl | rfl
        · exact ⟨_, hbounds List.mem_cons_self, rfl⟩
        · exact ⟨_, hbounds (List.mem_cons_of_mem _ List.mem_cons_self), rfl⟩

/-- Times without a clock face that are not kept do not matter. -/
theorem WrittenFrom.shown (h : db.WrittenFrom times)
    (hface : ∀ millis ∈ db.millis, Timestamp.ofMillis? millis ≠ none) :
    db.WrittenFrom (times.filter (!·.isBeyondCalendar)) := by
  have hkept {t : Timestamp} (ht : t ∈ times) (hm : t.toMillis ∈ db.millis) :
      t ∈ times.filter (!·.isBeyondCalendar) := by
    refine List.mem_filter.mpr ⟨ht, ?_⟩
    simpa [Timestamp.isBeyondCalendar, Option.isSome_iff_ne_none] using hface _ hm
  constructor
  · intro row hrow
    obtain ⟨id, key, rfl, hkey⟩ := h.rows row hrow
    refine ⟨id, key, rfl, ?_⟩
    intro t ht
    refine hkept (hkey ht) (List.mem_append_left _ (List.mem_flatMap.mpr ⟨_, hrow, ?_⟩))
    rw [KeyRow.millis_ofKey]
    exact List.mem_map_of_mem ht
  · intro row hrow
    obtain ⟨record, rfl, hle, hbounds⟩ := h.window row hrow
    refine ⟨record, rfl, hle, ?_⟩
    intro t ht
    refine hkept (hbounds ht) (List.mem_append_right _ ?_)
    rw [hrow]
    exact List.mem_map_of_mem (f := Timestamp.toMillis) ht

theorem WrittenFrom.toKey_error (h : db.WrittenFrom times) {row : KeyRow} (hrow : row ∈ db.rows)
    {e : StoreError} (he : row.toKey = .error e) : e.BlamesTime times := by
  obtain ⟨id, key, rfl, hkey⟩ := h.rows row hrow
  rcases KeyRow.toKey_ofKey id key with ⟨-, found, hfound⟩ | ⟨t, ht, hbeyond, column, herror⟩
  · rw [hfound] at he
    cases he
  · rw [herror] at he
    cases he
    exact ⟨t, hkey ht, hbeyond, .inl ⟨column, rfl⟩⟩

theorem WrittenFrom.exists_toKey (h : db.WrittenFrom times) {row : KeyRow}
    (hrow : row ∈ db.rows) (hface : ∀ millis ∈ row.millis, Timestamp.ofMillis? millis ≠ none) :
    ∃ key, row.toKey = .ok key := by
  obtain ⟨id, key, rfl, -⟩ := h.rows row hrow
  rcases KeyRow.toKey_ofKey id key with ⟨-, hkey⟩ | ⟨t, ht, hbeyond, -⟩
  · exact hkey
  · have hmillis := hface t.toMillis (by simpa [KeyRow.millis_ofKey] using ⟨t, ht, rfl⟩)
    simp [Timestamp.isBeyondCalendar, hmillis] at hbeyond

theorem WrittenFrom.recordedWindow_error (h : db.WrittenFrom times) {e : StoreError}
    (he : db.recordedWindow = .error e) : e.BlamesTime times := by
  unfold recordedWindow at he
  split at he
  · cases he
  · rename_i row hrow
    obtain ⟨record, rfl, hle, hbounds⟩ := h.window row hrow
    rcases WindowRow.toRecord_cases record hle with ⟨-, found, hfound⟩ | ⟨t, ht, hbeyond, herror⟩
    · rw [hfound] at he
      cases he
    · rw [herror] at he
      cases he
      exact ⟨t, hbounds ht, hbeyond, .inr rfl⟩

end Database

/-! ## Faults -/

namespace Database

theorem insert_error {db : Database} {key : AttestationKey} {e : StoreError}
    (h : db.insert key = .error e) :
    e = .duplicateKeyBlob ∨ e = .full ∧ 9223372036854775807 < db.lastUsed + 1 := by
  unfold insert at h
  split at h
  · rename_i hid
    cases h
    refine .inr ⟨rfl, ?_⟩
    by_contra hroom
    cases hid.symm.trans (nextId?_eq_some.mpr ⟨by omega, rfl⟩)
  · split at h
    · cases h
      exact .inl rfl
    · cases h

/-- A batch does not go in over a blob that is there already, or because its ids run out. -/
theorem insertAll_error {db : Database} {keys : List AttestationKey} {e : StoreError}
    (h : db.insertAll keys = .error e) :
    e = .duplicateKeyBlob ∨ e = .full ∧ 9223372036854775807 < db.lastUsed + keys.length := by
  induction keys generalizing db with
  | nil => cases h
  | cons key keys ih =>
      rw [List.length_cons]
      cases hkey : db.insert key with
      | error e' =>
          rw [insertAll, List.foldlM_cons, hkey] at h
          cases h
          exact (insert_error hkey).imp_right fun hfull => ⟨hfull.1, by omega⟩
      | ok next =>
          rw [insertAll, List.foldlM_cons, hkey] at h
          obtain ⟨-, rfl⟩ := insert_eq_ok.mp hkey
          have hrest := ih h
          rw [lastUsed_append, List.length_singleton] at hrest
          exact hrest.imp_right fun hfull => ⟨hfull.1, by omega⟩

end Database

namespace Store

variable {s : Store} {times : List Timestamp} {e : StoreError}

theorem query_error {α : Type} {read : Database → Except StoreError α}
    (h : (s.query read).result = .error e) (hs : ¬ (s.poisoned = true ∧ e = .lockPoisoned)) :
    read s.db = .error e := by
  unfold query at h
  split at h
  · rename_i hp
    cases h
    exact absurd ⟨hp, rfl⟩ hs
  · exact h

/-- A batch is refused for what is in it, never for what is stored. -/
theorem insert_error {batch : List AttestationKey} (h : (s.insert batch).result = .error e) :
    e.isOfContent = false := by
  have hi := s.insert_inserting batch
  generalize s.insert batch = outcome at h hi
  cases hi with
  | nothing hnil => cases h
  | invalid e' hv =>
      cases h
      obtain ⟨key, -, hkey⟩ := List.exists_of_findSome?_eq_some hv
      split at hkey <;> cases hkey
      rfl
  | poisoned hv hp =>
      cases h
      rfl
  | rejected e' hv hp hi =>
      cases h
      rcases Database.insertAll_error hi with rfl | ⟨rfl, -⟩ <;> rfl
  | inserted hne hv hp hi => cases h

theorem assign_error (hw : s.db.WrittenFrom times) {component : String} {now : Timestamp}
    {client irpc : Int32} (h : (s.assign component now client irpc).result = .error e)
    (hc : e.isOfContent = true) : e.BlamesTime (times ++ [now]) := by
  have hstored {row : KeyRow} (hrow : row ∈ s.db.rows) (he : row.toKey = .error e) :
      e.BlamesTime (times ++ [now]) :=
    (hw.toKey_error hrow he).mono (List.subset_append_left _ _)
  have ha := s.assign_assigning component now client irpc
  generalize s.assign component now client irpc = outcome at h ha
  cases ha with
  | poisoned hp =>
      cases h
      cases hc
  | held row hh => exact hstored (Database.firstLive?_eq_some hh).1 (map_eq_error.mp h)
  | exhausted hh hc => cases h
  | unreadable row e' hh hf he =>
      cases h
      exact hstored (Database.firstLive?_eq_some hf).1 he
  | lost row key hh hf hk hi =>
      cases h
      cases hc
  | late row key hp hh hf hk hi ht =>
      cases h
      exact ⟨now, by simp, by rw [Timestamp.isBeyondCalendar, ht]; rfl, .inr rfl⟩
  | bound row key since hh hf hk ht => cases h

theorem lookup_error (hw : s.db.WrittenFrom times) {component : String} {client irpc : Int32}
    (h : (s.lookup component client irpc).result = .error e)
    (hs : ¬ (s.poisoned = true ∧ e = .lockPoisoned)) : e.BlamesTime times := by
  have hread := query_error h hs
  split at hread
  · cases hread
  · rename_i row hlatest
    have hrow := (List.mem_filter.mp (KeyRow.mem_of_latest?_eq_some hlatest)).1
    exact hw.toKey_error hrow (map_eq_error.mp hread)

theorem keys_error (hw : s.db.WrittenFrom times) (h : s.keys.result = .error e)
    (hs : ¬ (s.poisoned = true ∧ e = .lockPoisoned)) : e.BlamesTime times := by
  obtain ⟨row, hrow, he⟩ := exists_of_mapM_eq_error (query_error h hs)
  exact hw.toKey_error hrow he

theorem lastWindow_error (hw : s.db.WrittenFrom times) (h : s.lastWindow.result = .error e)
    (hs : ¬ (s.poisoned = true ∧ e = .lockPoisoned)) : e.BlamesTime times :=
  hw.recordedWindow_error (query_error h hs)

theorem purge_error (hw : s.db.WrittenFrom times) {window : BadWindow}
    (h : (s.purge window).result = .error e) (hc : e.isOfContent = true) :
    e = .invertedWindow window ∨ e.BlamesTime times := by
  have hp := s.purge_purging window
  generalize s.purge window = outcome at h hp
  cases hp with
  | inverted ho =>
      cases h
      exact .inl rfl
  | poisoned ho hp =>
      cases h
      cases hc
  | unreadable e' hr =>
      cases h
      exact .inr (hw.recordedWindow_error hr)
  | repeated record hr hm => cases h
  | mistyped e' hchains =>
      -- the chain of a stored key is never anything but octets
      have hok : s.db.checkChains = .ok () := by
        refine checkChains_eq_ok.mpr ?_
        intro row hrow
        obtain ⟨id, key, rfl, -⟩ := hw.rows row hrow
        exact ⟨key.chain, rfl⟩
      cases hok.symm.trans hchains
  | purged recorded ho hp hr hm hchains => cases h

theorem clear_error (h : s.clear.result = .error e) : s.poisoned = true ∧ e = .lockPoisoned := by
  unfold clear at h
  split at h
  · rename_i hp
    exact ⟨hp, (Except.error.inj h).symm⟩
  · cases h

theorem expire_error {cutoff : Timestamp} (h : (s.expire cutoff).result = .error e) :
    s.poisoned = true ∧ e = .lockPoisoned := by
  unfold expire at h
  split at h
  · rename_i hp
    exact ⟨hp, (Except.error.inj h).symm⟩
  · cases h

end Store

namespace StoreOperation

theorem perform_error {s : Store} {times : List Timestamp} (hw : s.db.WrittenFrom times)
    {op : StoreOperation} {e : StoreError} (h : (op.perform s).result = .error e)
    (hc : e.isOfContent = true) :
    (∃ window, op = .purge window ∧ e = .invertedWindow window) ∨ e.BlamesTime (times ++ op.times) := by
  have hkept {op : StoreOperation} (he : e.BlamesTime times) : e.BlamesTime (times ++ op.times) :=
    he.mono (List.subset_append_left _ _)
  have herror {α : Type} {o : Store.Outcome α} {f : α → StoreAnswer}
      (h : (o.map f).result = .error e) : o.result = .error e :=
    Store.Outcome.result_map_eq_error.mp h
  have hs : ¬ (s.poisoned = true ∧ e = .lockPoisoned) := by
    rintro ⟨-, rfl⟩
    cases hc
  cases op with
  | insert batch => exact absurd hc (by simp [Store.insert_error (herror h)])
  | assign component now client irpc => exact .inr (Store.assign_error hw (herror h) hc)
  | lookup component client irpc => exact .inr (hkept (Store.lookup_error hw (herror h) hs))
  | count component => cases Store.query_error (herror h) hs
  | countFree component now => cases Store.query_error (herror h) hs
  | keys => exact .inr (hkept (Store.keys_error hw (herror h) hs))
  | clear => exact absurd (Store.clear_error (herror h)) hs
  | expire cutoff => exact absurd (Store.expire_error (herror h)) hs
  | lastWindow => exact .inr (hkept (Store.lastWindow_error hw (herror h) hs))
  | purge window =>
      rcases Store.purge_error hw (herror h) hc with rfl | he
      · exact .inl ⟨window, rfl, rfl⟩
      · exact .inr (hkept he)

end StoreOperation

/-! ## Runs -/

namespace Store

variable {db : Database} {times : List Timestamp}

theorem readsAll_of_shown (hw : db.WrittenFrom times)
    (hshown : ∀ t ∈ times, t.isBeyondCalendar = false) : ReadsAll ⟨db, false⟩ := by
  have hok {α : Type} {x : Except StoreError α} (h : ∀ e, x = .error e → e.BlamesTime times) :
      ∃ a, x = .ok a := by
    cases x with
    | ok a => exact ⟨a, rfl⟩
    | error e =>
        obtain ⟨t, ht, hbeyond, -⟩ := h e rfl
        rw [hshown t ht] at hbeyond
        cases hbeyond
  refine ⟨?_, fun component => ⟨_, rfl⟩, fun component now => ⟨_, rfl⟩, ?_, ?_⟩
  · exact hok fun e he => keys_error hw he (by simp)
  · intro component client irpc
    exact hok fun e he => lookup_error hw he (by simp)
  · exact hok fun e he => lastWindow_error hw he (by simp)

theorem millis_of_readsAll (hw : db.WrittenFrom times) (h : ReadsAll ⟨db, false⟩) {millis : Int}
    (hm : millis ∈ db.millis) : Timestamp.ofMillis? millis ≠ none := by
  have hface {t : Timestamp} (ht : t.isBeyondCalendar = false) :
      Timestamp.ofMillis? t.toMillis ≠ none := by
    intro hnone
    rw [Timestamp.isBeyondCalendar, hnone] at ht
    cases ht
  rcases List.mem_append.mp hm with hrows | hwindow
  · obtain ⟨row, hrow, hcell⟩ := List.mem_flatMap.mp hrows
    obtain ⟨keys, hkeys⟩ := h.keys
    obtain ⟨found, -, hfound⟩ := exists_of_mem_forall₂ (keys_eq_ok.mp hkeys).2.flip hrow
    obtain ⟨id, key, rfl, -⟩ := hw.rows row hrow
    rw [KeyRow.millis_ofKey] at hcell
    obtain ⟨t, ht, rfl⟩ := List.mem_map.mp hcell
    rcases KeyRow.toKey_ofKey id key with ⟨hshown, -⟩ | ⟨u, -, -, column, herror⟩
    · exact hface (hshown t ht)
    · cases hfound.symm.trans herror
  · obtain ⟨recorded, hrecorded⟩ := h.lastWindow
    rcases Database.recordedWindow_eq_ok hrecorded with
      ⟨hnone, -⟩ | ⟨row, found, hrow, hfound, -⟩
    · rw [hnone] at hwindow
      cases hwindow
    · obtain ⟨record, rfl, hle, -⟩ := hw.window row hrow
      rw [hrow] at hwindow
      rcases WindowRow.toRecord_cases record hle with ⟨hshown, -⟩ | ⟨u, -, -, herror⟩
      · rcases List.mem_pair.mp hwindow with rfl | rfl
        · exact hface (hshown _ List.mem_cons_self)
        · exact hface (hshown _ (List.mem_cons_of_mem _ List.mem_cons_self))
      · cases hfound.symm.trans herror

end Store

theorem StoreCall.next_recordedWindow {db : Database} {e : StoreError} (call : StoreCall)
    (h : db.recordedWindow = .error e) : (call.next db).recordedWindow = .error e := by
  rcases call.window_cases db with ⟨-, hsame⟩ | ⟨window, recorded, -, hrecorded, -⟩
  · rw [Database.recordedWindow, hsame]
    exact h
  · cases h.symm.trans hrecorded

/-- What a store has accepted it can read, but for times beyond the calendar. -/
theorem reading_spec (calls : List StoreCall) : ReadingSpec calls := by
  have hw := StoreCall.written_after calls
  refine ⟨fun _ hm => hw.given hm, ⟨fun h _ hm => Store.millis_of_readsAll hw h hm, ?_⟩, ?_, ?_, ?_⟩
  · intro hface
    refine Store.readsAll_of_shown (hw.shown hface) ?_
    intro t ht
    simpa using (List.mem_filter.mp ht).2
  · intro call e he hc
    exact StoreOperation.perform_error (s := ⟨Database.empty.after calls, call.poisoned⟩) hw he hc
  · intro hshown
    refine Store.readsAll_of_shown hw ?_
    intro t ht
    rw [← Bool.not_eq_true, Timestamp.isBeyondCalendar_iff]
    have hbounds := hshown t ht
    omega
  · intro e he later
    rw [Database.after_append]
    exact Database.after_invariant (P := fun db => db.recordedWindow = .error e)
      (fun call _ db hdb => call.next_recordedWindow hdb) he

/-- The last second of the year 9999 an hour behind UTC, where the year 10000 has begun. -/
def afterCalendar : Timestamp := ⟨253402300799000000000, -3600, by decide, by decide⟩

/-- A key that ends with it comes into an empty store, and then a window is processed that begins and
ends with it. -/
def beyondCalendar : List StoreCall :=
  [⟨.insert [.ending afterCalendar], false⟩, ⟨.purge ⟨afterCalendar, afterCalendar⟩, false⟩]

/-- Both are accepted. From then on neither can be read, and the window never again. -/
theorem reading_spec_beyond :
    (Database.empty.history beyondCalendar).map (·.result) =
        [.ok .done, .ok (.purge (.purged 0 1))] ∧
      ¬ Store.ReadsAll ⟨Database.empty.after beyondCalendar, false⟩ ∧
      ∀ later, (Database.empty.after (beyondCalendar ++ later)).recordedWindow =
        .error (.timestampOutOfRange 253402304399000) := by
  have hinsert : (StoreCall.mk (.insert [.ending afterCalendar]) false).perform .empty =
      ⟨.ok .done, ⟨Database.empty.append [.ending afterCalendar], false⟩, [.keysInserted 1]⟩ :=
    StoreCall.perform_insert_selfSigned (List.cons_ne_nil _ _) (by simp [AttestationKey.ending]) rfl
  have hpurged : (StoreCall.mk (.purge ⟨afterCalendar, afterCalendar⟩) false).next
      (Database.empty.append [.ending afterCalendar]) =
        { Database.empty.append [.ending afterCalendar] with
          window := some ⟨253402304399000, 253402304399000, 1⟩ } := by
    decide +kernel
  have hanswer : (Store.purge ⟨Database.empty.append [.ending afterCalendar], false⟩
      ⟨afterCalendar, afterCalendar⟩).result = .ok (.purged 0 1) := by
    decide +kernel
  have hafter : Database.empty.after beyondCalendar =
      { Database.empty.append [.ending afterCalendar] with
        window := some ⟨253402304399000, 253402304399000, 1⟩ } := by
    rw [beyondCalendar, Database.after_cons, StoreCall.next, hinsert, Database.after_cons, hpurged]
    rfl
  have hspec := reading_spec beyondCalendar
  refine ⟨?_, ?_, hspec.lasting _ (by rw [hafter]; rfl)⟩
  · have hmap (db : Database) (window : BadWindow) :
        ((StoreCall.mk (.purge window) false).perform db).result =
          (Store.purge ⟨db, false⟩ window).result.map StoreAnswer.purge := rfl
    have hsecond : ((StoreCall.mk (.purge ⟨afterCalendar, afterCalendar⟩) false).perform
        (Database.empty.append [.ending afterCalendar])).result = .ok (.purge (.purged 0 1)) := by
      rw [hmap, hanswer, Except.map]
    simp [beyondCalendar, Database.history, StoreCall.record, StoreCall.next, hinsert, hsecond]
  · intro hreads
    refine hspec.reads_iff.mp hreads 253402304399000 ?_ rfl
    rw [hafter]
    decide

end KeyPool
