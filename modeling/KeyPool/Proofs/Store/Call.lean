import KeyPool.Proofs.Store.Rows

/-! The operations of the key store as data, and what each of them can do to the tables. Operations
go through handles; several handles may share the tables, and any of them may be poisoned. -/

namespace KeyPool

/-- What can be asked of a key store. -/
inductive StoreOperation where
  | insert (keys : List AttestationKey)
  | assign (component : String) (now : Timestamp) (client irpc : Int32)
  | lookup (component : String) (client irpc : Int32)
  | count (component : String)
  | countFree (component : String) (now : Timestamp)
  | keys
  | clear
  | expire (cutoff : Timestamp)
  | lastWindow
  | purge (window : BadWindow)

inductive StoreAnswer where
  | done
  | key (found : Option AttestationKey)
  | number (n : Nat)
  | keys (all : List AttestationKey)
  | window (record : Option BadWindowRecord)
  | purge (outcome : PurgeOutcome)
  deriving DecidableEq

namespace Store

def Outcome.map {α β : Type} (f : α → β) (o : Outcome α) : Outcome β :=
  ⟨o.result.map f, o.store, o.events⟩

@[simp] theorem Outcome.result_map_eq_error {α β : Type} {f : α → β} {o : Outcome α} {e : StoreError} :
    (o.map f).result = .error e ↔ o.result = .error e := map_eq_error

end Store

def StoreOperation.perform (s : Store) : StoreOperation → Store.Outcome StoreAnswer
  | insert batch => (s.insert batch).map fun _ => .done
  | assign component now client irpc => (s.assign component now client irpc).map .key
  | lookup component client irpc => (s.lookup component client irpc).map .key
  | count component => (s.count component).map .number
  | countFree component now => (s.countFree component now).map .number
  | keys => s.keys.map .keys
  | clear => s.clear.map .number
  | expire cutoff => (s.expire cutoff).map .number
  | lastWindow => s.lastWindow.map .window
  | purge window => (s.purge window).map .purge

/-- An operation, and whether the handle that it goes through is poisoned. -/
structure StoreCall where
  operation : StoreOperation
  poisoned : Bool

namespace StoreCall

def perform (call : StoreCall) (db : Database) : Store.Outcome StoreAnswer :=
  call.operation.perform ⟨db, call.poisoned⟩

def next (call : StoreCall) (db : Database) : Database := (call.perform db).store.db

end StoreCall

/-! ## Assignment -/

namespace Database

/-- The first row that passes a test and is not expired. -/
def firstLive? (db : Database) (test : KeyRow → Bool) (millis : Int) : Option KeyRow :=
  db.rows.find? fun row => test row && row.expiration.isAtLeast millis

theorem firstLive?_eq_some {db : Database} {test : KeyRow → Bool} {millis : Int} {row : KeyRow}
    (h : db.firstLive? test millis = some row) :
    row ∈ db.rows ∧ test row = true ∧ row.expiration.isAtLeast millis = true := by
  have hp := List.find?_some h
  rw [Bool.and_eq_true] at hp
  exact ⟨List.mem_of_find?_eq_some h, hp⟩

theorem not_live_of_firstLive?_eq_none {db : Database} {test : KeyRow → Bool} {millis : Int}
    (h : db.firstLive? test millis = none) {row : KeyRow} (hrow : row ∈ db.rows)
    (ht : test row = true) : row.expiration.isAtLeast millis = false := by
  have := List.find?_eq_none.mp h row hrow
  simpa [ht] using this

end Database

namespace Store

def bind (s : Store) (id : Int) (client irpc : Int32) (millis : Int) : Store :=
  { s with db := s.db.update id (KeyRow.assign client irpc millis) }

/-- The ways in which an assignment can go. In all but the last two the store stays as it is; in
`late` the row is bound although the caller is refused. -/
inductive Assigning (s : Store) (component : String) (now : Timestamp) (client irpc : Int32) :
    Outcome (Option AttestationKey) → Prop where
  | poisoned (hp : s.poisoned = true) :
      Assigning s component now client irpc (s.refuse .lockPoisoned)
  | held (row : KeyRow)
      (hh : s.db.firstLive? (·.isBoundTo component client irpc) now.toMillis = some row) :
      Assigning s component now client irpc ⟨row.toKey.map some, s, []⟩
  | exhausted (hh : s.db.firstLive? (·.isBoundTo component client irpc) now.toMillis = none)
      (hc : s.db.firstLive? (·.isFree component) now.toMillis = none) :
      Assigning s component now client irpc (s.answer none)
  | unreadable (row : KeyRow) (e : StoreError)
      (hh : s.db.firstLive? (·.isBoundTo component client irpc) now.toMillis = none)
      (hc : s.db.firstLive? (·.isFree component) now.toMillis = some row)
      (he : row.toKey = .error e) :
      Assigning s component now client irpc (s.refuse e)
  | lost (row : KeyRow) (key : AttestationKey)
      (hh : s.db.firstLive? (·.isBoundTo component client irpc) now.toMillis = none)
      (hc : s.db.firstLive? (·.isFree component) now.toMillis = some row) (hk : row.toKey = .ok key)
      (hi : s.db.updatesIgnored = true) :
      Assigning s component now client irpc (s.refuse (.assignmentConflict row.id))
  | late (row : KeyRow) (key : AttestationKey) (hp : s.poisoned = false)
      (hh : s.db.firstLive? (·.isBoundTo component client irpc) now.toMillis = none)
      (hc : s.db.firstLive? (·.isFree component) now.toMillis = some row) (hk : row.toKey = .ok key)
      (hi : s.db.updatesIgnored = false) (ht : Timestamp.ofMillis? now.toMillis = none) :
      Assigning s component now client irpc
        ((s.bind row.id client irpc now.toMillis).refuse (.timestampOutOfRange now.toMillis))
  | bound (row : KeyRow) (key : AttestationKey) (since : Timestamp)
      (hh : s.db.firstLive? (·.isBoundTo component client irpc) now.toMillis = none)
      (hc : s.db.firstLive? (·.isFree component) now.toMillis = some row) (hk : row.toKey = .ok key)
      (ht : Timestamp.ofMillis? now.toMillis = some since) :
      Assigning s component now client irpc
        ⟨.ok (some { key with assignment := some ⟨client, irpc, since⟩ }),
          s.bind row.id client irpc now.toMillis, [.keyAssigned component client irpc row.id]⟩

theorem assign_assigning (s : Store) (component : String) (now : Timestamp)
    (client irpc : Int32) :
    s.Assigning component now client irpc (s.assign component now client irpc) := by
  -- both searches of an assignment are for the first row that is live
  have hsearch (test : KeyRow → Bool) :
      s.db.rows.find? (fun row => test row && row.expiration.isAtLeast now.toMillis) =
        s.db.firstLive? test now.toMillis := rfl
  unfold assign
  by_cases hp : s.poisoned = true
  · simp only [hp, ite_true]
    exact .poisoned hp
  · simp only [hp, Bool.false_eq_true, ite_false, hsearch]
    cases hh : s.db.firstLive? (·.isBoundTo component client irpc) now.toMillis with
    | some row => exact .held row hh
    | none =>
        cases hc : s.db.firstLive? (·.isFree component) now.toMillis with
        | none => exact .exhausted hh hc
        | some row =>
            simp only [bindRow]
            cases hk : row.toKey with
            | error e => exact .unreadable row e hh hc hk
            | ok key =>
                by_cases hi : s.db.updatesIgnored = true
                · simp only [hi, ite_true]
                  exact .lost row key hh hc hk hi
                · simp only [hi, Bool.false_eq_true, ite_false]
                  cases ht : Timestamp.ofMillis? now.toMillis with
                  | none =>
                      exact .late row key (by simpa using hp) hh hc hk (by simpa using hi) ht
                  | some since => exact .bound row key since hh hc hk ht

/-! ## Purging -/

/-- The ways in which a bad window is processed. Only in the last does it change the store. -/
inductive Purging (s : Store) (window : BadWindow) : Outcome PurgeOutcome → Prop where
  | inverted (ho : window.isOrdered = false) :
      Purging s window (s.refuse (.invertedWindow window))
  | poisoned (ho : window.isOrdered = true) (hp : s.poisoned = true) :
      Purging s window (s.refuse .lockPoisoned)
  | unreadable (e : StoreError) (hr : s.db.recordedWindow = .error e) :
      Purging s window (s.refuse e)
  | repeated (record : BadWindowRecord) (hr : s.db.recordedWindow = .ok (some record))
      (hm : sameMillis record.window window = true) :
      Purging s window (s.answer .alreadyProcessed)
  | mistyped (e : StoreError) (hc : s.db.checkChains = .error e) : Purging s window (s.refuse e)
  | purged (recorded : Option BadWindowRecord) (ho : window.isOrdered = true)
      (hp : s.poisoned = false) (hr : s.db.recordedWindow = .ok recorded)
      (hm : (recorded.any fun record => sameMillis record.window window) = false)
      (hc : s.db.checkChains = .ok ()) :
      Purging s window
        ⟨.ok (.purged (s.db.rows.length - (s.db.rows.filter (outlives window)).length)
            (recorded.elim 1 (·.version + 1))),
          { s with db := { s.db with
            rows := s.db.rows.filter (outlives window)
            window := some (.ofRecord ⟨window, recorded.elim 1 (·.version + 1)⟩) } },
          s.db.rows.filterMap undecodable? ++
            [.windowPurged (s.db.rows.length - (s.db.rows.filter (outlives window)).length)
              (recorded.elim 1 (·.version + 1)) window]⟩

theorem purge_purging (s : Store) (window : BadWindow) : s.Purging window (s.purge window) := by
  unfold purge
  split
  · rename_i ho
    exact .inverted (by simpa using ho)
  · rename_i ho
    rw [Bool.not_eq_true, Bool.not_eq_false'] at ho
    split
    · rename_i hp
      exact .poisoned ho hp
    · rename_i hp
      rw [Bool.not_eq_true] at hp
      split
      · rename_i e hr
        exact .unreadable e hr
      · rename_i recorded hr
        split
        · rename_i hm
          obtain ⟨record, rfl, hsame⟩ := (Option.any_eq_true _ _).mp hm
          exact .repeated record hr hsame
        · rename_i hm
          rw [Bool.not_eq_true] at hm
          unfold applyWindow
          split
          · rename_i e hc
            exact .mistyped e hc
          · rename_i hc
            exact .purged recorded ho hp hr hm hc

end Store

/-! ## Changes -/

/-- What an operation can do to the tables: nothing, or the one thing it is for, and that only where
its guards hold. -/
inductive Database.Change (db : Database) : StoreOperation → Database → Prop where
  | none (operation : StoreOperation) : Change db operation db
  | insert (keys : List AttestationKey) (hne : keys ≠ []) (hv : Store.firstInvalid? keys = none)
      (hi : db.insertAll keys = .ok (db.append keys)) : Change db (.insert keys) (db.append keys)
  | assign (component : String) (now : Timestamp) (client irpc : Int32) (row : KeyRow)
      (key : AttestationKey)
      (hh : db.firstLive? (·.isBoundTo component client irpc) now.toMillis = .none)
      (hc : db.firstLive? (·.isFree component) now.toMillis = some row)
      (hk : row.toKey = .ok key) :
      Change db (.assign component now client irpc)
        (db.update row.id (KeyRow.assign client irpc now.toMillis))
  | clear : Change db .clear { db with rows := [] }
  | expire (cutoff : Timestamp) :
      Change db (.expire cutoff)
        { db with rows := db.rows.filter fun row => !row.expiration.isBelow cutoff.toMillis }
  | purge (window : BadWindow) (recorded : Option BadWindowRecord)
      (hr : db.recordedWindow = .ok recorded) (hc : db.checkChains = .ok ()) :
      Change db (.purge window)
        { db with
          rows := db.rows.filter (Store.outlives window)
          window := some (.ofRecord ⟨window, recorded.elim 1 (·.version + 1)⟩) }

namespace StoreOperation

theorem insert_change (s : Store) (batch : List AttestationKey) :
    s.db.Change (.insert batch) (s.insert batch).store.db := by
  have h := s.insert_inserting batch
  generalize s.insert batch = outcome at h ⊢
  cases h with
  | inserted hne hv hp hi =>
      rw [s.add_of_ne_nil hne]
      exact .insert batch hne hv hi
  | _ => exact .none _

theorem assign_change (s : Store) (component : String) (now : Timestamp) (client irpc : Int32) :
    s.db.Change (.assign component now client irpc)
      (s.assign component now client irpc).store.db := by
  have h := s.assign_assigning component now client irpc
  generalize s.assign component now client irpc = outcome at h ⊢
  cases h with
  | late row key hp hh hc hk hi ht => exact .assign component now client irpc row key hh hc hk
  | bound row key since hh hc hk ht => exact .assign component now client irpc row key hh hc hk
  | _ => exact .none _

theorem purge_change (s : Store) (window : BadWindow) :
    s.db.Change (.purge window) (s.purge window).store.db := by
  have h := s.purge_purging window
  generalize s.purge window = outcome at h ⊢
  cases h with
  | purged recorded ho hp hr hm hc => exact .purge window recorded hr hc
  | _ => exact .none _

@[simp] theorem query_store {α : Type} (s : Store) (read : Database → Except StoreError α) :
    (s.query read).store = s := by
  unfold Store.query
  split <;> rfl

/-- Every operation changes the tables as it may and not otherwise. -/
theorem perform_change (op : StoreOperation) (s : Store) :
    s.db.Change op (op.perform s).store.db := by
  cases op with
  | insert batch => exact insert_change s batch
  | assign component now client irpc => exact assign_change s component now client irpc
  | clear =>
      change s.db.Change .clear s.clear.store.db
      unfold Store.clear
      split
      · exact .none _
      · have hnil : s.db.rows.filter (fun _ => false) = [] := by simp
        simp only [Database.retain, hnil]
        exact .clear
  | expire cutoff =>
      change s.db.Change (.expire cutoff) (s.expire cutoff).store.db
      unfold Store.expire
      split
      · exact .none _
      · exact .expire cutoff
  | purge window => exact purge_change s window
  | _ =>
      simp only [perform, Store.Outcome.map, Store.lookup, Store.count, Store.countFree, Store.keys,
        Store.lastWindow, query_store]
      exact .none _

end StoreOperation

theorem StoreCall.next_change (call : StoreCall) (db : Database) :
    db.Change call.operation (call.next db) :=
  call.operation.perform_change ⟨db, call.poisoned⟩

theorem StoreCall.perform_insert {db db' : Database} {keys : List AttestationKey} (hne : keys ≠ [])
    (hv : Store.firstInvalid? keys = none) (hi : db.insertAll keys = .ok db') :
    (StoreCall.mk (.insert keys) false).perform db =
      ⟨.ok .done, ⟨db', false⟩, [.keysInserted keys.length]⟩ := by
  change (Store.insert ⟨db, false⟩ keys).map _ = _
  simp [Store.insert, Store.Outcome.map, Except.map, hne, hv, hi]

theorem StoreCall.perform_insert_selfSigned {db db' : Database} {keys : List AttestationKey}
    (hne : keys ≠ []) (hchains : ∀ key ∈ keys, key.chain = .selfSigned)
    (hi : db.insertAll keys = .ok db') :
    (StoreCall.mk (.insert keys) false).perform db =
      ⟨.ok .done, ⟨db', false⟩, [.keysInserted keys.length]⟩ := by
  obtain ⟨chain, hchain, -⟩ := CertificateChain.ofBytes_selfSigned
  refine perform_insert hne (Store.firstInvalid?_eq_none.mpr ?_) hi
  intro key hkey
  exact ⟨chain, (hchains key hkey).symm ▸ hchain⟩

theorem StoreCall.next_insert_selfSigned {db db' : Database} {keys : List AttestationKey}
    (hne : keys ≠ []) (hchains : ∀ key ∈ keys, key.chain = .selfSigned)
    (hi : db.insertAll keys = .ok db') : (StoreCall.mk (.insert keys) false).next db = db' := by
  rw [StoreCall.next, perform_insert_selfSigned hne hchains hi]

end KeyPool
