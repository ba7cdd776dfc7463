import KeyPool.Proofs.Store.Call

/-! A refused operation leaves the tables as they were, with one exception: an assignment at a time
beyond the calendar is refused after its row was bound. -/

namespace KeyPool

namespace Store

theorem clear_refused {s : Store} {e : StoreError} (h : s.clear.result = .error e) :
    s.clear.store = s := by
  unfold clear at h ⊢
  split
  · rfl
  · rename_i hp
    simp [hp] at h

theorem clear_eq_ok {s : Store} {deleted : Nat} (h : s.clear.result = .ok deleted) :
    s.clear.store = { s with db := { s.db with rows := [] } } := by
  unfold clear at h ⊢
  split
  · rename_i hp
    simp [hp, refuse] at h
  · simp [Database.retain]

theorem expire_refused {s : Store} {cutoff : Timestamp} {e : StoreError}
    (h : (s.expire cutoff).result = .error e) : (s.expire cutoff).store = s := by
  unfold expire at h ⊢
  split
  · rfl
  · rename_i hp
    simp [hp] at h

theorem purge_refused {s : Store} {window : BadWindow} {e : StoreError}
    (h : (s.purge window).result = .error e) : (s.purge window).store = s := by
  have hp := s.purge_purging window
  generalize s.purge window = outcome at h hp ⊢
  cases hp with
  | purged => cases h
  | _ => rfl

/-- Binding a row that nobody holds changes the store. -/
theorem bind_ne {s : Store} {row : KeyRow} (hrow : row ∈ s.db.rows) (hfree : row.client = .null)
    (client irpc : Int32) (millis : Int) : s.bind row.id client irpc millis ≠ s := by
  intro h
  have hrows : s.db.rows.map (fun r => if r.id = row.id then r.assign client irpc millis else r) =
      s.db.rows.map id := by
    rw [List.map_id]
    exact congrArg (fun s : Store => s.db.rows) h
  have hfixed := List.map_inj_left.mp hrows row hrow
  simp only [ite_true, id_eq] at hfixed
  have hclient : (row.assign client irpc millis).client = row.client := by rw [hfixed]
  rw [hfree] at hclient
  cases hclient

end Store

/-! ## Refusals after binding -/

/-- Whether an operation binds a row although the store cannot name the time of it: the client holds
nothing, `row` is free, unexpired and readable, and the time is beyond the calendar. -/
def StoreOperation.BindsBeyondCalendar (s : Store) (row : KeyRow) : StoreOperation → Prop
  | assign component now client irpc =>
    s.poisoned = false ∧ s.db.updatesIgnored = false ∧
      s.db.firstLive? (·.isBoundTo component client irpc) now.toMillis = none ∧
      s.db.firstLive? (·.isFree component) now.toMillis = some row ∧
      (∃ key, row.toKey = .ok key) ∧ Timestamp.ofMillis? now.toMillis = none
  | _ => False

/-- The row can be read and has not expired, so the time is not beyond the end of the calendar. -/
theorem StoreOperation.BindsBeyondCalendar.before {s : Store} {component : String} {now : Timestamp}
    {client irpc : Int32} {row : KeyRow}
    (h : (assign component now client irpc).BindsBeyondCalendar s row) :
    now.instant ≤ Timestamp.minClock - 1000000 := by
  obtain ⟨-, -, -, hfound, ⟨key, hkey⟩, htime⟩ := h
  obtain ⟨-, -, hlive⟩ := Database.firstLive?_eq_some hfound
  obtain ⟨-, -, -, millis, hexpiration, hends⟩ := KeyRow.toKey_eq_ok hkey
  rw [hexpiration] at hlive
  have hle : now.toMillis ≤ millis := of_decide_eq_true hlive
  by_contra hlate
  obtain ⟨kept, hkept⟩ := Timestamp.exists_ofMillis?_of_le (by simp [hends]) hle (not_le.mp hlate)
  cases hkept.symm.trans htime

namespace Store

theorem assign_refused {s : Store} {component : String} {now : Timestamp} {client irpc : Int32}
    {e : StoreError} (h : (s.assign component now client irpc).result = .error e) :
    (s.assign component now client irpc).store = s ∨
      ∃ row, (StoreOperation.assign component now client irpc).BindsBeyondCalendar s row := by
  have ha := s.assign_assigning component now client irpc
  generalize s.assign component now client irpc = outcome at h ha ⊢
  cases ha with
  | late row key hp hh hc hk hi ht => exact .inr ⟨row, hp, hi, hh, hc, ⟨key, hk⟩, ht⟩
  | bound => cases h
  | _ => exact .inl rfl

theorem assign_beyondCalendar {s : Store} {component : String} {now : Timestamp}
    {client irpc : Int32} {row : KeyRow}
    (h : (StoreOperation.assign component now client irpc).BindsBeyondCalendar s row) :
    s.assign component now client irpc =
      (s.bind row.id client irpc now.toMillis).refuse (.timestampOutOfRange now.toMillis) := by
  obtain ⟨hp, hi, hh, hc, ⟨key, hk⟩, ht⟩ := h
  unfold Database.firstLive? at hh hc
  simp [assign, bindRow, bind, hp, hh, hc, hk, hi, ht]

end Store

namespace StoreOperation

theorem perform_refused {op : StoreOperation} {s : Store} {e : StoreError}
    (h : (op.perform s).result = .error e) :
    (op.perform s).store = s ∨ ∃ row, op.BindsBeyondCalendar s row := by
  have herror {α : Type} {o : Store.Outcome α} {f : α → StoreAnswer}
      (h : (o.map f).result = .error e) : o.result = .error e :=
    Store.Outcome.result_map_eq_error.mp h
  cases op with
  | insert batch => exact .inl (Store.insert_refused (herror h))
  | assign component now client irpc => exact Store.assign_refused (herror h)
  | clear => exact .inl (Store.clear_refused (herror h))
  | expire cutoff => exact .inl (Store.expire_refused (herror h))
  | purge window => exact .inl (Store.purge_refused (herror h))
  | _ =>
      simp only [perform, Store.Outcome.map, Store.lookup, Store.count, Store.countFree, Store.keys,
        Store.lastWindow, query_store, true_or]

/-- Over every content of the tables, a refused operation leaves rows, recorded window and ids as
they were, unless it binds a row at a time before the calendar; then that row stays bound, and this
is the only change. -/
theorem refused_unchanged_iff (op : StoreOperation) (s : Store) (e : StoreError)
    (h : (op.perform s).result = .error e) :
    ((op.perform s).store = s ↔ ∀ row, ¬ op.BindsBeyondCalendar s row) ∧
      ∀ component now client irpc row, op = .assign component now client irpc →
        op.BindsBeyondCalendar s row →
          now.instant ≤ Timestamp.minClock - 1000000 ∧ e = .timestampOutOfRange now.toMillis ∧
            (op.perform s).store = s.bind row.id client irpc now.toMillis := by
  have hlate : ∀ component now client irpc row, op = .assign component now client irpc →
      op.BindsBeyondCalendar s row →
        now.instant ≤ Timestamp.minClock - 1000000 ∧ e = .timestampOutOfRange now.toMillis ∧
          (op.perform s).store = s.bind row.id client irpc now.toMillis := by
    intro component now client irpc row hop hb
    subst hop
    have ho := Store.assign_beyondCalendar hb
    have hbefore := hb.before
    simp only [perform, Store.Outcome.map, ho, Store.refuse, Except.map, Except.error.injEq] at h ⊢
    exact ⟨hbefore, h.symm, trivial⟩
  refine ⟨⟨?_, ?_⟩, hlate⟩
  · intro hsame row hb
    cases op with
    | assign component now client irpc =>
        obtain ⟨hrow, hfree, -⟩ := Database.firstLive?_eq_some hb.2.2.2.1
        obtain ⟨-, -, hstore⟩ := hlate component now client irpc row rfl hb
        rw [hsame] at hstore
        exact Store.bind_ne hrow (KeyRow.client_of_isFree hfree).2 client irpc _ hstore.symm
    | _ => exact hb
  · intro hnone
    rcases perform_refused h with hsame | ⟨row, hb⟩
    · exact hsame
    · exact absurd hb (hnone row)

/-- The first clock face of the calendar, shown an hour ahead of UTC: the instant lies before every
time that the store can name. -/
def beforeCalendar : Timestamp := ⟨Timestamp.minClock, 3600, by decide, by decide⟩

def oneFree : Store :=
  ⟨{ Database.empty with
      rows := [.ofKey 1 ⟨none, [1], "hal", [2], [3], .epoch, none⟩]
      lastId := 1 }, false⟩

/-- An assignment that is refused and binds the only free row all the same. -/
theorem refused_and_bound :
    ((assign "hal" beforeCalendar 7 9).perform oneFree).result =
        .error (.timestampOutOfRange (-377705120400000)) ∧
      ((assign "hal" beforeCalendar 7 9).perform oneFree).store =
        oneFree.bind 1 7 9 (-377705120400000) ∧
      ((assign "hal" beforeCalendar 7 9).perform oneFree).store ≠ oneFree := by
  have h : ((assign "hal" beforeCalendar 7 9).perform oneFree).result =
      .error (.timestampOutOfRange (-377705120400000)) := by rfl
  have hb : (assign "hal" beforeCalendar 7 9).BindsBeyondCalendar oneFree
      (.ofKey 1 ⟨none, [1], "hal", [2], [3], .epoch, none⟩) :=
    ⟨rfl, rfl, rfl, rfl, ⟨_, rfl⟩, rfl⟩
  obtain ⟨hiff, hlate⟩ := refused_unchanged_iff _ _ _ h
  refine ⟨h, (hlate "hal" beforeCalendar 7 9 _ rfl hb).2.2, ?_⟩
  intro hsame
  exact hiff.mp hsame _ hb

end StoreOperation

end KeyPool
