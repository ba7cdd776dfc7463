import KeyPool.Proofs.Store.History

/-! What the store takes for expired, and what its keys say of themselves. The store compares whole
milliseconds and a key compares instants. They differ over a key that expired in the millisecond that
the clock shows, which the store still takes for valid, and agree on all others. -/

namespace KeyPool

namespace AttestationKey

variable {key : AttestationKey} {t : Timestamp}

/-- Whether a key has expired, but not in whole milliseconds. -/
def lapsesAt (key : AttestationKey) (t : Timestamp) : Bool :=
  key.isExpiredAt t && decide (t.toMillis ≤ key.expiration.toMillis)

theorem isExpiredAt_of_lapsesAt (h : key.lapsesAt t = true) : key.isExpiredAt t = true :=
  (Bool.and_eq_true _ _ ▸ h).1

/-- In whole milliseconds a key has expired if it has and does not lapse. -/
theorem expired_in_millis (key : AttestationKey) (t : Timestamp) :
    decide (key.expiration.toMillis < t.toMillis) = (key.isExpiredAt t && !key.lapsesAt t) := by
  by_cases hlt : key.expiration < t
  · have hexpired : key.isExpiredAt t = true := decide_eq_true hlt
    rw [lapsesAt, hexpired, Bool.true_and, Bool.true_and, ← decide_not, decide_eq_decide, not_le]
  · have hexpired : key.isExpiredAt t = false := decide_eq_false hlt
    have hmono : t.toMillis ≤ key.expiration.toMillis := Timestamp.toMillis_mono (Int.not_lt.mp hlt)
    rw [hexpired, Bool.false_and, decide_eq_false_iff_not, not_lt]
    exact hmono

/-- A key that was read back lapses within a millisecond from its end on, and not before 1970: there
milliseconds are rounded up. -/
theorem lapsesAt_iff (h : Timestamp.ofMillis? key.expiration.toMillis = some key.expiration) :
    key.lapsesAt t = true ↔ 0 ≤ key.expiration.instant ∧ key.expiration.instant < t.instant ∧
      t.instant < key.expiration.instant + 1000000 := by
  have hwhole := Timestamp.instant_ofMillis? h
  have hclock := t.toMillis_cases
  have hlt : key.expiration < t ↔ key.expiration.instant < t.instant := Iff.rfl
  simp only [lapsesAt, isExpiredAt, Bool.and_eq_true, decide_eq_true_eq, hlt]
  omega

end AttestationKey

/-! ## Rows that read as keys -/

namespace KeyRow

variable {row : KeyRow} {key : AttestationKey} {t : Timestamp}

theorem isFree_of_toKey (h : row.toKey = .ok key) (component : String) :
    row.isFree component = (decide (key.component = component) && !key.isAssigned) := by
  obtain ⟨hread, -, hcomponent, -⟩ := toKey_eq_ok h
  rcases readAssignment_eq_ok hread with ⟨hnone, hunbound⟩ | ⟨a, millis, hsome, hclient, -⟩
  · simp [isFree, AttestationKey.isAssigned, hcomponent, hnone, hunbound.client]
  · simp [isFree, AttestationKey.isAssigned, hcomponent, hsome, readUid_eq_ok_some hclient]

theorem isBelow_of_toKey (h : row.toKey = .ok key) :
    row.expiration.isBelow t.toMillis = (key.isExpiredAt t && !key.lapsesAt t) := by
  obtain ⟨-, -, -, millis, hcell, htime⟩ := toKey_eq_ok h
  rw [← key.expired_in_millis t, Timestamp.toMillis_ofMillis? htime, hcell, Cell.isBelow]

theorem isAtLeast_eq_of_toKey (h : row.toKey = .ok key) :
    row.expiration.isAtLeast t.toMillis = !(key.isExpiredAt t && !key.lapsesAt t) := by
  obtain ⟨-, -, -, millis, hcell, htime⟩ := toKey_eq_ok h
  rw [← key.expired_in_millis t, Timestamp.toMillis_ofMillis? htime, hcell, Cell.isAtLeast,
    ← decide_not, decide_eq_decide, not_lt]

theorem ofMillis?_of_toKey (h : row.toKey = .ok key) :
    Timestamp.ofMillis? key.expiration.toMillis = some key.expiration := by
  obtain ⟨-, -, -, millis, -, htime⟩ := toKey_eq_ok h
  rw [Timestamp.toMillis_ofMillis? htime, htime]

end KeyRow

/-! ## Reading, handing out and deleting -/

namespace Store

variable {s : Store} {t : Timestamp} {keys : List AttestationKey}

theorem keys_eq_ok : s.keys.result = .ok keys ↔ s.poisoned = false ∧
    List.Forall₂ (fun row key => KeyRow.toKey row = .ok key) s.db.rows keys := by
  rw [← mapM_eq_ok]
  unfold Store.keys query
  cases s.poisoned <;> simp [refuse, Database.keys]

/-- What is handed out is the key of a row that is live in whole milliseconds. -/
theorem assign_live {component : String} {client irpc : Int32} {key : AttestationKey}
    (h : (s.assign component t client irpc).result = .ok (some key)) :
    ∃ row ∈ s.db.rows, ∃ found, row.toKey = .ok found ∧ key.expiration = found.expiration ∧
      row.expiration.isAtLeast t.toMillis = true := by
  have ha := s.assign_assigning component t client irpc
  generalize s.assign component t client irpc = outcome at h ha
  cases ha with
  | held row hh =>
      obtain ⟨hrow, -, hlive⟩ := Database.firstLive?_eq_some hh
      obtain ⟨found, hfound, hkey⟩ := map_eq_ok.mp h
      cases hkey
      exact ⟨row, hrow, key, hfound, rfl, hlive⟩
  | bound row found since hh hc hk ht =>
      obtain ⟨hrow, -, hlive⟩ := Database.firstLive?_eq_some hc
      cases h
      exact ⟨row, hrow, found, hk, rfl, hlive⟩
  | _ => cases h

theorem expire_eq (hp : s.poisoned = false) :
    (s.expire t).result = .ok (s.db.rows.countP (·.expiration.isBelow t.toMillis)) ∧
      (s.expire t).store = { s with db := { s.db with
        rows := s.db.rows.filter fun row => !row.expiration.isBelow t.toMillis } } := by
  unfold expire
  rw [hp]
  refine ⟨?_, by simp [Database.retain]⟩
  change Except.ok (_ - _) = _
  rw [length_sub_length_filter]
  simp only [Bool.not_not]

end Store

/-- That a store and its keys agree on what has expired: it hands out no expired key, the keys that it
counts as free are not expired, and those that it deletes are the expired ones. -/
structure Store.AgreesAt (s : Store) (t : Timestamp) (keys : List AttestationKey) : Prop where
  handed : ∀ component client irpc key,
    (s.assign component t client irpc).result = .ok (some key) → key.isExpiredAt t = false
  counted : ∀ component, (s.countFree component t).result = .ok (keys.countP fun key =>
    decide (key.component = component) && !key.isAssigned && !key.isExpiredAt t)
  deleted : (s.expire t).result = .ok (keys.countP (·.isExpiredAt t)) ∧
    (s.expire t).store.keys.result = .ok (keys.filter (!·.isExpiredAt t))

/-- What a store with any content does with expired keys. One that is handed out lapses, and a row goes
if its key has expired and does not lapse, whether the others can be read or not. So store and keys
agree where no key lapses, and nowhere else. A key lapses from its end on for less than a millisecond,
and never before 1970. -/
structure ExpirySpec (s : Store) (t : Timestamp) : Prop where
  handed : ∀ component client irpc key,
    (s.assign component t client irpc).result = .ok (some key) → key.isExpiredAt t = true →
      key.lapsesAt t = true
  spared : s.poisoned = false → ∀ row ∈ s.db.rows, ∀ key, row.toKey = .ok key →
    (row ∈ (s.expire t).store.db.rows ↔ (key.isExpiredAt t && !key.lapsesAt t) = false)
  counted : ∀ keys, s.keys.result = .ok keys → ∀ component,
    (s.countFree component t).result = .ok (keys.countP fun key =>
      decide (key.component = component) && !key.isAssigned &&
        !(key.isExpiredAt t && !key.lapsesAt t))
  deleted : ∀ keys, s.keys.result = .ok keys →
    (s.expire t).result = .ok (keys.countP fun key => key.isExpiredAt t && !key.lapsesAt t) ∧
      (s.expire t).store.keys.result =
        .ok (keys.filter fun key => !(key.isExpiredAt t && !key.lapsesAt t))
  agrees_iff : ∀ keys, s.keys.result = .ok keys →
    (s.AgreesAt t keys ↔ ∀ key ∈ keys, key.lapsesAt t = false)
  lapsing : ∀ keys, s.keys.result = .ok keys → ∀ key ∈ keys, (key.lapsesAt t = true ↔
    0 ≤ key.expiration.instant ∧ key.expiration.instant < t.instant ∧
      t.instant < key.expiration.instant + 1000000)

namespace Store

variable {s : Store} {t : Timestamp} {keys : List AttestationKey}

theorem assign_expired {component : String} {client irpc : Int32} {key : AttestationKey}
    (h : (s.assign component t client irpc).result = .ok (some key))
    (hexpired : key.isExpiredAt t = true) : key.lapsesAt t = true ∧
      ∃ row ∈ s.db.rows, ∃ found, row.toKey = .ok found ∧ found.lapsesAt t = true := by
  obtain ⟨row, hrow, found, hfound, hsame, hlive⟩ := assign_live h
  rw [KeyRow.isAtLeast_eq_of_toKey hfound] at hlive
  -- the key that is handed out ends with the one that was read
  have hends : key.isExpiredAt t = found.isExpiredAt t ∧ key.lapsesAt t = found.lapsesAt t := by
    simp only [AttestationKey.lapsesAt, AttestationKey.isExpiredAt, hsame, and_self]
  have hlapses : found.lapsesAt t = true := by
    simpa [hends.1.symm.trans hexpired] using hlive
  exact ⟨hends.2.trans hlapses, row, hrow, found, hfound, hlapses⟩

theorem expire_spared (hp : s.poisoned = false) {row : KeyRow} (hrow : row ∈ s.db.rows)
    {key : AttestationKey} (hkey : row.toKey = .ok key) :
    row ∈ (s.expire t).store.db.rows ↔ (key.isExpiredAt t && !key.lapsesAt t) = false := by
  rw [(expire_eq hp).2, List.mem_filter, KeyRow.isBelow_of_toKey hkey, Bool.not_eq_true']
  exact and_iff_right hrow

theorem countFree_of_keys (h : s.keys.result = .ok keys) (component : String) :
    (s.countFree component t).result = .ok (keys.countP fun key =>
      decide (key.component = component) && !key.isAssigned &&
        !(key.isExpiredAt t && !key.lapsesAt t)) := by
  obtain ⟨hp, hkeys⟩ := keys_eq_ok.mp h
  unfold countFree query
  rw [hp]
  refine congrArg Except.ok (countP_eq_of_forall₂ hkeys ?_)
  intro row key hkey
  rw [KeyRow.isFree_of_toKey hkey, KeyRow.isAtLeast_eq_of_toKey hkey]

theorem expire_of_keys (h : s.keys.result = .ok keys) :
    (s.expire t).result = .ok (keys.countP fun key => key.isExpiredAt t && !key.lapsesAt t) ∧
      (s.expire t).store.keys.result =
        .ok (keys.filter fun key => !(key.isExpiredAt t && !key.lapsesAt t)) := by
  obtain ⟨hp, hkeys⟩ := keys_eq_ok.mp h
  obtain ⟨hresult, hstore⟩ := expire_eq (t := t) hp
  have hbelow (row : KeyRow) (key : AttestationKey) (hkey : row.toKey = .ok key) :
      row.expiration.isBelow t.toMillis = (key.isExpiredAt t && !key.lapsesAt t) :=
    KeyRow.isBelow_of_toKey hkey
  refine ⟨?_, keys_eq_ok.mpr ⟨?_, ?_⟩⟩
  · rw [hresult, countP_eq_of_forall₂ hkeys hbelow]
  · rw [hstore]
    exact hp
  · rw [hstore]
    exact filter_forall₂ hkeys fun row key hkey => congrArg (!·) (hbelow row key hkey)

/-- A key that lapses is left, but not among those that are not expired. -/
theorem AgreesAt.spares (ha : s.AgreesAt t keys) (h : s.keys.result = .ok keys) :
    ∀ key ∈ keys, key.lapsesAt t = false := by
  intro key hkey
  by_contra hlapses
  rw [Bool.not_eq_false] at hlapses
  have hsame := Except.ok.inj ((expire_of_keys h).2.symm.trans ha.deleted.2)
  have hmem : key ∈ keys.filter (!·.isExpiredAt t) := by
    rw [← hsame]
    exact List.mem_filter.mpr ⟨hkey, by simp [hlapses]⟩
  have hlive := (List.mem_filter.mp hmem).2
  simp [AttestationKey.isExpiredAt_of_lapsesAt hlapses] at hlive

theorem agreesAt_of_none_lapses (h : s.keys.result = .ok keys)
    (hnone : ∀ key ∈ keys, key.lapsesAt t = false) : s.AgreesAt t keys := by
  have hexact : ∀ key ∈ keys, (key.isExpiredAt t && !key.lapsesAt t) = key.isExpiredAt t := by
    intro key hkey
    rw [hnone key hkey, Bool.not_false, Bool.and_true]
  obtain ⟨hresult, hleft⟩ := expire_of_keys (t := t) h
  refine ⟨?_, ?_, ?_, ?_⟩
  · intro component client irpc key hok
    by_contra hexpired
    rw [Bool.not_eq_false] at hexpired
    obtain ⟨-, row, hrow, found, hfound, hlapses⟩ := assign_expired hok hexpired
    obtain ⟨found', hmem, hread⟩ := exists_of_mem_forall₂ (keys_eq_ok.mp h).2.flip hrow
    cases hfound.symm.trans hread
    rw [hnone found hmem] at hlapses
    cases hlapses
  · intro component
    rw [countFree_of_keys h component]
    refine congrArg Except.ok (List.countP_congr ?_)
    intro key hkey
    rw [hexact key hkey]
  · rw [hresult]
    refine congrArg Except.ok (List.countP_congr ?_)
    intro key hkey
    rw [hexact key hkey]
  · rw [hleft]
    refine congrArg Except.ok (List.filter_congr ?_)
    intro key hkey
    rw [hexact key hkey]

end Store

/-- What a store takes for expired is what its keys say of themselves, but for those that lapse. -/
theorem expiry_spec (s : Store) (t : Timestamp) : ExpirySpec s t := by
  refine ⟨fun _ _ _ _ h hexpired => (Store.assign_expired h hexpired).1,
    fun hp _ hrow _ => Store.expire_spared hp hrow, fun _ h => Store.countFree_of_keys h,
    fun _ h => Store.expire_of_keys h,
    fun _ h => ⟨fun ha => ha.spares h, Store.agreesAt_of_none_lapses h⟩, ?_⟩
  intro keys h key hkey
  obtain ⟨row, -, hread⟩ := exists_of_mem_forall₂ (Store.keys_eq_ok.mp h).2 hkey
  exact AttestationKey.lapsesAt_iff (KeyRow.ofMillis?_of_toKey hread)

/-- A key with a certificate that signs itself, for which the store is told when it ends. -/
def AttestationKey.ending (expiration : Timestamp) : AttestationKey :=
  ⟨none, [1], "hal", [], .selfSigned, expiration, none⟩

def halfMillisecondLater : Timestamp := ⟨500000, 0, by decide, Timestamp.epoch.offset_bounds⟩

/-- A store into which a key came that ends with the first instant of 1970. -/
def oneEnding : Store := ⟨Database.empty.after [⟨.insert [.ending .epoch], false⟩], false⟩

theorem oneEnding_eq : oneEnding = ⟨Database.empty.append [.ending .epoch], false⟩ := by
  have hinsert : (StoreCall.mk (.insert [.ending .epoch]) false).next .empty =
      Database.empty.append [.ending .epoch] :=
    StoreCall.next_insert_selfSigned (List.cons_ne_nil _ _) (by simp [AttestationKey.ending]) rfl
  exact congrArg (Store.mk · false) hinsert

/-- Half a millisecond after its end the key is still handed out, and the store that holds it does not
agree with it. -/
theorem expiry_spec_lapsed :
    (∃ keys, oneEnding.keys.result = .ok keys ∧ ¬ oneEnding.AgreesAt halfMillisecondLater keys) ∧
      ∃ key, (oneEnding.assign "hal" halfMillisecondLater 7 9).result = .ok (some key) ∧
        key.isExpiredAt halfMillisecondLater = true ∧ key.lapsesAt halfMillisecondLater = true := by
  have hkeys : oneEnding.keys.result = .ok [{ AttestationKey.ending .epoch with id := some 1 }] := by
    rw [oneEnding_eq]
    rfl
  have hhanded : (oneEnding.assign "hal" halfMillisecondLater 7 9).result =
      .ok (some { AttestationKey.ending .epoch with
        id := some 1, assignment := some ⟨7, 9, .epoch⟩ }) := by
    rw [oneEnding_eq]
    rfl
  have hspec := expiry_spec oneEnding halfMillisecondLater
  refine ⟨⟨_, hkeys, ?_⟩, _, hhanded, rfl, hspec.handed _ _ _ _ hhanded rfl⟩
  intro hagrees
  have hlive := hagrees.handed _ _ _ _ hhanded
  exact absurd hlive (by decide)

end KeyPool
