import KeyPool.Proofs.Store.Admission
import KeyPool.Proofs.Store.Reading

/-! Keys come in exactly and can be taken out and put back. A batch is taken if its chains are valid, no
blob would be there twice and ids are left, and then it is read back behind all that was there, with
nothing lost but the fractions of its times. What is read off a store can be taken by it again once it
is emptied. -/

namespace KeyPool

/-! ## What is kept of a key -/

/-- A time is kept in whole milliseconds, rounded toward 1970, and shown on UTC. -/
structure Timestamp.KeptAs (t kept : Timestamp) : Prop where
  instant : kept.instant = t.instant.tdiv 1000000 * 1000000
  offset : kept.offset = 0

theorem Timestamp.keptAs_of_ofMillis? {t kept : Timestamp} (h : ofMillis? t.toMillis = some kept) :
    t.KeptAs kept :=
  ⟨instant_ofMillis? h, offset_ofNanos? h⟩

structure Assignment.KeptAs (a kept : Assignment) : Prop where
  client : kept.client = a.client
  irpc : kept.irpc = a.irpc
  assignedAt : a.assignedAt.KeptAs kept.assignedAt

namespace AttestationKey

/-- Of a key, everything is kept but the fractions of its times. The id is given by the store. -/
structure KeptAs (key kept : AttestationKey) : Prop where
  keyBlob : kept.keyBlob = key.keyBlob
  component : kept.component = key.component
  publicKey : kept.publicKey = key.publicKey
  chain : kept.chain = key.chain
  expiration : key.expiration.KeptAs kept.expiration
  assignment : Option.Rel Assignment.KeptAs key.assignment kept.assignment

/-- Keys under the ids that follow `last`. -/
def renumbered (last : Int) (keys : List AttestationKey) : List AttestationKey :=
  keys.mapIdx fun k key => { key with id := some (last + 1 + k) }

theorem renumbered_cons (last : Int) (key : AttestationKey) (keys : List AttestationKey) :
    renumbered last (key :: keys) =
      { key with id := some (last + 1) } :: renumbered (last + 1) keys := by
  have hid (k : Nat) : last + 1 + (k + 1 : Nat) = last + 1 + 1 + k := by omega
  simp only [renumbered, List.mapIdx_cons, hid, Int.natCast_zero, Int.add_zero]

def ReadsAs (key kept : AttestationKey) : Prop :=
  ∀ id, (KeyRow.ofKey id key).toKey = .ok { kept with id := some id }

end AttestationKey

/-! ## Rows of keys -/

namespace KeyRow

variable {row : KeyRow} {key kept : AttestationKey} {id : Int}

theorem readTime_eq_ok {column : KeyColumn} {millis : Int} {t : Timestamp} :
    readTime column millis = .ok t ↔ Timestamp.ofMillis? millis = some t := by
  unfold readTime
  cases Timestamp.ofMillis? millis <;> simp

theorem read_eq_ok {α : Type} {column : KeyColumn} {get : Cell → Option α} {c : Cell} {a : α} :
    read column get c = .ok a ↔ get c = some a := by
  unfold read
  cases get c <;> simp

theorem ofKey_of_toKey (h : row.toKey = .ok key) : ofKey row.id key = row := by
  obtain ⟨assignment, ha, h⟩ := bind_eq_ok.mp h
  obtain ⟨keyBlob, hb, h⟩ := bind_eq_ok.mp h
  obtain ⟨component, hc, h⟩ := bind_eq_ok.mp h
  obtain ⟨publicKey, hp, h⟩ := bind_eq_ok.mp h
  obtain ⟨chain, hn, h⟩ := bind_eq_ok.mp h
  obtain ⟨millis, hm, h⟩ := bind_eq_ok.mp h
  obtain ⟨expiration, he, h⟩ := bind_eq_ok.mp h
  cases h
  obtain rfl := Timestamp.toMillis_ofMillis? (readTime_eq_ok.mp he)
  have hbound : row.client = .ofInteger? (assignment.map (·.client.toInt)) ∧
      row.irpc = .ofInteger? (assignment.map (·.irpc.toInt)) ∧
        row.assignedAt = .ofInteger? (assignment.map (·.assignedAt.toMillis)) := by
    rcases readAssignment_eq_ok ha with ⟨rfl, hfree⟩ | ⟨a, since, rfl, hclient, hirpc, hcell, htime⟩
    · exact ⟨hfree.client, hfree.irpc, hfree.assignedAt⟩
    · obtain rfl := Timestamp.toMillis_ofMillis? (readTime_eq_ok.mp htime)
      exact ⟨readUid_eq_ok_some hclient, readUid_eq_ok_some hirpc, readOptional_eq_ok_some hcell⟩
  rw [ofKey, ← Cell.toBlob?_eq_some.mp (read_eq_ok.mp hb), ← Cell.toText?_eq_some.mp (read_eq_ok.mp hc),
    ← Cell.toBlob?_eq_some.mp (read_eq_ok.mp hp), ← Cell.toBlob?_eq_some.mp (read_eq_ok.mp hn),
    ← Cell.toInteger?_eq_some.mp (read_eq_ok.mp hm), ← hbound.1, ← hbound.2.1, ← hbound.2.2]

theorem ofBytes_of_toKey (h : row.toKey = .ok key) {chain : CertificateChain}
    (hchain : row.chain? = some chain) : CertificateChain.ofBytes key.chain = .ok chain := by
  obtain ⟨encoded, hcell, hok⟩ := chain?_eq_some.mp hchain
  rw [← ofKey_of_toKey h] at hcell
  exact Cell.blob.inj hcell ▸ hok

/-- What a row for a key reads as does not depend on its id. -/
theorem readsAs_of_toKey (h : (ofKey id key).toKey = .ok kept) : key.ReadsAs kept := by
  intro other
  rw [toKey_ofKey_eq] at h ⊢
  obtain ⟨assignment, ha, h⟩ := bind_eq_ok.mp h
  obtain ⟨expiration, he, rfl⟩ := map_eq_ok.mp h
  have hsame : (ofKey other key).readAssignment = .ok assignment := ha
  rw [hsame, he]
  rfl

/-- A key that was read off a row reads as itself from any other. -/
theorem readsAs_self (h : row.toKey = .ok key) : key.ReadsAs key := by
  have hrow : (ofKey row.id key).toKey = .ok key := by rw [ofKey_of_toKey h, h]
  exact readsAs_of_toKey hrow

theorem assignment_keptAs {found : Option Assignment}
    (h : (ofKey id key).readAssignment = .ok found) :
    Option.Rel Assignment.KeptAs key.assignment found := by
  cases hassignment : key.assignment with
  | none =>
      rw [readAssignment_unbound (ofKey_unbound hassignment)] at h
      cases h
      exact .none
  | some a =>
      rw [readAssignment_ofKey_some hassignment] at h
      obtain ⟨since, hsince, rfl⟩ := map_eq_ok.mp h
      exact .some ⟨rfl, rfl, Timestamp.keptAs_of_ofMillis? (readTime_eq_ok.mp hsince)⟩

theorem keptAs_of_toKey (h : (ofKey id key).toKey = .ok kept) : key.KeptAs kept := by
  rw [toKey_ofKey_eq] at h
  obtain ⟨assignment, ha, h⟩ := bind_eq_ok.mp h
  obtain ⟨expiration, he, rfl⟩ := map_eq_ok.mp h
  exact ⟨rfl, rfl, rfl, rfl, Timestamp.keptAs_of_ofMillis? (readTime_eq_ok.mp he),
    assignment_keptAs ha⟩

theorem exists_readsAs {keys : List AttestationKey}
    (h : ∀ key ∈ keys, ∀ t ∈ key.times, t.isBeyondCalendar = false) :
    ∃ kept, List.Forall₂ AttestationKey.ReadsAs keys kept ∧
      List.Forall₂ AttestationKey.KeptAs keys kept := by
  induction keys with
  | nil => exact ⟨[], .nil, .nil⟩
  | cons key keys ih =>
      rw [List.forall_mem_cons] at h
      obtain ⟨rest, hreads, hkept⟩ := ih h.2
      rcases toKey_ofKey 0 key with ⟨-, found, hfound⟩ | ⟨t, ht, hbeyond, -⟩
      · exact ⟨found :: rest, .cons (readsAs_of_toKey hfound) hreads,
          .cons (keptAs_of_toKey hfound) hkept⟩
      · rw [h.1 t ht] at hbeyond
        cases hbeyond

theorem mapM_toKey_numbered {keys kept : List AttestationKey}
    (h : List.Forall₂ AttestationKey.ReadsAs keys kept) (last : Int) :
    (numbered last keys).mapM toKey = .ok (AttestationKey.renumbered last kept) := by
  rw [mapM_eq_ok]
  induction h generalizing last with
  | nil => exact .nil
  | cons hkey hkeys ih =>
      rw [AttestationKey.renumbered_cons]
      exact .cons (hkey (last + 1)) (ih (last + 1))

end KeyRow

/-! ## What a run keeps -/

namespace Database

variable {db db' : Database}

/-- No blob is stored twice, and no id is too great. -/
structure Fits (db : Database) : Prop where
  ids : db.lastId ≤ 9223372036854775807
  blobs : (db.rows.map (·.keyBlob)).Nodup

theorem Fits.filter (h : db.Fits) (keep : KeyRow → Bool) (window : Option WindowRow) :
    ({ db with rows := db.rows.filter keep, window } : Database).Fits :=
  ⟨h.ids, h.blobs.sublist (List.filter_sublist.map _)⟩

theorem Fits.change (h : db.Fits) {op : StoreOperation} (hc : db.Change op db') : db'.Fits := by
  cases hc with
  | none => exact h
  | insert keys hne hv hi =>
      obtain ⟨haccepts, -⟩ := (insertAll_eq_ok hne).mp hi
      refine ⟨haccepts.ids, ?_⟩
      rw [append, List.map_append, KeyRow.map_keyBlob_numbered]
      refine List.nodup_append.mpr ⟨h.blobs, ?_, ?_⟩
      · have hnodup := haccepts.distinct.map fun _ _ => Cell.blob.inj
        rwa [List.map_map] at hnodup
      · intro old hold new hnew hsame
        obtain ⟨row, hrow, rfl⟩ := List.mem_map.mp hold
        obtain ⟨key, hkey, rfl⟩ := List.mem_map.mp hnew
        exact haccepts.fresh key hkey row hrow hsame
  | assign component now client irpc row =>
      refine ⟨h.ids, ?_⟩
      have hblobs : (db.update row.id (KeyRow.assign client irpc now.toMillis)).rows.map (·.keyBlob) =
          db.rows.map (·.keyBlob) := by
        rw [update, List.map_map]
        refine List.map_congr_left ?_
        intro other hother
        rw [Function.comp_apply]
        split <;> rfl
      rw [hblobs]
      exact h.blobs
  | clear => exact ⟨h.ids, .nil⟩
  | expire cutoff => exact h.filter _ db.window
  | purge window => exact h.filter _ _

/-- Keys that were read off the tables fit into them again once these are emptied. -/
theorem Fits.accepts_cleared (h : db.Fits) {keys : List AttestationKey}
    (hread : List.Forall₂ (fun row key => KeyRow.toKey row = .ok key) db.rows keys)
    (hroom : db.lastId + keys.length ≤ 9223372036854775807) :
    ({ db with rows := [] } : Database).Accepts keys := by
  have hblobs : db.rows.map (·.keyBlob) = (keys.map (·.keyBlob)).map Cell.blob := by
    rw [List.map_map, ← List.forall₂_eq_eq_eq, List.forall₂_map_left_iff, List.forall₂_map_right_iff]
    refine hread.imp ?_
    intro row key hkey
    rw [← KeyRow.ofKey_of_toKey hkey]
    rfl
  exact ⟨hroom, fun _ _ _ hrow => absurd hrow List.not_mem_nil, (hblobs ▸ h.blobs).of_map⟩

theorem fits_after (calls : List StoreCall) : (empty.after calls).Fits :=
  after_invariant (fun call _ db hdb => hdb.change (call.next_change db)) ⟨by decide, .nil⟩

theorem issued_le (calls : List StoreCall) (h : db.Numbered) :
    ∀ id ∈ db.issued calls, id ≤ (db.after calls).lastId := by
  induction calls generalizing db with
  | nil => exact fun _ hid => absurd hid List.not_mem_nil
  | cons call calls ih =>
      intro id hid
      have hnext := h.change (call.next_change db)
      rcases List.mem_append.mp hid with hfirst | hlater
      · exact ((call.given_ascending h).2 id hfirst).2.trans (leads_after hnext calls).lastId_le
      · exact ih hnext id hlater

end Database

/-! ## Insertions -/

namespace Store

variable {s : Store} {batch : List AttestationKey}

/-- What a sound store takes. -/
theorem insert_accepts_iff (hp : s.poisoned = false) (hids : s.db.lastUsed ≤ 9223372036854775807) :
    (s.insert batch).result = .ok () ↔
      (∀ key ∈ batch, ∃ chain, CertificateChain.ofBytes key.chain = .ok chain) ∧
        s.db.Accepts batch := by
  rw [← firstInvalid?_eq_none]
  constructor
  · intro hok
    have hi := s.insert_inserting batch
    generalize s.insert batch = outcome at hok hi
    cases hi with
    | nothing hnil =>
        subst hnil
        exact ⟨rfl, by simpa using hids, by simp, by simp⟩
    | inserted hne hv hp hi => exact ⟨hv, ((Database.insertAll_eq_ok hne).mp hi).1⟩
    | _ => cases hok
  · rintro ⟨hv, haccepts⟩
    by_cases hnil : batch = []
    · simp [insert, hnil, answer]
    · have hi := (Database.insertAll_eq_ok hnil).mpr ⟨haccepts, rfl⟩
      simp [insert, hnil, hv, hp, hi]

/-- A batch with a chain that is not valid is refused for the first of them. -/
theorem insert_invalid {before after : List AttestationKey} {key : AttestationKey} {e : ChainError}
    (hbefore : ∀ k ∈ before, ∃ chain, CertificateChain.ofBytes k.chain = .ok chain)
    (hkey : CertificateChain.ofBytes key.chain = .error e) :
    s.insert (before ++ key :: after) = s.refuse (.invalidChain key.keyBlob e) := by
  have hnone := firstInvalid?_eq_none.mpr hbefore
  have hfirst : firstInvalid? (before ++ key :: after) = some (.invalidChain key.keyBlob e) := by
    unfold firstInvalid? at hnone ⊢
    rw [List.findSome?_append, hnone, List.findSome?_cons, hkey]
    rfl
  simp [insert, hfirst]

/-- A batch of valid chains is refused by the tables alone. -/
theorem insert_rejected (hp : s.poisoned = false)
    (hv : ∀ key ∈ batch, ∃ chain, CertificateChain.ofBytes key.chain = .ok chain) {e : StoreError}
    (he : (s.insert batch).result = .error e) : e = .duplicateKeyBlob ∨
      e = .full ∧ 9223372036854775807 < s.db.lastUsed + batch.length := by
  have hi := s.insert_inserting batch
  generalize s.insert batch = outcome at he hi
  cases hi with
  | nothing hnil => cases he
  | invalid e' hinvalid => cases (firstInvalid?_eq_none.mpr hv).symm.trans hinvalid
  | poisoned hv hpoisoned => cases hp.symm.trans hpoisoned
  | rejected e' hv hp hrejected =>
      cases he
      exact Database.insertAll_error hrejected
  | inserted hne hv hp hi => cases he

/-- Keys that are read back from their rows are found behind those that were there. -/
theorem keys_insert (hn : s.db.Numbered) (hp : s.poisoned = false)
    (hok : (s.insert batch).result = .ok ()) {kept : List AttestationKey}
    (hreads : List.Forall₂ AttestationKey.ReadsAs batch kept) :
    (s.insert batch).store.keys.result =
      s.keys.result.map (· ++ AttestationKey.renumbered s.db.lastId kept) := by
  have hstore : (s.insert batch).store = ⟨s.db.append batch, false⟩ := by
    have hpoisoned : (s.insert batch).store.poisoned = false := by
      rw [insert_eq_ok hok, add_poisoned, hp]
    rw [← insert_ok hn hok, ← hpoisoned]
  have hnew := KeyRow.mapM_toKey_numbered hreads s.db.lastUsed
  rw [hn.lastUsed_eq] at hnew
  have hkeys : s.keys.result = s.db.rows.mapM KeyRow.toKey := by
    simp [Store.keys, query, hp, Database.keys]
  rw [hstore, hkeys]
  change (s.db.rows ++ KeyRow.numbered s.db.lastUsed batch).mapM KeyRow.toKey = _
  rw [List.mapM_append, hn.lastUsed_eq, hnew]
  cases s.db.rows.mapM KeyRow.toKey <;> rfl

theorem exists_keys {times : List Timestamp} (hw : s.db.WrittenFrom times) (hp : s.poisoned = false)
    (hface : ∀ row ∈ s.db.rows, ∀ millis ∈ row.millis, Timestamp.ofMillis? millis ≠ none) :
    ∃ keys, s.keys.result = .ok keys := by
  cases hkeys : s.keys.result with
  | ok keys => exact ⟨keys, rfl⟩
  | error e =>
      obtain ⟨row, hrow, he⟩ := exists_of_mapM_eq_error (query_error hkeys (by simp [hp]))
      obtain ⟨key, hkey⟩ := hw.exists_toKey hrow (hface row hrow)
      cases he.symm.trans hkey

theorem clear_ok (hp : s.poisoned = false) : s.clear.result = .ok s.db.rows.length := by
  simp [clear, hp, Database.retain]

/-- What was read off a store can be put back once it is emptied. -/
theorem insert_restores (hf : s.db.Fits) (ha : s.db.Admitted) (hp : s.poisoned = false)
    {keys : List AttestationKey} (hkeys : s.keys.result = .ok keys)
    (hroom : s.db.lastId + keys.length ≤ 9223372036854775807) :
    (s.clear.store.insert keys).result = .ok () ∧
      (s.clear.store.insert keys).store.keys.result =
        .ok (AttestationKey.renumbered s.db.lastId keys) := by
  obtain ⟨-, hread⟩ := keys_eq_ok.mp hkeys
  have hvalid : ∀ key ∈ keys, ∃ chain, CertificateChain.ofBytes key.chain = .ok chain := by
    intro key hkey
    obtain ⟨row, hrow, hrowkey⟩ := exists_of_mem_forall₂ hread hkey
    obtain ⟨chain, hchain⟩ := ha row hrow
    exact ⟨chain, KeyRow.ofBytes_of_toKey hrowkey hchain⟩
  have hself : List.Forall₂ AttestationKey.ReadsAs keys keys := by
    refine List.forall₂_same.mpr ?_
    intro key hkey
    obtain ⟨row, -, hrowkey⟩ := exists_of_mem_forall₂ hread hkey
    exact KeyRow.readsAs_self hrowkey
  rw [clear_eq_ok (clear_ok hp)]
  let emptied : Store := { s with db := { s.db with rows := [] } }
  have hn : emptied.db.Numbered := ⟨.nil, fun _ hrow => absurd hrow List.not_mem_nil⟩
  have hsound : emptied.poisoned = false := hp
  have hok : (emptied.insert keys).result = .ok () :=
    (insert_accepts_iff hsound (hn.lastUsed_eq.trans_le hf.ids)).mpr
      ⟨hvalid, hf.accepts_cleared hread hroom⟩
  refine ⟨hok, (keys_insert hn hsound hok hself).trans ?_⟩
  simp [Store.keys, query, emptied, hp, Database.keys, Except.map, pure, Except.pure]

/-- What insertions do to a store after a run. A batch is taken if its chains are valid, its blobs are
new and distinct, and ids are left. The first chain that is not valid is told, whatever else is wrong.
Keys that are taken are read behind those that were there, under the ids that follow, which were never
given before. Keys that were read can be deleted and put back, and then read again. -/
structure InsertingSpec (calls : List StoreCall) (s : Store) (batch : List AttestationKey) : Prop where
  accepted_iff : (s.insert batch).result = .ok () ↔
    (∀ key ∈ batch, ∃ chain, CertificateChain.ofBytes key.chain = .ok chain) ∧
      (∀ key ∈ batch, ∀ row ∈ s.db.rows, row.keyBlob ≠ .blob key.keyBlob) ∧
        (batch.map (·.keyBlob)).Nodup ∧ s.db.lastId + batch.length ≤ 9223372036854775807
  invalid : ∀ before key after e, batch = before ++ key :: after →
    (∀ k ∈ before, ∃ chain, CertificateChain.ofBytes k.chain = .ok chain) →
      CertificateChain.ofBytes key.chain = .error e →
        s.insert batch = s.refuse (.invalidChain key.keyBlob e)
  rejected : (∀ key ∈ batch, ∃ chain, CertificateChain.ofBytes key.chain = .ok chain) →
    ∀ e, (s.insert batch).result = .error e → e = .duplicateKeyBlob ∨
      e = .full ∧ 9223372036854775807 < s.db.lastId + batch.length
  kept : (s.insert batch).result = .ok () →
    (∀ key ∈ batch, ∀ t ∈ key.times,
      Timestamp.minClock ≤ t.instant ∧ t.instant ≤ Timestamp.maxClock) →
      ∃ new, List.Forall₂ AttestationKey.KeptAs batch new ∧ (s.insert batch).store.keys.result =
        s.keys.result.map (· ++ AttestationKey.renumbered s.db.lastId new)
  fresh : ∀ id ∈ Database.empty.issued calls ++ s.db.rows.map (·.id), id ≤ s.db.lastId
  readable : (∀ row ∈ s.db.rows, ∀ millis ∈ row.millis, Timestamp.ofMillis? millis ≠ none) →
    ∃ keys, s.keys.result = .ok keys
  restored : ∀ keys, s.keys.result = .ok keys →
    s.db.lastId + keys.length ≤ 9223372036854775807 →
      s.clear.result = .ok keys.length ∧ (s.clear.store.insert keys).result = .ok () ∧
        (s.clear.store.insert keys).store.keys.result =
          .ok (AttestationKey.renumbered s.db.lastId keys)
  poisoned : batch ≠ [] →
    (∀ key ∈ batch, ∃ chain, CertificateChain.ofBytes key.chain = .ok chain) →
      insert { s with poisoned := true } batch = refuse { s with poisoned := true } .lockPoisoned

end Store

/-- After every run a store takes exactly the batches that it can, reads them back as they were but for
the fractions of times, and takes back what was read off it. -/
theorem inserting_spec (calls : List StoreCall) (batch : List AttestationKey) :
    Store.InsertingSpec calls ⟨Database.empty.after calls, false⟩ batch := by
  have hn : (Database.empty.after calls).Numbered := Database.numbered_empty.after calls
  have hf := Database.fits_after calls
  refine ⟨?_, ?_, ?_, ?_, ?_, ?_, ?_, ?_⟩
  · refine (Store.insert_accepts_iff rfl (hn.lastUsed_eq ▸ hf.ids)).trans (and_congr_right fun _ => ?_)
    rw [← hn.lastUsed_eq]
    exact ⟨fun h => ⟨h.fresh, h.distinct, h.ids⟩, fun h => ⟨h.2.2, h.1, h.2.1⟩⟩
  · rintro before key after e rfl hbefore hkey
    exact Store.insert_invalid hbefore hkey
  · intro hv e he
    rw [← hn.lastUsed_eq]
    exact Store.insert_rejected rfl hv he
  · intro hok htimes
    have hshown : ∀ key ∈ batch, ∀ t ∈ key.times, t.isBeyondCalendar = false := by
      intro key hkey t ht
      have hbounds := htimes key hkey t ht
      rw [← Bool.not_eq_true, Timestamp.isBeyondCalendar_iff]
      omega
    obtain ⟨new, hreads, hkept⟩ := KeyRow.exists_readsAs hshown
    exact ⟨new, hkept, Store.keys_insert hn rfl hok hreads⟩
  · intro id hid
    rcases List.mem_append.mp hid with hissued | hrow
    · exact Database.issued_le calls Database.numbered_empty id hissued
    · obtain ⟨row, hmem, rfl⟩ := List.mem_map.mp hrow
      exact hn.bounded row hmem
  · exact Store.exists_keys (StoreCall.written_after calls) rfl
  · intro keys hkeys hroom
    have hlength := (Store.keys_eq_ok.mp hkeys).2.length_eq
    refine ⟨hlength ▸ Store.clear_ok rfl, ?_⟩
    exact Store.insert_restores hf (Database.admitted_after calls) rfl hkeys hroom
  · intro hne hv
    have hnone := Store.firstInvalid?_eq_none.mpr hv
    simp [Store.insert, hne, hnone]

/-! ## Runs that use up the ids -/

/-- A key comes in and goes again, `n` times. -/
def givingIds : Nat → List StoreCall
  | 0 => []
  | n + 1 => givingIds n ++ [⟨.insert [.ending .epoch], false⟩, ⟨.clear, false⟩]

/-- It leaves nothing behind but the greatest id. -/
theorem after_givingIds {n : Nat} (h : n ≤ 9223372036854775807) :
    Database.empty.after (givingIds n) = { Database.empty with lastId := n } := by
  induction n with
  | zero => rfl
  | succ n ih =>
      have haccepts : Database.Accepts { Database.empty with lastId := n } [.ending .epoch] := by
        refine ⟨?_, fun _ _ _ hrow => absurd hrow List.not_mem_nil, by simp⟩
        change (n : Int) + 1 ≤ 9223372036854775807
        omega
      have hinsert := StoreCall.next_insert_selfSigned (List.cons_ne_nil _ _)
        (by simp [AttestationKey.ending])
        ((Database.insertAll_eq_ok (List.cons_ne_nil _ _)).mpr ⟨haccepts, rfl⟩)
      rw [givingIds, Database.after_append, ih (by omega), Database.after_cons, hinsert]
      rfl

/-- Once all ids are given a store without rows takes no key, and through a poisoned handle it takes
none from the first. The key is one that it would take otherwise. -/
theorem inserting_exceptions :
    (Store.insert ⟨Database.empty.after (givingIds 9223372036854775807), false⟩
        [.ending .epoch]).result = .error .full ∧
      (Store.insert ⟨Database.empty.after [], true⟩ [.ending .epoch]).result = .error .lockPoisoned ∧
      (Database.empty.after (givingIds 9223372036854775807)).rows = [] ∧
      (∃ chain, CertificateChain.ofBytes (AttestationKey.ending .epoch).chain = .ok chain) ∧
      ∀ t ∈ (AttestationKey.ending .epoch).times,
        Timestamp.minClock ≤ t.instant ∧ t.instant ≤ Timestamp.maxClock := by
  obtain ⟨chain, hchain, -⟩ := CertificateChain.ofBytes_selfSigned
  have hvalid : Store.firstInvalid? [.ending .epoch] = none := by
    refine Store.firstInvalid?_eq_none.mpr ?_
    simpa [AttestationKey.ending] using ⟨chain, hchain⟩
  have hempty : Database.empty.after (givingIds 9223372036854775807) =
      { Database.empty with lastId := 9223372036854775807 } := after_givingIds le_rfl
  rw [hempty]
  refine ⟨?_, ?_, rfl, ⟨chain, hchain⟩, ?_⟩
  · simp only [Store.insert, List.cons_ne_nil, ite_false, hvalid, Bool.false_eq_true]
    rfl
  · simp only [Store.insert, List.cons_ne_nil, ite_false, hvalid, ite_true]
    rfl
  · simp [AttestationKey.times, AttestationKey.ending]
    decide

end KeyPool
