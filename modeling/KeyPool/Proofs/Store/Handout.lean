import KeyPool.Proofs.Store.History
import KeyPool.Proofs.Store.Refusal

/-! Over a whole run, a row is handed to one holder only, keeps what it holds, and keeps its id for
itself even after it is gone. -/

namespace KeyPool

/-- Whom a key is for: a client of a component. -/
structure Holder where
  component : String
  client : Int32
  irpc : Int32
  deriving DecidableEq

namespace KeyRow

def isHeldBy (holder : Holder) (row : KeyRow) : Bool :=
  row.isBoundTo holder.component holder.client holder.irpc

theorem isHeldBy_iff (holder : Holder) (row : KeyRow) :
    row.isHeldBy holder = true ↔
      row.component = .text holder.component ∧ row.client = .integer holder.client.toInt ∧
        row.irpc = .integer holder.irpc.toInt := by
  simp [isHeldBy, isBoundTo, and_assoc]

theorem holder_unique {row : KeyRow} {h h' : Holder} (hh : row.isHeldBy h = true)
    (hh' : row.isHeldBy h' = true) : h = h' := by
  obtain ⟨hc, hu, hi⟩ := (isHeldBy_iff h row).mp hh
  obtain ⟨hc', hu', hi'⟩ := (isHeldBy_iff h' row).mp hh'
  rw [hc] at hc'
  rw [hu] at hu'
  rw [hi] at hi'
  obtain ⟨component, client, irpc⟩ := h
  obtain ⟨component', client', irpc'⟩ := h'
  obtain rfl : component = component' := Cell.text.inj hc'
  obtain rfl : client = client' := Int32.toInt_inj.mp (Cell.integer.inj hu')
  obtain rfl : irpc = irpc' := Int32.toInt_inj.mp (Cell.integer.inj hi')
  rfl

theorem client_ne_null_of_isHeldBy {row : KeyRow} {h : Holder} (hh : row.isHeldBy h = true) :
    row.client ≠ .null := by
  rw [((isHeldBy_iff h row).mp hh).2.1]
  exact Cell.noConfusion

theorem assign_isHeldBy {component : String} {row : KeyRow} (h : row.component = .text component)
    (client irpc : Int32) (millis : Int) :
    (row.assign client irpc millis).isHeldBy ⟨component, client, irpc⟩ = true :=
  (isHeldBy_iff _ _).mpr ⟨h, rfl, rfl⟩

/-- A row that was bound reads as its key does, with the assignment. -/
theorem toKey_assign {row : KeyRow} {key : AttestationKey} (h : row.toKey = .ok key)
    {millis : Int} {since : Timestamp} (ht : Timestamp.ofMillis? millis = some since)
    (client irpc : Int32) : (row.assign client irpc millis).toKey =
      .ok { key with assignment := some ⟨client, irpc, since⟩ } := by
  obtain ⟨assignment, ha, h⟩ := bind_eq_ok.mp h
  have hassigned : (row.assign client irpc millis).readAssignment =
      .ok (some ⟨client, irpc, since⟩) := by
    rw [readAssignment_assign, readTime, ht]
    rfl
  obtain ⟨keyBlob, hb, h⟩ := bind_eq_ok.mp h
  obtain ⟨component, hc, h⟩ := bind_eq_ok.mp h
  obtain ⟨publicKey, hp, h⟩ := bind_eq_ok.mp h
  obtain ⟨chain, hn, h⟩ := bind_eq_ok.mp h
  obtain ⟨stop, hm, h⟩ := bind_eq_ok.mp h
  obtain ⟨expiration, he, h⟩ := bind_eq_ok.mp h
  cases h
  rw [toKey, hassigned]
  simp [assign, hb, hc, hp, hn, hm, he, bind, Except.bind, pure, Except.pure]

theorem mem_of_latest_step (rows : List KeyRow) (best : Option KeyRow) {row : KeyRow}
    (h : rows.foldl (fun best row =>
      match best with
      | none => some row
      | some b => if row.isLaterThan b then some row else some b) best = some row) :
    row ∈ rows ∨ best = some row := by
  induction rows generalizing best with
  | nil => exact .inr h
  | cons first rows ih =>
      rw [List.foldl_cons] at h
      rcases ih _ h with hrow | hbest
      · exact .inl (List.mem_cons_of_mem first hrow)
      · cases best with
        | none =>
            obtain rfl := Option.some.inj hbest
            exact .inl List.mem_cons_self
        | some b =>
            simp only at hbest
            split at hbest
            · obtain rfl := Option.some.inj hbest
              exact .inl List.mem_cons_self
            · exact .inr hbest

theorem mem_of_latest?_eq_some {rows : List KeyRow} {row : KeyRow}
    (h : latest? rows = some row) : row ∈ rows := by
  rcases mem_of_latest_step rows none h with hrow | hnone
  · exact hrow
  · cases hnone

end KeyRow

/-- Whom a call is made for, where it is made for someone. -/
def StoreOperation.holder? : StoreOperation → Option Holder
  | assign component _ client irpc => some ⟨component, client, irpc⟩
  | lookup component client irpc => some ⟨component, client, irpc⟩
  | _ => none

namespace StoreRecord

/-- The holder that a call was made for and the id of the key it returned, if it returned one. -/
def handed? (r : StoreRecord) : Option (Holder × Int) :=
  match r.call.operation.holder?, r.result with
  | some holder, .ok (.key (some key)) => key.id.map fun id => (holder, id)
  | _, _ => none

theorem handed?_eq_some {r : StoreRecord} {holder : Holder} {id : Int}
    (h : r.handed? = some (holder, id)) :
    ∃ key, r.call.operation.holder? = some holder ∧ r.result = .ok (.key (some key)) ∧
      key.id = some id := by
  unfold handed? at h
  split at h
  · rename_i found key hholder hresult
    obtain ⟨n, hid, hpair⟩ := Option.map_eq_some_iff.mp h
    cases hpair
    exact ⟨key, hholder, hresult, hid⟩
  · cases h

end StoreRecord

/-! ## What is handed out -/

namespace Store

/-- An assignment that returns a key leaves a row that reads as this key with the caller, and the row
is not expired. -/
theorem assign_leaves {s : Store} {component : String} {now : Timestamp} {client irpc : Int32}
    {key : AttestationKey} (h : (s.assign component now client irpc).result = .ok (some key)) :
    ∃ row ∈ (s.assign component now client irpc).store.db.rows,
      row.isHeldBy ⟨component, client, irpc⟩ = true ∧ row.toKey = .ok key ∧
        row.expiration.isAtLeast now.toMillis = true := by
  have ha := s.assign_assigning component now client irpc
  generalize s.assign component now client irpc = outcome at h ha ⊢
  cases ha with
  | held row hh =>
      obtain ⟨hrow, hbound, hlive⟩ := Database.firstLive?_eq_some hh
      obtain ⟨found, hfound, hkey⟩ := map_eq_ok.mp h
      obtain rfl := Option.some.inj hkey
      exact ⟨row, hrow, hbound, hfound, hlive⟩
  | bound row found since hh hc hk ht =>
      obtain ⟨hrow, hfree, hlive⟩ := Database.firstLive?_eq_some hc
      obtain rfl := Option.some.inj (Except.ok.inj h)
      refine ⟨row.assign client irpc now.toMillis, ?_,
        KeyRow.assign_isHeldBy (KeyRow.client_of_isFree hfree).1 client irpc _,
        KeyRow.toKey_assign hk ht client irpc, hlive⟩
      exact List.mem_map.mpr ⟨row, hrow, by simp⟩
  | _ => cases h

theorem lookup_hands {s : Store} {component : String} {client irpc : Int32}
    {key : AttestationKey} (h : (s.lookup component client irpc).result = .ok (some key)) :
    ∃ row ∈ s.db.rows, key.id = some row.id ∧ row.isHeldBy ⟨component, client, irpc⟩ = true := by
  unfold lookup query at h
  split at h
  · cases h
  · simp only at h
    split at h
    · cases h
    · rename_i row hlatest
      obtain ⟨hrow, hbound⟩ := List.mem_filter.mp (KeyRow.mem_of_latest?_eq_some hlatest)
      obtain ⟨found, hfound, hkey⟩ := map_eq_ok.mp h
      obtain rfl := Option.some.inj hkey
      exact ⟨row, hrow, (KeyRow.toKey_eq_ok hfound).2.1, hbound⟩

end Store

namespace StoreCall

/-- A call that returns a key leaves a row of its id with the holder it was made for. -/
theorem record_hands {call : StoreCall} {db : Database} {holder : Holder} {id : Int}
    (h : (call.record db).handed? = some (holder, id)) :
    ∃ row ∈ (call.next db).rows, row.id = id ∧ row.isHeldBy holder = true := by
  obtain ⟨key, hholder, hresult, hid⟩ := StoreRecord.handed?_eq_some h
  obtain ⟨op, poisoned⟩ := call
  have hans {o : Store.Outcome (Option AttestationKey)}
      (h : (o.map StoreAnswer.key).result = .ok (.key (some key))) : o.result = .ok (some key) := by
    obtain ⟨found, hfound, hkey⟩ := map_eq_ok.mp h
    rw [hfound, StoreAnswer.key.inj hkey]
  cases op with
  | assign component now client irpc =>
      obtain rfl := Option.some.inj hholder
      obtain ⟨row, hrow, hheld, hkey, -⟩ := Store.assign_leaves (hans hresult)
      exact ⟨row, hrow, Option.some.inj ((KeyRow.toKey_eq_ok hkey).2.1.symm.trans hid), hheld⟩
  | lookup component client irpc =>
      obtain rfl := Option.some.inj hholder
      obtain ⟨row, hrow, hkey, hheld⟩ := Store.lookup_hands (hans hresult)
      refine ⟨row, ?_, Option.some.inj (hkey.symm.trans hid), hheld⟩
      change row ∈ (Store.lookup ⟨db, poisoned⟩ component client irpc).store.db.rows
      rw [Store.lookup, StoreOperation.query_store]
      exact hrow
  | _ => cases hholder

end StoreCall

/-! ## Handing out over a run -/

/-- What was handed out before still agrees with the tables: the row of each id, if it is there, is
held by whom it was handed to. -/
structure Database.Agrees (db : Database) (handed : List (Holder × Int)) : Prop where
  bounded : ∀ p ∈ handed, p.2 ≤ db.lastId
  held : ∀ p ∈ handed, ∀ row ∈ db.rows, row.id = p.2 → row.isHeldBy p.1 = true

def OneHolder (handed : List (Holder × Int)) : Prop :=
  ∀ p ∈ handed, ∀ q ∈ handed, p.2 = q.2 → p.1 = q.1

namespace Database

variable {db : Database} {handed : List (Holder × Int)}

theorem Agrees.leads {db' : Database} (ha : db.Agrees handed) (hl : db.Leads db') :
    db'.Agrees handed := by
  refine ⟨fun p hp => (ha.bounded p hp).trans hl.lastId_le, ?_⟩
  intro p hp later hlater hid
  obtain ⟨row, hrow, hr⟩ := hl.origin later hlater (hid ▸ ha.bounded p hp)
  have hheld := ha.held p hp row hrow (hr.id_eq.symm.trans hid)
  -- a row that is held has a client, and such a row stays as it is
  rw [hr.eq_of_client (KeyRow.client_ne_null_of_isHeldBy hheld)]
  exact hheld

/-- Handing out a row that its holder has keeps agreement, and the row was not handed to another. -/
theorem Agrees.hand (ha : db.Agrees handed) (hn : db.Numbered) (ho : OneHolder handed)
    {holder : Holder} {row : KeyRow} (hrow : row ∈ db.rows) (hh : row.isHeldBy holder = true) :
    db.Agrees (handed ++ [(holder, row.id)]) ∧ OneHolder (handed ++ [(holder, row.id)]) := by
  have hsame : ∀ p ∈ handed, p.2 = row.id → p.1 = holder := by
    intro p hp hid
    exact KeyRow.holder_unique (ha.held p hp row hrow hid.symm) hh
  refine ⟨⟨?_, ?_⟩, ?_⟩
  · intro p hp
    rcases List.mem_append.mp hp with hp | hp
    · exact ha.bounded p hp
    · obtain rfl := List.mem_singleton.mp hp
      exact hn.bounded row hrow
  · intro p hp other hother hid
    rcases List.mem_append.mp hp with hp | hp
    · exact ha.held p hp other hother hid
    · obtain rfl := List.mem_singleton.mp hp
      rw [hn.eq_of_id_eq hother hrow hid]
      exact hh
  · intro p hp q hq hid
    rcases List.mem_append.mp hp with hp | hp <;> rcases List.mem_append.mp hq with hq | hq
    · exact ho p hp q hq hid
    · obtain rfl := List.mem_singleton.mp hq
      exact hsame p hp hid
    · obtain rfl := List.mem_singleton.mp hp
      exact (hsame q hq hid.symm).symm
    · obtain rfl := List.mem_singleton.mp hp
      obtain rfl := List.mem_singleton.mp hq
      rfl

def handouts (db : Database) (calls : List StoreCall) : List (Holder × Int) :=
  (db.history calls).filterMap StoreRecord.handed?

theorem oneHolder_handouts (calls : List StoreCall) (hn : db.Numbered) (ha : db.Agrees handed)
    (ho : OneHolder handed) : OneHolder (handed ++ db.handouts calls) := by
  -- carried along: what was handed out so far agrees with the tables
  induction calls generalizing db handed with
  | nil => simpa [handouts, history] using ho
  | cons call calls ih =>
      have hn' := hn.change (call.next_change db)
      have ha' := ha.leads ((call.next_change db).leads hn)
      cases hr : (call.record db).handed? with
      | none =>
          simpa [handouts, history, hr] using ih hn' ha' ho
      | some p =>
          obtain ⟨holder, id⟩ := p
          obtain ⟨row, hrow, rfl, hh⟩ := StoreCall.record_hands hr
          obtain ⟨ha'', ho''⟩ := ha'.hand hn' ho hrow hh
          simpa [handouts, history, hr] using ih hn' ha'' ho''

end Database

/-! ## Ids given over a run -/

namespace KeyRow

theorem numbered_eq_zipWith (last : Int) (keys : List AttestationKey) :
    numbered last keys = List.zipWith ofKey ((numbered last keys).map (·.id)) keys := by
  induction keys generalizing last with
  | nil => rfl
  | cons key keys ih =>
      rw [numbered, List.map_cons, List.zipWith_cons_cons, ← ih, ofKey_id]

end KeyRow

/-- The ids that a call gave to rows, in the order of the table. -/
def StoreRecord.given (r : StoreRecord) : List Int :=
  (r.after.rows.map (·.id)).filter fun id => id ∉ r.before.rows.map (·.id)

def Database.issued (db : Database) (calls : List StoreCall) : List Int :=
  (db.history calls).flatMap StoreRecord.given

namespace StoreCall

variable {db : Database}

theorem given_of_append {call : StoreCall} {keys : List AttestationKey}
    (h : call.next db = db.append keys) :
    (call.record db).given = (KeyRow.numbered db.lastUsed keys).map (·.id) := by
  have hold : (db.rows.map (·.id)).filter (fun id => id ∉ db.rows.map (·.id)) = [] :=
    List.filter_eq_nil_iff.mpr fun id hid => by simpa using hid
  have hnew : ∀ id ∈ (KeyRow.numbered db.lastUsed keys).map (·.id),
      id ∉ db.rows.map (·.id) := by
    intro id hid hmem
    obtain ⟨row, hrow, rfl⟩ := List.mem_map.mp hid
    obtain ⟨other, hother, hsame⟩ := List.mem_map.mp hmem
    have hlow := db.id_le_lastUsed hother
    have hhigh := (KeyRow.numbered_bounds _ keys row hrow).1
    omega
  change ((call.next db).rows.map (·.id)).filter (fun id => id ∉ db.rows.map (·.id)) = _
  rw [h, Database.append, List.map_append, List.filter_append, hold, List.nil_append]
  exact List.filter_eq_self.mpr fun id hid => by simpa using hnew id hid

theorem given_eq_nil {call : StoreCall}
    (h : ∀ later ∈ (call.next db).rows, ∃ row ∈ db.rows, row.Becomes later) :
    (call.record db).given = [] := by
  refine List.filter_eq_nil_iff.mpr ?_
  intro id hid
  obtain ⟨later, hlater, rfl⟩ := List.mem_map.mp hid
  obtain ⟨row, hrow, hr⟩ := h later hlater
  have hmem : later.id ∈ db.rows.map (·.id) := List.mem_map.mpr ⟨row, hrow, hr.id_eq.symm⟩
  simpa [record] using hmem

/-- The ids that one call gives are new, in ascending order. -/
theorem given_ascending (call : StoreCall) (h : db.Numbered) :
    (call.record db).given.Pairwise (· < ·) ∧
      ∀ id ∈ (call.record db).given, db.lastId < id ∧ id ≤ (call.next db).lastId := by
  rcases (call.next_change db).rows_origin h with ⟨keys, -, happend⟩ | ⟨-, horigin⟩
  · rw [given_of_append happend, happend]
    refine ⟨List.pairwise_map.mpr (KeyRow.numbered_ascending _ keys), ?_⟩
    intro id hid
    obtain ⟨row, hrow, rfl⟩ := List.mem_map.mp hid
    rw [← h.lastUsed_eq]
    exact KeyRow.numbered_bounds _ keys row hrow
  · rw [given_eq_nil horigin]
    exact ⟨.nil, fun _ hid => absurd hid List.not_mem_nil⟩

end StoreCall

namespace Database

variable {db : Database}

theorem issued_ascending (calls : List StoreCall) (h : db.Numbered) :
    (db.issued calls).Pairwise (· < ·) ∧ ∀ id ∈ db.issued calls, db.lastId < id := by
  induction calls generalizing db with
  | nil => exact ⟨.nil, fun _ hid => absurd hid List.not_mem_nil⟩
  | cons call calls ih =>
      obtain ⟨hfirst, hbounds⟩ := call.given_ascending h
      obtain ⟨hrest, hlater⟩ := ih (h.change (call.next_change db))
      have hlead := ((call.next_change db).leads h).lastId_le
      change (_ ++ (call.next db).issued calls).Pairwise (· < ·) ∧
        ∀ id ∈ _ ++ (call.next db).issued calls, db.lastId < id
      refine ⟨List.pairwise_append.mpr ⟨hfirst, hrest, ?_⟩, ?_⟩
      · intro a ha b hb
        exact (hbounds a ha).2.trans_lt (hlater b hb)
      · intro id hid
        rcases List.mem_append.mp hid with hid | hid
        · exact (hbounds id hid).1
        · exact hlead.trans_lt (hlater id hid)

end Database

/-! ## The contract of a run -/

theorem Store.insert_ok {s : Store} {batch : List AttestationKey} (h : s.db.Numbered)
    (hok : (s.insert batch).result = .ok ()) : (s.insert batch).store.db = s.db.append batch := by
  rw [insert_eq_ok hok]
  by_cases hnil : batch = []
  · subst hnil
    change s.db = { s.db with rows := s.db.rows ++ [], lastId := s.db.lastUsed + 0 }
    rw [List.append_nil, add_zero, h.lastUsed_eq]
  · rw [s.add_of_ne_nil hnil]

namespace StoreCall

variable {db : Database}

theorem next_of_insert {call : StoreCall} {keys : List AttestationKey} (h : db.Numbered)
    (hop : call.operation = .insert keys) (hok : (call.perform db).result = .ok .done) :
    call.next db = db.append keys := by
  obtain ⟨op, poisoned⟩ := call
  obtain rfl : op = .insert keys := hop
  obtain ⟨_, hinsert, -⟩ := map_eq_ok.mp hok
  exact Store.insert_ok (s := ⟨db, poisoned⟩) h hinsert

theorem given_eq_nil_of_refused {call : StoreCall} (h : db.Numbered)
    (hno : ∀ keys, call.operation = .insert keys → (call.perform db).result ≠ .ok .done) :
    (call.record db).given = [] := by
  rcases (call.next_change db).rows_origin h with ⟨keys, hop, -⟩ | ⟨-, horigin⟩
  · obtain ⟨op, poisoned⟩ := call
    obtain rfl : op = .insert keys := hop
    cases hr : (Store.insert ⟨db, poisoned⟩ keys).result with
    | ok answer =>
        refine absurd ?_ (hno keys rfl)
        change Except.map _ (Store.insert ⟨db, poisoned⟩ keys).result = _
        rw [hr]
        rfl
    | error e =>
        have hsame : (StoreCall.mk (.insert keys) poisoned).next db = db :=
          congrArg Store.db (Store.insert_refused hr)
        refine given_eq_nil ?_
        rw [hsame]
        exact fun later hlater => ⟨later, hlater, .same⟩
  · exact given_eq_nil horigin

end StoreCall

/-- What holds of rows and ids over any run from an empty store, whatever its calls and handles. A row
is handed out, or looked up, for one holder only. One that is there at two times is the same at both,
or was unbound and then bound, and the id of one that is gone never comes back. Ids ascend in the order
in which they are given. An answered insertion puts its keys behind all rows, in order, under the ids
it gives, and no other call gives ids. -/
structure HandoutSpec (calls : List StoreCall) : Prop where
  one_holder : OneHolder (Database.empty.handouts calls)
  settled : ∀ earlier later, earlier ++ later = calls →
    ∀ row ∈ (Database.empty.after earlier).rows, ∀ last ∈ (Database.empty.after calls).rows,
      last.id = row.id → row.Becomes last
  gone : ∀ earlier middle later, earlier ++ middle ++ later = calls →
    ∀ row ∈ (Database.empty.after earlier).rows,
      (∀ other ∈ (Database.empty.after (earlier ++ middle)).rows, other.id ≠ row.id) →
        ∀ last ∈ (Database.empty.after calls).rows, last.id ≠ row.id
  ascending : (Database.empty.issued calls).Pairwise (· < ·)
  inserted : ∀ r ∈ Database.empty.history calls, ∀ keys, r.call.operation = .insert keys →
    r.result = .ok .done → r.given.length = keys.length ∧
      r.after.rows = r.before.rows ++ List.zipWith KeyRow.ofKey r.given keys
  refused : ∀ r ∈ Database.empty.history calls,
    (∀ keys, r.call.operation = .insert keys → r.result ≠ .ok .done) → r.given = []

theorem handout_spec (calls : List StoreCall) : HandoutSpec calls := by
  have hnumbered (earlier : List StoreCall) : (Database.empty.after earlier).Numbered :=
    Database.numbered_empty.after earlier
  refine ⟨?_, ?_, ?_, ?_, ?_, ?_⟩
  · have hnone : Database.empty.Agrees [] :=
      ⟨fun _ hp => absurd hp List.not_mem_nil, fun _ hp => absurd hp List.not_mem_nil⟩
    simpa using Database.oneHolder_handouts calls Database.numbered_empty hnone
      fun _ hp => absurd hp List.not_mem_nil
  · rintro earlier later rfl row hrow last hlast hid
    have hl := Database.leads_after (hnumbered earlier) later
    rw [Database.after_append] at hlast
    obtain ⟨origin, horigin, hbecomes⟩ :=
      hl.origin last hlast (hid ▸ (hnumbered earlier).bounded row hrow)
    obtain rfl := (hnumbered earlier).eq_of_id_eq horigin hrow (hbecomes.id_eq.symm.trans hid)
    exact hbecomes
  · rintro earlier middle later rfl row hrow hgone last hlast hid
    have hmiddle := Database.leads_after (hnumbered earlier) middle
    have hlater := Database.leads_after (hnumbered (earlier ++ middle)) later
    rw [← Database.after_append] at hmiddle
    rw [Database.after_append] at hlast
    -- an id up to the last one given in between can only come from a row that was there in between
    have hbound : last.id ≤ (Database.empty.after (earlier ++ middle)).lastId := by
      rw [hid]
      exact ((hnumbered earlier).bounded row hrow).trans hmiddle.lastId_le
    obtain ⟨origin, horigin, hbecomes⟩ := hlater.origin last hlast hbound
    exact hgone origin horigin (hbecomes.id_eq.symm.trans hid)
  · exact (Database.issued_ascending calls Database.numbered_empty).1
  · intro r hr keys hop hok
    obtain ⟨earlier, call, later, -, rfl⟩ := Database.exists_of_mem_history hr
    have hnext : call.next (Database.empty.after earlier) =
        (Database.empty.after earlier).append keys :=
      StoreCall.next_of_insert (hnumbered earlier) hop hok
    rw [StoreCall.given_of_append hnext, List.length_map, KeyRow.length_numbered,
      ← KeyRow.numbered_eq_zipWith]
    exact ⟨rfl, congrArg Database.rows hnext⟩
  · intro r hr hno
    obtain ⟨earlier, call, later, -, rfl⟩ := Database.exists_of_mem_history hr
    exact StoreCall.given_eq_nil_of_refused (hnumbered earlier) hno

end KeyPool
