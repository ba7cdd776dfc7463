import KeyPool.Proofs.Store.Call
import Mathlib.Data.List.Nodup

/-! Runs: calls one after another on the same tables, through any handles. Every run keeps the rows
numbered in ascending order, and a row that stays can only go from unbound to bound. -/

namespace KeyPool

/-- A call as it was made: what it found, answered and left. -/
structure StoreRecord where
  call : StoreCall
  before : Database
  result : Except StoreError StoreAnswer
  after : Database

def StoreCall.record (call : StoreCall) (db : Database) : StoreRecord :=
  ⟨call, db, (call.perform db).result, call.next db⟩

namespace Database

def after (db : Database) (calls : List StoreCall) : Database :=
  calls.foldl (fun db call => call.next db) db

def history : Database → List StoreCall → List StoreRecord
  | _, [] => []
  | db, call :: calls => call.record db :: history (call.next db) calls

@[simp] theorem after_cons (db : Database) (call : StoreCall) (calls : List StoreCall) :
    db.after (call :: calls) = (call.next db).after calls := rfl

theorem after_append (db : Database) (calls more : List StoreCall) :
    db.after (calls ++ more) = (db.after calls).after more :=
  List.foldl_append

/-- What every call of a run keeps, the run keeps. -/
theorem after_invariant {P : Database → Prop} {calls : List StoreCall}
    (step : ∀ call ∈ calls, ∀ db, P db → P (call.next db)) {db : Database} (h : P db) :
    P (db.after calls) := by
  induction calls generalizing db with
  | nil => exact h
  | cons call calls ih =>
      rw [after_cons]
      apply ih
      · intro c hc
        exact step c (List.mem_cons_of_mem call hc)
      · exact step call List.mem_cons_self db h

/-- Every record of a run is that of one of its calls, made after those before it. -/
theorem exists_of_mem_history {db : Database} {calls : List StoreCall} {r : StoreRecord}
    (h : r ∈ db.history calls) :
    ∃ earlier call later, calls = earlier ++ call :: later ∧
      r = call.record (db.after earlier) := by
  induction calls generalizing db with
  | nil => cases h
  | cons call calls ih =>
      rcases List.mem_cons.mp h with rfl | h
      · exact ⟨[], call, calls, rfl, rfl⟩
      · obtain ⟨earlier, c, later, rfl, rfl⟩ := ih h
        exact ⟨call :: earlier, c, later, rfl, rfl⟩

/-! ## Numbering -/

/-- Rows stand in ascending order of ids, and no id is past the last one given. -/
structure Numbered (db : Database) : Prop where
  ascending : db.rows.Pairwise fun a b => a.id < b.id
  bounded : ∀ row ∈ db.rows, row.id ≤ db.lastId

theorem numbered_empty : empty.Numbered :=
  ⟨.nil, fun _ h => absurd h List.not_mem_nil⟩

namespace Numbered

variable {db : Database}

theorem lastUsed_eq (h : db.Numbered) : db.lastUsed = db.lastId :=
  le_antisymm ((db.lastUsed_le_iff _).mpr ⟨le_rfl, h.bounded⟩) db.lastId_le_lastUsed

theorem eq_of_id_eq (h : db.Numbered) {a b : KeyRow} (ha : a ∈ db.rows) (hb : b ∈ db.rows)
    (hid : a.id = b.id) : a = b := by
  have hdistinct : (db.rows.map (·.id)).Nodup :=
    List.pairwise_map.mpr (h.ascending.imp fun hlt => ne_of_lt hlt)
  exact List.inj_on_of_nodup_map hdistinct ha hb hid

theorem append (h : db.Numbered) (keys : List AttestationKey) : (db.append keys).Numbered := by
  constructor
  · refine List.pairwise_append.mpr ⟨h.ascending, KeyRow.numbered_ascending _ keys, ?_⟩
    intro a ha b hb
    calc
      a.id ≤ db.lastUsed := db.id_le_lastUsed ha
      _ < b.id := (KeyRow.numbered_bounds _ keys b hb).1
  · intro row hrow
    calc
      row.id ≤ (db.append keys).lastUsed := (db.append keys).id_le_lastUsed hrow
      _ = (db.append keys).lastId := db.lastUsed_append keys

theorem filter (h : db.Numbered) (keep : KeyRow → Bool) (window : Option WindowRow) :
    ({ db with rows := db.rows.filter keep, window } : Database).Numbered :=
  ⟨h.ascending.filter _, fun row hrow => h.bounded row (List.mem_filter.mp hrow).1⟩

theorem update (h : db.Numbered) (id : Int) (client irpc : Int32) (millis : Int) :
    (db.update id (KeyRow.assign client irpc millis)).Numbered := by
  constructor
  · refine List.pairwise_map.mpr (h.ascending.imp ?_)
    intro a b hab
    simpa only [apply_ite KeyRow.id, KeyRow.assign_id, ite_self] using hab
  · intro row hrow
    obtain ⟨old, hold, rfl⟩ := List.mem_map.mp hrow
    rw [apply_ite KeyRow.id, KeyRow.assign_id, ite_self]
    exact h.bounded old hold

theorem mem_update (h : db.Numbered) {row : KeyRow} (hrow : row ∈ db.rows) {client irpc : Int32}
    {millis : Int} {later : KeyRow}
    (hlater : later ∈ (db.update row.id (KeyRow.assign client irpc millis)).rows) :
    (later ∈ db.rows ∧ later.id ≠ row.id) ∨ later = row.assign client irpc millis := by
  obtain ⟨old, hold, rfl⟩ := List.mem_map.mp hlater
  by_cases hid : old.id = row.id
  · obtain rfl := h.eq_of_id_eq hold hrow hid
    exact .inr (by simp)
  · rw [if_neg hid]
    exact .inl ⟨hold, hid⟩

theorem change (h : db.Numbered) {op : StoreOperation} {db' : Database} (hc : db.Change op db') :
    db'.Numbered := by
  cases hc with
  | none => exact h
  | insert keys => exact h.append keys
  | assign component now client irpc row => exact h.update row.id client irpc now.toMillis
  | clear => exact ⟨.nil, fun _ hrow => absurd hrow List.not_mem_nil⟩
  | expire cutoff => exact h.filter _ db.window
  | purge window => exact h.filter _ _

theorem after (h : db.Numbered) (calls : List StoreCall) : (db.after calls).Numbered :=
  after_invariant (fun call _ db hdb => hdb.change (call.next_change db)) h

end Numbered

/-! ## What becomes of a row -/

end Database

namespace KeyRow

/-- What a row can be later, as long as it is there: itself, or bound if it never was. A bound row
is no longer unbound, so this happens once at most. -/
inductive Becomes (row : KeyRow) : KeyRow → Prop where
  | same : Becomes row row
  | bound (client irpc : Int32) (millis : Int) (h : row.IsUnbound) :
      Becomes row (row.assign client irpc millis)

theorem Becomes.id_eq {row later : KeyRow} (h : row.Becomes later) : later.id = row.id := by
  cases h <;> rfl

theorem Becomes.eq_of_client {row later : KeyRow} (h : row.Becomes later)
    (hc : row.client ≠ .null) : later = row := by
  cases h with
  | same => rfl
  | bound client irpc millis h => exact absurd h.client hc

theorem Becomes.trans {row later last : KeyRow} (h : row.Becomes later)
    (h' : later.Becomes last) : row.Becomes last := by
  cases h with
  | same => exact h'
  | bound client irpc millis hu =>
      have hlast : last = row.assign client irpc millis := h'.eq_of_client (by simp [assign])
      exact hlast ▸ .bound client irpc millis hu

/-- A row that has no client and reads as a key has no other column of an assignment either. -/
theorem unbound_of_isFree {component : String} {row : KeyRow} {key : AttestationKey}
    (hf : row.isFree component = true) (hk : row.toKey = .ok key) : row.IsUnbound := by
  rcases readAssignment_eq_ok (toKey_eq_ok hk).1 with ⟨-, hu⟩ | ⟨a, millis, -, hclient, -⟩
  · exact hu
  · rw [(client_of_isFree hf).2] at hclient
    cases hclient

end KeyRow

namespace Database

variable {db db' : Database}

/-- An operation adds rows for keys, or else every row it leaves comes from one that was there. -/
theorem Change.rows_origin {op : StoreOperation} (hc : db.Change op db') (h : db.Numbered) :
    (∃ keys, op = .insert keys ∧ db' = db.append keys) ∨
      db'.lastId = db.lastId ∧ ∀ later ∈ db'.rows, ∃ row ∈ db.rows, row.Becomes later := by
  cases hc with
  | none => exact .inr ⟨rfl, fun row hrow => ⟨row, hrow, .same⟩⟩
  | insert keys => exact .inl ⟨keys, rfl, rfl⟩
  | assign component now client irpc row key hh hf hk =>
      refine .inr ⟨rfl, ?_⟩
      intro later hlater
      obtain ⟨hrow, hfree, -⟩ := firstLive?_eq_some hf
      rcases h.mem_update hrow hlater with ⟨hold, -⟩ | rfl
      · exact ⟨later, hold, .same⟩
      · exact ⟨row, hrow, .bound client irpc _ (KeyRow.unbound_of_isFree hfree hk)⟩
  | clear => exact .inr ⟨rfl, fun _ hrow => absurd hrow List.not_mem_nil⟩
  | expire cutoff =>
      exact .inr ⟨rfl, fun row hrow => ⟨row, (List.mem_filter.mp hrow).1, .same⟩⟩
  | purge window =>
      exact .inr ⟨rfl, fun row hrow => ⟨row, (List.mem_filter.mp hrow).1, .same⟩⟩

/-- The tables can become others: ids only grow, and a row under an id that was given before comes
from the row that had it. -/
structure Leads (db db' : Database) : Prop where
  lastId_le : db.lastId ≤ db'.lastId
  origin : ∀ later ∈ db'.rows, later.id ≤ db.lastId → ∃ row ∈ db.rows, row.Becomes later

theorem Leads.refl (db : Database) : db.Leads db :=
  ⟨le_rfl, fun row hrow _ => ⟨row, hrow, .same⟩⟩

theorem Leads.trans {db'' : Database} (h : db.Leads db') (h' : db'.Leads db'') :
    db.Leads db'' := by
  refine ⟨h.lastId_le.trans h'.lastId_le, ?_⟩
  intro last hlast hid
  obtain ⟨later, hlater, hl⟩ := h'.origin last hlast (hid.trans h.lastId_le)
  obtain ⟨row, hrow, hr⟩ := h.origin later hlater (hl.id_eq ▸ hid)
  exact ⟨row, hrow, hr.trans hl⟩

theorem leads_append (h : db.Numbered) (keys : List AttestationKey) :
    db.Leads (db.append keys) := by
  constructor
  · change db.lastId ≤ db.lastUsed + keys.length
    rw [h.lastUsed_eq]
    omega
  · intro later hlater hid
    rcases List.mem_append.mp hlater with hold | hnew
    · exact ⟨later, hold, .same⟩
    · have := (KeyRow.numbered_bounds _ keys later hnew).1
      rw [h.lastUsed_eq] at this
      omega

theorem Change.leads {op : StoreOperation} (hc : db.Change op db') (h : db.Numbered) :
    db.Leads db' := by
  rcases hc.rows_origin h with ⟨keys, -, rfl⟩ | ⟨hlast, horigin⟩
  · exact leads_append h keys
  · exact ⟨hlast.ge, fun later hlater _ => horigin later hlater⟩

theorem leads_after (h : db.Numbered) (calls : List StoreCall) : db.Leads (db.after calls) := by
  have hboth : (db.after calls).Numbered ∧ db.Leads (db.after calls) :=
    after_invariant (P := fun later => later.Numbered ∧ db.Leads later)
      (fun call _ later hlater =>
        ⟨hlater.1.change (call.next_change later),
          hlater.2.trans ((call.next_change later).leads hlater.1)⟩)
      ⟨h, .refl db⟩
  exact hboth.2

end Database

end KeyPool
