import KeyPool.Proofs.Store.Binding
import KeyPool.Proofs.Store.Reading
import KeyPool.Provisioning.Assigner

/-! The free keys of a component go one by one to the clients that hold none, in the order of the table
and down to the last one. Which keys go out depends on how many clients ask, not on who asks first. -/

namespace KeyPool

/-! ## Free keys -/

namespace Database

variable {db : Database} {component : String} {now : Timestamp} {row : KeyRow} {rest : List KeyRow}

/-- The free rows of a component that are not expired, in the order of the table. -/
def spare (db : Database) (component : String) (now : Timestamp) : List KeyRow :=
  db.rows.filter fun row => row.isFree component && row.expiration.isAtLeast now.toMillis

theorem firstLive?_isFree (db : Database) (component : String) (now : Timestamp) :
    db.firstLive? (·.isFree component) now.toMillis = (db.spare component now).head? :=
  List.head?_filter.symm

theorem firstLive?_eq_none_iff {test : KeyRow → Bool} {millis : Int} :
    db.firstLive? test millis = none ↔
      ∀ row ∈ db.rows, test row = true → row.expiration.isAtLeast millis = false := by
  simp [firstLive?]

theorem mem_spare : row ∈ db.spare component now ↔ row ∈ db.rows ∧ row.isFree component = true ∧
    row.expiration.isAtLeast now.toMillis = true := by
  simp [spare]

/-- Binding a row leaves the rows on both sides of it. -/
theorem Numbered.rows_update (h : db.Numbered) {before after : List KeyRow}
    (hrows : db.rows = before ++ row :: after) (client irpc : Int32) (millis : Int) :
    (db.update row.id (KeyRow.assign client irpc millis)).rows =
      before ++ row.assign client irpc millis :: after := by
  have hascending := h.ascending
  rw [hrows] at hascending
  obtain ⟨-, hafter, hbefore⟩ := List.pairwise_append.mp hascending
  have hother (rows : List KeyRow) (hne : ∀ other ∈ rows, other.id ≠ row.id) :
      rows.map (fun other => if other.id = row.id then other.assign client irpc millis else other) =
        rows := by
    conv_rhs => rw [← List.map_id rows]
    apply List.map_congr_left
    intro other hmem
    simp [hne other hmem]
  simp only [Database.update, hrows, List.map_append, List.map_cons, ite_true]
  rw [hother before, hother after]
  · intro other hmem
    exact ne_of_gt ((List.pairwise_cons.mp hafter).1 other hmem)
  · intro other hmem
    exact ne_of_lt (hbefore other hmem row List.mem_cons_self)

/-- Binding the first spare row leaves the others spare. -/
theorem Numbered.spare_update (h : db.Numbered) (hspare : db.spare component now = row :: rest)
    (client irpc : Int32) (millis : Int) :
    (db.update row.id (KeyRow.assign client irpc millis)).spare component now = rest := by
  obtain ⟨before, after, hrows, hbefore, -, hafter⟩ := List.filter_eq_cons_iff.mp hspare
  have hbound : (row.assign client irpc millis).isFree component = false := by
    simp [KeyRow.isFree, KeyRow.assign]
  rw [spare, h.rows_update hrows, List.filter_append, List.filter_eq_nil_iff.mpr hbefore,
    List.filter_cons, hbound, hafter]
  rfl

/-- How many free rows of a component reach a time but not a later one. -/
def lapsed (db : Database) (component : String) (t now : Timestamp) : Nat :=
  db.rows.countP fun row => (row.isFree component && row.expiration.isAtLeast t.toMillis) &&
    !row.expiration.isAtLeast now.toMillis

/-- What the assignments of a component at a time leave as it is: how many keys there are of each
component, the rows of the others, and the free rows that have lapsed. -/
structure Keeps (component : String) (now : Timestamp) (db db' : Database) : Prop where
  total : ∀ other, db'.rows.countP (·.component = .text other) =
    db.rows.countP (·.component = .text other)
  others : db'.rows.filter (·.component ≠ .text component) =
    db.rows.filter (·.component ≠ .text component)
  lapsed : ∀ t, db'.lapsed component t now = db.lapsed component t now

theorem Keeps.refl (component : String) (now : Timestamp) (db : Database) :
    Keeps component now db db :=
  ⟨fun _ => rfl, rfl, fun _ => rfl⟩

theorem Keeps.trans {db' db'' : Database} (h : Keeps component now db db')
    (h' : Keeps component now db' db'') : Keeps component now db db'' :=
  ⟨fun other => (h'.total other).trans (h.total other), h'.others.trans h.others,
    fun t => (h'.lapsed t).trans (h.lapsed t)⟩

theorem Keeps.update (h : db.Numbered) (hrow : row ∈ db.spare component now) (client irpc : Int32)
    (millis : Int) : Keeps component now db (db.update row.id (KeyRow.assign client irpc millis)) := by
  obtain ⟨hmem, hfree, hlive⟩ := mem_spare.mp hrow
  obtain ⟨before, after, hrows⟩ := List.append_of_mem hmem
  have hupdate := h.rows_update hrows client irpc millis
  have hcomponent := (KeyRow.client_of_isFree hfree).1
  constructor
  · intro other
    simp [hupdate, hrows, List.countP_cons, KeyRow.assign]
  · simp [hupdate, hrows, KeyRow.assign, hcomponent]
  · intro t
    simp [Database.lapsed, hupdate, hrows, KeyRow.assign, hlive]

theorem Keeps.change (h : db.Numbered) {client irpc : Int32} {db' : Database}
    (hc : db.Change (.assign component now client irpc) db') : Keeps component now db db' := by
  cases hc with
  | none => exact .refl component now db
  | assign component now client irpc row key hh hf =>
      exact .update h (mem_spare.mpr (firstLive?_eq_some hf)) client irpc now.toMillis

end Database

/-- Clients ask for a key of a component at one time, one after another. -/
def StoreCall.asking (component : String) (now : Timestamp) (clients : List (Int32 × Int32)) :
    List StoreCall :=
  clients.map fun p => ⟨.assign component now p.1 p.2, false⟩

def Database.asked (db : Database) (component : String) (now : Timestamp)
    (clients : List (Int32 × Int32)) : Store :=
  ⟨db.after (StoreCall.asking component now clients), false⟩

/-- That a client which asks is given a row: as a key that is bound to it from now on, in the answer and
in the table. -/
def Store.Gives (s : Store) (component : String) (now : Timestamp) (client irpc : Int32)
    (row : KeyRow) : Prop :=
  ∃ key since, row.toKey = .ok key ∧ Timestamp.ofMillis? now.toMillis = some since ∧
    s.assign component now client irpc =
      ⟨.ok (some { key with assignment := some ⟨client, irpc, since⟩ }),
        s.bind row.id client irpc now.toMillis, [.keyAssigned component client irpc row.id]⟩

namespace Database

variable {db : Database} {component : String} {now : Timestamp} {clients : List (Int32 × Int32)}

theorem Keeps.asked (h : db.Numbered) (component : String) (now : Timestamp)
    (clients : List (Int32 × Int32)) :
    Keeps component now db (db.asked component now clients).db := by
  have hboth : (db.asked component now clients).db.Numbered ∧
      Keeps component now db (db.asked component now clients).db := by
    refine after_invariant (P := fun db' => db'.Numbered ∧ Keeps component now db db') ?_
      ⟨h, .refl component now db⟩
    intro call hcall db' hdb'
    obtain ⟨p, -, rfl⟩ := List.mem_map.mp hcall
    have hchange := StoreCall.next_change ⟨.assign component now p.1 p.2, false⟩ db'
    exact ⟨hdb'.1.change hchange, hdb'.2.trans (.change hdb'.1 hchange)⟩
  exact hboth.2

/-! ## Clients that hold nothing -/

/-- Some clients are to be served: they differ, none of them holds an unexpired key of the component, and
each free one could be handed out. -/
structure Awaits (db : Database) (component : String) (now : Timestamp)
    (clients : List (Int32 × Int32)) : Prop where
  numbered : db.Numbered
  heeded : db.updatesIgnored = false
  readable : ∀ row ∈ db.spare component now, ∃ key since, row.toKey = .ok key ∧
    Timestamp.ofMillis? now.toMillis = some since
  distinct : clients.Nodup
  empty : ∀ p ∈ clients, ∀ row ∈ db.rows, row.isHeldBy ⟨component, p.1, p.2⟩ = true →
    row.expiration.isAtLeast now.toMillis = false

namespace Awaits

variable {client irpc : Int32} {row : KeyRow} {rest : List KeyRow}

theorem firstLive?_eq_none (h : db.Awaits component now clients) (hmem : (client, irpc) ∈ clients) :
    db.firstLive? (·.isBoundTo component client irpc) now.toMillis = none :=
  firstLive?_eq_none_iff.mpr (h.empty (client, irpc) hmem)

/-- Where keys are spare, the client is given the first one. -/
theorem assign_gives (h : db.Awaits component now clients) (hmem : (client, irpc) ∈ clients)
    (hspare : db.spare component now = row :: rest) :
    Store.Gives ⟨db, false⟩ component now client irpc row := by
  obtain ⟨key, since, hkey, hsince⟩ := h.readable row (by simp [hspare])
  have hheld := h.firstLive?_eq_none hmem
  have hfree := db.firstLive?_isFree component now
  rw [hspare, List.head?_cons] at hfree
  unfold firstLive? at hheld hfree
  refine ⟨key, since, hkey, hsince, ?_⟩
  simp [Store.assign, Store.bindRow, Store.bind, hheld, hfree, hkey, h.heeded, hsince]

theorem assign_gives_none (h : db.Awaits component now clients) (hmem : (client, irpc) ∈ clients)
    (hspare : db.spare component now = []) :
    Store.assign ⟨db, false⟩ component now client irpc = Store.answer ⟨db, false⟩ none := by
  have hheld := h.firstLive?_eq_none hmem
  have hfree := db.firstLive?_isFree component now
  rw [hspare, List.head?_nil] at hfree
  unfold firstLive? at hheld hfree
  simp [Store.assign, hheld, hfree]

/-- After a client was served, the others still are to be, from the keys that are left. -/
theorem next (h : db.Awaits component now ((client, irpc) :: clients)) :
    ((StoreCall.mk (.assign component now client irpc) false).next db).Awaits component now clients ∧
      ((StoreCall.mk (.assign component now client irpc) false).next db).spare component now =
        (db.spare component now).tail := by
  obtain ⟨hnew, hdistinct⟩ := List.nodup_cons.mp h.distinct
  have hnext : (StoreCall.mk (.assign component now client irpc) false).next db =
      (Store.assign ⟨db, false⟩ component now client irpc).store.db := rfl
  rw [hnext]
  cases hspare : db.spare component now with
  | nil =>
      rw [h.assign_gives_none List.mem_cons_self hspare]
      refine ⟨⟨h.numbered, h.heeded, h.readable, hdistinct, ?_⟩, hspare⟩
      intro p hp
      exact h.empty p (List.mem_cons_of_mem _ hp)
  | cons row rest =>
      obtain ⟨key, since, -, -, hassign⟩ := h.assign_gives List.mem_cons_self hspare
      have hleft := h.numbered.spare_update hspare client irpc now.toMillis
      obtain ⟨hrow, hfree, -⟩ := mem_spare.mp (hspare ▸ List.mem_cons_self : row ∈ db.spare component now)
      rw [hassign]
      refine ⟨⟨h.numbered.update row.id client irpc now.toMillis, h.heeded, ?_, hdistinct, ?_⟩, hleft⟩
      · intro other hother
        apply h.readable other
        rw [hspare]
        exact List.mem_cons_of_mem row (hleft ▸ hother)
      · intro p hp later hlater hheld
        rcases h.numbered.mem_update hrow hlater with ⟨hold, -⟩ | rfl
        · exact h.empty p (List.mem_cons_of_mem _ hp) later hold hheld
        · -- the row was bound to the client that is not among the others
          have hbound := KeyRow.assign_isHeldBy (KeyRow.client_of_isFree hfree).1 client irpc now.toMillis
          have hsame := KeyRow.holder_unique hheld hbound
          simp only [Holder.mk.injEq, true_and] at hsame
          obtain ⟨rfl, rfl⟩ := hsame
          exact absurd hp hnew

/-- Each client that has asked took one key from the front, as long as there were any. -/
theorem asked {earlier later : List (Int32 × Int32)} (h : db.Awaits component now (earlier ++ later)) :
    (db.asked component now earlier).db.Awaits component now later ∧
      (db.asked component now earlier).db.spare component now =
        (db.spare component now).drop earlier.length := by
  induction earlier generalizing db with
  | nil => exact ⟨h, rfl⟩
  | cons p earlier ih =>
      obtain ⟨client, irpc⟩ := p
      obtain ⟨hnext, hspare⟩ := Awaits.next h
      obtain ⟨hafter, hdrop⟩ := ih hnext
      refine ⟨hafter, ?_⟩
      rw [List.length_cons, ← List.drop_tail, ← hspare]
      exact hdrop

end Awaits

/-! ## Stores that were only used -/

end Database

end KeyPool
