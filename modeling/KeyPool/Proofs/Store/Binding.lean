import KeyPool.Proofs.Store.Handout
import Mathlib

/-! A holder has one key at a time. The rows that are bound to one holder are bound over spans of
time that do not meet, in whatever order the clock was read. -/

namespace KeyPool

/-! ## Counting -/

theorem countP_le_one {α : Type} {R : α → α → Prop} {p : α → Bool} {l : List α}
    (hl : l.Pairwise R) (h : ∀ a ∈ l, ∀ b ∈ l, p a = true → p b = true → ¬ R a b) :
    l.countP p ≤ 1 := by
  induction hl with
  | nil => exact Nat.zero_le 1
  | cons hfirst hrest ih =>
      rename_i a l
      have htail := ih fun b hb c hc =>
        h b (List.mem_cons_of_mem a hb) c (List.mem_cons_of_mem a hc)
      by_cases ha : p a = true
      · have hnone : l.countP p = 0 := by
          refine List.countP_eq_zero.mpr ?_
          intro b hb hpb
          exact h a List.mem_cons_self b (List.mem_cons_of_mem a hb) ha hpb (hfirst b hb)
        rw [List.countP_cons_of_pos ha, hnone]
      · rw [List.countP_cons_of_neg ha]
        exact htail

/-- A reading of a whole list finds no more of a kind than the list has. -/
theorem countP_mapM_le {α β ε : Type} {f : α → Except ε β} {p : α → Bool} {q : β → Bool}
    {l : List α} {l' : List β} (hl : l.mapM f = .ok l')
    (h : ∀ a b, f a = .ok b → q b = true → p a = true) : l'.countP q ≤ l.countP p := by
  induction l generalizing l' with
  | nil =>
      cases hl
      exact le_rfl
  | cons a l ih =>
      rw [List.mapM_cons] at hl
      obtain ⟨b, hb, hl⟩ := bind_eq_ok.mp hl
      obtain ⟨rest, hrest, hl⟩ := bind_eq_ok.mp hl
      cases hl
      have htail := ih hrest
      by_cases hq : q b = true
      · rw [List.countP_cons_of_pos hq, List.countP_cons_of_pos (h a b hb hq)]
        omega
      · rw [List.countP_cons_of_neg hq, List.countP_cons]
        omega

/-! ## Spans -/

namespace KeyRow

/-- A row that a holder has from one millisecond up to another, both included. -/
structure BoundOver (row : KeyRow) (holder : Holder) (since stop : Int) : Prop where
  held : row.isHeldBy holder = true
  assigned : row.assignedAt = .integer since
  expires : row.expiration = .integer stop

/-- A row as operations leave it: unbound, or bound over a span that does not end before it
starts. -/
def IsWhole (row : KeyRow) : Prop :=
  ∃ stop, row.expiration = .integer stop ∧
    (row.IsUnbound ∨ ∃ holder since, row.BoundOver holder since stop ∧ since ≤ stop)

theorem IsUnbound.not_held {row : KeyRow} (h : row.IsUnbound) {holder : Holder} :
    row.isHeldBy holder = false := by
  by_contra hheld
  exact client_ne_null_of_isHeldBy (by simpa using hheld) h.client

theorem isAtLeast_of_expires {row : KeyRow} {stop : Int} (h : row.expiration = .integer stop)
    (millis : Int) : row.expiration.isAtLeast millis = decide (millis ≤ stop) := by
  rw [h, Cell.isAtLeast]

theorem ofKey_whole {id : Int} {key : AttestationKey} (h : key.assignment = none) :
    (ofKey id key).IsWhole :=
  ⟨_, rfl, .inl (ofKey_unbound h)⟩

theorem assign_boundOver {component : String} {row : KeyRow} {stop : Int}
    (hc : row.component = .text component) (he : row.expiration = .integer stop)
    (client irpc : Int32) (millis : Int) :
    (row.assign client irpc millis).BoundOver ⟨component, client, irpc⟩ millis stop :=
  ⟨assign_isHeldBy hc client irpc millis, rfl, he⟩

end KeyRow

def StoreOperation.InsertsUnbound : StoreOperation → Prop
  | insert batch => ∀ key ∈ batch, key.assignment = none
  | _ => True

def StoreOperation.bindingTime? : StoreOperation → Option Timestamp
  | assign _ now _ _ => some now
  | _ => none

namespace Database

/-- Rows are numbered and whole, and those of one holder are bound over spans that do not meet. -/
structure Orderly (db : Database) : Prop where
  numbered : db.Numbered
  whole : ∀ row ∈ db.rows, row.IsWhole
  apart : ∀ a ∈ db.rows, ∀ b ∈ db.rows, a.id ≠ b.id → ∀ holder since stop since' stop',
    a.BoundOver holder since stop → b.BoundOver holder since' stop' → stop < since' ∨ stop' < since

theorem orderly_empty : empty.Orderly :=
  ⟨numbered_empty, fun _ h => absurd h List.not_mem_nil, fun _ h => absurd h List.not_mem_nil⟩

namespace Orderly

variable {db : Database}

theorem subset (h : db.Orderly) {db' : Database} (hn : db'.Numbered)
    (hsub : ∀ row ∈ db'.rows, row ∈ db.rows) : db'.Orderly :=
  ⟨hn, fun row hrow => h.whole row (hsub row hrow),
    fun a ha b hb => h.apart a (hsub a ha) b (hsub b hb)⟩

theorem append (h : db.Orderly) {keys : List AttestationKey}
    (hkeys : ∀ key ∈ keys, key.assignment = none) : (db.append keys).Orderly := by
  have hnew : ∀ row ∈ KeyRow.numbered db.lastUsed keys, row.IsWhole ∧ row.IsUnbound := by
    intro row hrow
    obtain ⟨key, hkey, id, rfl⟩ := KeyRow.exists_key_of_mem_numbered hrow
    exact ⟨KeyRow.ofKey_whole (hkeys key hkey), KeyRow.ofKey_unbound (hkeys key hkey)⟩
  refine ⟨h.numbered.append keys, ?_, ?_⟩
  · intro row hrow
    rcases List.mem_append.mp hrow with hold | hrow
    · exact h.whole row hold
    · exact (hnew row hrow).1
  · intro a ha b hb hid holder since stop since' stop' hboundA hboundB
    rcases List.mem_append.mp ha with ha | ha
    · rcases List.mem_append.mp hb with hb | hb
      · exact h.apart a ha b hb hid holder since stop since' stop' hboundA hboundB
      · exact absurd hboundB.held (by simp [(hnew b hb).2.not_held])
    · exact absurd hboundA.held (by simp [(hnew a ha).2.not_held])

/-- A new span starts after every span that its holder had, because none of them reaches the time of
the assignment. -/
theorem update (h : db.Orderly) {component : String} {now : Timestamp} {client irpc : Int32}
    {row : KeyRow} (hh : db.firstLive? (·.isBoundTo component client irpc) now.toMillis = none)
    (hc : db.firstLive? (·.isFree component) now.toMillis = some row) :
    (db.update row.id (KeyRow.assign client irpc now.toMillis)).Orderly := by
  obtain ⟨hrow, hfree, hlive⟩ := firstLive?_eq_some hc
  obtain ⟨last, hlast, -⟩ := h.whole row hrow
  have hspan := KeyRow.assign_boundOver (KeyRow.client_of_isFree hfree).1 hlast client irpc
    now.toMillis
  rw [KeyRow.isAtLeast_of_expires hlast, decide_eq_true_eq] at hlive
  -- whatever the same holder has in another row ended before now
  have hbefore : ∀ other ∈ db.rows, ∀ holder since stop since' stop',
      (row.assign client irpc now.toMillis).BoundOver holder since stop →
        other.BoundOver holder since' stop' → stop' < since := by
    intro other hother holder since stop since' stop' hnew hold
    obtain rfl := KeyRow.holder_unique hnew.held hspan.held
    obtain rfl : now.toMillis = since := Cell.integer.inj hnew.assigned
    have hdead := not_live_of_firstLive?_eq_none hh hother hold.held
    rw [KeyRow.isAtLeast_of_expires hold.expires, decide_eq_false_iff_not] at hdead
    omega
  refine ⟨h.numbered.update row.id client irpc now.toMillis, ?_, ?_⟩
  · intro later hlater
    rcases h.numbered.mem_update hrow hlater with ⟨hold, -⟩ | rfl
    · exact h.whole later hold
    · exact ⟨last, hlast, .inr ⟨_, _, hspan, hlive⟩⟩
  · intro a ha b hb hid holder since stop since' stop' hboundA hboundB
    rcases h.numbered.mem_update hrow ha with ⟨ha, -⟩ | rfl
    · rcases h.numbered.mem_update hrow hb with ⟨hb, -⟩ | rfl
      · exact h.apart a ha b hb hid holder since stop since' stop' hboundA hboundB
      · exact .inl (hbefore a ha holder since' stop' since stop hboundB hboundA)
    · rcases h.numbered.mem_update hrow hb with ⟨hb, -⟩ | rfl
      · exact .inr (hbefore b hb holder since stop since' stop' hboundA hboundB)
      · exact absurd rfl hid

theorem change (h : db.Orderly) {op : StoreOperation} (hop : op.InsertsUnbound) {db' : Database}
    (hc : db.Change op db') : db'.Orderly := by
  have hn := h.numbered.change hc
  cases hc with
  | none => exact h
  | insert keys => exact h.append hop
  | assign component now client irpc row key hh hf => exact h.update hh hf
  | clear => exact h.subset hn fun _ hrow => absurd hrow List.not_mem_nil
  | expire cutoff => exact h.subset hn fun _ hrow => (List.mem_filter.mp hrow).1
  | purge window => exact h.subset hn fun _ hrow => (List.mem_filter.mp hrow).1

theorem after (h : db.Orderly) {calls : List StoreCall}
    (hcalls : ∀ call ∈ calls, call.operation.InsertsUnbound) : (db.after calls).Orderly :=
  after_invariant
    (fun call hcall db hdb => hdb.change (hcalls call hcall) (call.next_change db)) h

end Orderly

/-- No row was assigned after a millisecond. -/
def AssignedBy (db : Database) (bound : Int) : Prop :=
  ∀ row ∈ db.rows, ∀ since, row.assignedAt = .integer since → since ≤ bound

theorem AssignedBy.change {db db' : Database} {bound : Int} (h : db.AssignedBy bound)
    (hn : db.Numbered) {op : StoreOperation} (hop : op.InsertsUnbound)
    (hnow : ∀ now ∈ op.bindingTime?, now.toMillis ≤ bound) (hc : db.Change op db') :
    db'.AssignedBy bound := by
  intro later hlater since hsince
  cases hc with
  | none => exact h later hlater since hsince
  | insert keys =>
      rcases List.mem_append.mp hlater with hold | hnew
      · exact h later hold since hsince
      · obtain ⟨key, hkey, id, rfl⟩ := KeyRow.exists_key_of_mem_numbered hnew
        rw [(KeyRow.ofKey_unbound (hop key hkey)).assignedAt] at hsince
        cases hsince
  | assign component now client irpc row key hh hf =>
      rcases hn.mem_update (firstLive?_eq_some hf).1 hlater with ⟨hold, -⟩ | rfl
      · exact h later hold since hsince
      · obtain rfl : now.toMillis = since := Cell.integer.inj hsince
        exact hnow now rfl
  | clear => exact absurd hlater List.not_mem_nil
  | expire cutoff => exact h later (List.mem_filter.mp hlater).1 since hsince
  | purge window => exact h later (List.mem_filter.mp hlater).1 since hsince

theorem assignedBy_after {db : Database} {bound : Int} {calls : List StoreCall}
    (h : db.AssignedBy bound) (hn : db.Numbered)
    (hcalls : ∀ call ∈ calls, call.operation.InsertsUnbound)
    (hnow : ∀ call ∈ calls, ∀ now ∈ call.operation.bindingTime?, now.toMillis ≤ bound) :
    (db.after calls).AssignedBy bound := by
  have hboth : (db.after calls).Numbered ∧ (db.after calls).AssignedBy bound :=
    after_invariant (P := fun db => db.Numbered ∧ db.AssignedBy bound)
      (fun call hcall db hdb =>
        ⟨hdb.1.change (call.next_change db),
          hdb.2.change hdb.1 (hcalls call hcall) (hnow call hcall) (call.next_change db)⟩)
      ⟨hn, h⟩
  exact hboth.2

/-! ## One key at a time -/

/-- Where nothing was assigned later than a time, each holder has one unexpired row at most. -/
theorem Orderly.countP_live_le_one {db : Database} (h : db.Orderly) {bound : Int}
    (hb : db.AssignedBy bound) (holder : Holder) :
    db.rows.countP (fun row => row.isHeldBy holder && row.expiration.isAtLeast bound) ≤ 1 := by
  have hspan : ∀ row ∈ db.rows, (row.isHeldBy holder && row.expiration.isAtLeast bound) = true →
      ∃ since stop, row.BoundOver holder since stop ∧ since ≤ bound ∧ bound ≤ stop := by
    intro row hrow hlive
    rw [Bool.and_eq_true] at hlive
    obtain ⟨hheld, hlive⟩ := hlive
    obtain ⟨stop, hstop, hu | ⟨other, since, hbound, -⟩⟩ := h.whole row hrow
    · rw [hu.not_held] at hheld
      cases hheld
    · obtain rfl := KeyRow.holder_unique hheld hbound.held
      rw [KeyRow.isAtLeast_of_expires hstop, decide_eq_true_eq] at hlive
      exact ⟨since, stop, hbound, hb row hrow since hbound.assigned, hlive⟩
  refine countP_le_one h.numbered.ascending ?_
  intro a ha b hb' hliveA hliveB hid
  obtain ⟨since, stop, hboundA, hsince, hstop⟩ := hspan a ha hliveA
  obtain ⟨since', stop', hboundB, hsince', hstop'⟩ := hspan b hb' hliveB
  have := h.apart a ha b hb' (ne_of_lt hid) holder since stop since' stop' hboundA hboundB
  omega

end Database

namespace AttestationKey

def isHeldBy (holder : Holder) (key : AttestationKey) : Bool :=
  key.component = holder.component &&
    key.assignment.any fun a => a.client = holder.client && a.irpc = holder.irpc

end AttestationKey

namespace KeyRow

theorem isHeldBy_of_toKey {row : KeyRow} {key : AttestationKey} (hk : row.toKey = .ok key)
    {holder : Holder} (h : key.isHeldBy holder = true) : row.isHeldBy holder = true := by
  obtain ⟨hread, -, hcomponent, -⟩ := toKey_eq_ok hk
  rw [AttestationKey.isHeldBy, Bool.and_eq_true, decide_eq_true_eq, Option.any_eq_true] at h
  obtain ⟨hname, a, ha, huids⟩ := h
  rw [Bool.and_eq_true, decide_eq_true_eq, decide_eq_true_eq] at huids
  rcases readAssignment_eq_ok hread with ⟨hnone, -⟩ | ⟨found, millis, hsome, hclient, hirpc, -⟩
  · rw [hnone] at ha
    cases ha
  · obtain rfl := Option.some.inj (hsome.symm.trans ha)
    refine (isHeldBy_iff holder row).mpr ⟨hname ▸ hcomponent, ?_, ?_⟩
    · rw [readUid_eq_ok_some hclient, huids.1]
    · rw [readUid_eq_ok_some hirpc, huids.2]

theorem isAtLeast_of_toKey {row : KeyRow} {key : AttestationKey} (hk : row.toKey = .ok key)
    {t : Timestamp} (h : key.isExpiredAt t = false) :
    row.expiration.isAtLeast t.toMillis = true := by
  obtain ⟨-, -, -, millis, hcell, htime⟩ := toKey_eq_ok hk
  rw [isAtLeast_of_expires hcell, decide_eq_true_eq]
  rw [AttestationKey.isExpiredAt, decide_eq_false_iff_not] at h
  exact Timestamp.toMillis_le_of_not_lt htime h

end KeyRow

/-- What holds of bindings in every state, when keys come in unbound. A row is unbound, or bound over a
span that does not end before it starts, and the spans over which one holder has different rows do not
meet. At a time that is not before any assignment, no holder has two unexpired rows, nor two unexpired
keys among those that the store shows. -/
structure BindingSpec (calls : List StoreCall) (db : Database) : Prop where
  whole : ∀ row ∈ db.rows, row.IsUnbound ∨
    ∃ holder since stop, row.BoundOver holder since stop ∧ since ≤ stop
  apart : db.rows.Pairwise fun a b => ∀ holder since stop since' stop',
    a.BoundOver holder since stop → b.BoundOver holder since' stop' →
      Disjoint (Set.Icc since stop) (Set.Icc since' stop')
  one_row : ∀ t, (∀ call ∈ calls, ∀ now ∈ call.operation.bindingTime?, now ≤ t) → ∀ holder,
    db.rows.countP (fun row => row.isHeldBy holder && row.expiration.isAtLeast t.toMillis) ≤ 1
  one_key : ∀ t, (∀ call ∈ calls, ∀ now ∈ call.operation.bindingTime?, now ≤ t) → ∀ holder keys,
    db.keys = .ok keys →
      keys.countP (fun key => key.isHeldBy holder && !key.isExpiredAt t) ≤ 1

theorem bindings_apart (calls : List StoreCall)
    (hcalls : ∀ call ∈ calls, call.operation.InsertsUnbound) :
    BindingSpec calls (Database.empty.after calls) := by
  have h : (Database.empty.after calls).Orderly := Database.orderly_empty.after hcalls
  have hrow : ∀ t, (∀ call ∈ calls, ∀ now ∈ call.operation.bindingTime?, now ≤ t) → ∀ holder,
      (Database.empty.after calls).rows.countP
        (fun row => row.isHeldBy holder && row.expiration.isAtLeast t.toMillis) ≤ 1 := by
    intro t ht holder
    refine h.countP_live_le_one ?_ holder
    refine Database.assignedBy_after (fun _ hmem => absurd hmem List.not_mem_nil)
      Database.numbered_empty hcalls ?_
    intro call hcall now hnow
    exact Timestamp.toMillis_mono (ht call hcall now hnow)
  refine ⟨?_, ?_, hrow, ?_⟩
  · intro row hmem
    obtain ⟨stop, -, hu | ⟨holder, since, hb, hle⟩⟩ := h.whole row hmem
    · exact .inl hu
    · exact .inr ⟨holder, since, stop, hb, hle⟩
  · refine h.numbered.ascending.imp_of_mem ?_
    intro a b ha hb hid holder since stop since' stop' hboundA hboundB
    have hapart := h.apart a ha b hb (ne_of_lt hid) holder since stop since' stop' hboundA hboundB
    refine Set.disjoint_left.mpr ?_
    rintro t ⟨hsince, hstop⟩ ⟨hsince', hstop'⟩
    omega
  · intro t ht holder keys hkeys
    refine le_trans (countP_mapM_le hkeys ?_) (hrow t ht holder)
    intro row key hk hlive
    rw [Bool.and_eq_true, Bool.not_eq_true'] at hlive
    rw [Bool.and_eq_true]
    exact ⟨KeyRow.isHeldBy_of_toKey hk hlive.1, KeyRow.isAtLeast_of_toKey hk hlive.2⟩

/-- A batch of two keys of one component, of which the first expires before the second. -/
def twoKeys : List AttestationKey :=
  [⟨none, [1], "hal", [], .selfSigned,
      ⟨1000000000, 0, by decide, Timestamp.epoch.offset_bounds⟩, none⟩,
   ⟨none, [2], "hal", [], .selfSigned,
      ⟨5000000000, 0, by decide, Timestamp.epoch.offset_bounds⟩, none⟩]

/-- A client is given the first of two keys, and the second once the first has expired. -/
def renewing : List StoreCall :=
  [⟨.insert twoKeys, false⟩,
   ⟨.assign "hal" ⟨500000000, 0, by decide, Timestamp.epoch.offset_bounds⟩ 7 9, false⟩,
   ⟨.assign "hal" ⟨2000000000, 0, by decide, Timestamp.epoch.offset_bounds⟩ 7 9, false⟩]

theorem bindings_apart_renewing :
    (∀ call ∈ renewing, call.operation.InsertsUnbound) ∧
      BindingSpec renewing (Database.empty.after renewing) ∧
      (Database.empty.after renewing).rows.map
        (fun row => (row.isHeldBy ⟨"hal", 7, 9⟩, row.assignedAt, row.expiration)) =
          [(true, .integer 500, .integer 1000), (true, .integer 2000, .integer 5000)] := by
  have hcalls : ∀ call ∈ renewing, call.operation.InsertsUnbound := by
    simp [renewing, StoreOperation.InsertsUnbound, twoKeys]
  have hchains : ∀ key ∈ twoKeys, key.chain = .selfSigned := by simp [twoKeys]
  have hinsert : (StoreCall.mk (.insert twoKeys) false).next .empty =
      Database.empty.append twoKeys :=
    StoreCall.next_insert_selfSigned (List.cons_ne_nil _ _) hchains rfl
  refine ⟨hcalls, bindings_apart _ hcalls, ?_⟩
  simp only [renewing, Database.after_cons, hinsert]
  decide +kernel

theorem next_insert_twoKeys :
    (StoreCall.mk (.insert twoKeys) false).next .empty = Database.empty.append twoKeys :=
  StoreCall.next_insert_selfSigned (List.cons_ne_nil _ _) (by simp [twoKeys]) rfl

/-- Before the first key has expired, the client has it and the second is free. -/
theorem after_renewing : Database.empty.after (renewing.take 2) =
    (Database.empty.append twoKeys).update 1 (KeyRow.assign 7 9 500) := by
  simp only [renewing, List.take, Database.after_cons, next_insert_twoKeys]
  rfl

end KeyPool
