import KeyPool.Proofs.Store.Binding

/-! A client keeps the key that it was given. For as long as the row is there and the clock has not
passed its end, the row is both the one that an assignment finds for the client and the one that was
assigned to it last, whatever other rows the client had before. -/

namespace KeyPool

namespace KeyRow

theorem latest_step_stays {rows : List KeyRow} {row : KeyRow}
    (h : ∀ other ∈ rows, other.isLaterThan row = false) :
    rows.foldl (fun best row =>
      match best with
      | none => some row
      | some b => if row.isLaterThan b then some row else some b) (some row) = some row := by
  induction rows with
  | nil => rfl
  | cons first rows ih =>
      rw [List.forall_mem_cons] at h
      simp [h.1, ih h.2]

/-- A row is the latest if it is later than those before it and none after it is later. -/
theorem latest?_append_cons {before after : List KeyRow} {row : KeyRow}
    (hbefore : ∀ other ∈ before, row.isLaterThan other = true)
    (hafter : ∀ other ∈ after, other.isLaterThan row = false) :
    latest? (before ++ row :: after) = some row := by
  rw [latest?, List.foldl_append, List.foldl_cons]
  cases hbest : latest? before with
  | none =>
      rw [latest?] at hbest
      simp only [hbest]
      exact latest_step_stays hafter
  | some best =>
      have hlater := hbefore best (mem_of_latest?_eq_some hbest)
      rw [latest?] at hbest
      simp only [hbest, hlater, ite_true]
      exact latest_step_stays hafter

/-- A row that was assigned after another is later than it, and the other is not. -/
theorem isLaterThan_of_lt {row other : KeyRow} {since since' : Int}
    (hrow : row.assignedAt = .integer since) (hother : other.assignedAt = .integer since')
    (hlt : since' < since) : row.isLaterThan other = true ∧ other.isLaterThan row = false := by
  have hne : ¬ since' = since := by omega
  have hge : ¬ since < since' := by omega
  simp [isLaterThan, hrow, hother, Cell.isBefore, hlt, hne, hge]

end KeyRow

/-! ## What is found for a holder -/

namespace Store

variable {s : Store} {holder : Holder} {now : Timestamp} {row : KeyRow} {key : AttestationKey}

/-- An assignment that finds a row of the client answers with its key and changes nothing. -/
theorem assign_held (hp : s.poisoned = false)
    (hh : s.db.firstLive? (·.isHeldBy holder) now.toMillis = some row) (hk : row.toKey = .ok key) :
    s.assign holder.component now holder.client holder.irpc = ⟨.ok (some key), s, []⟩ := by
  unfold Database.firstLive? KeyRow.isHeldBy at hh
  simp [assign, hp, hh, hk, Except.map]

theorem lookup_latest (hp : s.poisoned = false)
    (hl : KeyRow.latest? (s.db.rows.filter (·.isHeldBy holder)) = some row)
    (hk : row.toKey = .ok key) :
    s.lookup holder.component holder.client holder.irpc = ⟨.ok (some key), s, []⟩ := by
  unfold KeyRow.isHeldBy at hl
  simp [lookup, query, hp, hl, hk, Except.map]

end Store

namespace Database

variable {db : Database} {holder : Holder} {row other : KeyRow} {since stop : Int}

theorem Orderly.boundOver (h : db.Orderly) (hrow : row ∈ db.rows) (hheld : row.isHeldBy holder = true)
    (hstop : row.expiration = .integer stop) : ∃ since, row.BoundOver holder since stop ∧ since ≤ stop := by
  obtain ⟨stop', hstop', hu | ⟨holder', since, hb, hle⟩⟩ := h.whole row hrow
  · rw [hu.not_held] at hheld
    cases hheld
  · obtain rfl := KeyRow.holder_unique hb.held hheld
    obtain rfl := Cell.integer.inj (hstop.symm.trans hstop')
    exact ⟨since, hb, hle⟩

/-- Where nothing was assigned after a time, the row of a holder that reaches the time is the one that
is found at the time. -/
theorem Orderly.firstLive?_eq (h : db.Orderly) (hrow : row ∈ db.rows)
    (hb : row.BoundOver holder since stop) {bound : Int} (hbound : db.AssignedBy bound)
    (hle : bound ≤ stop) : db.firstLive? (·.isHeldBy holder) bound = some row := by
  have hlive : (row.isHeldBy holder && row.expiration.isAtLeast bound) = true := by
    rw [hb.held, hb.expires, Cell.isAtLeast, Bool.true_and, decide_eq_true hle]
  cases hfound : db.firstLive? (·.isHeldBy holder) bound with
  | none =>
      have hdead := not_live_of_firstLive?_eq_none hfound hrow hb.held
      simp [hb.held, hdead] at hlive
  | some other =>
      obtain ⟨hother, hheld, hreaches⟩ := firstLive?_eq_some hfound
      obtain ⟨stop', hstop', -⟩ := h.whole other hother
      obtain ⟨since', hb', -⟩ := h.boundOver hother hheld hstop'
      rw [KeyRow.isAtLeast_of_expires hstop', decide_eq_true_eq] at hreaches
      have hsince := hbound row hrow since hb.assigned
      have hsince' := hbound other hother since' hb'.assigned
      have hid : other.id = row.id := by
        by_contra hne
        have := h.apart other hother row hrow hne holder since' stop' since stop hb' hb
        omega
      rw [h.numbered.eq_of_id_eq hother hrow hid]

/-- Where nothing was assigned after the end of a row, the row is the one that was assigned to its
holder last. -/
theorem Orderly.latest?_eq (h : db.Orderly) (hrow : row ∈ db.rows)
    (hb : row.BoundOver holder since stop) (hbound : db.AssignedBy stop) :
    KeyRow.latest? (db.rows.filter (·.isHeldBy holder)) = some row := by
  have hlater : ∀ other ∈ db.rows.filter (·.isHeldBy holder), other.id ≠ row.id →
      row.isLaterThan other = true ∧ other.isLaterThan row = false := by
    intro other hmem hne
    obtain ⟨hother, hheld⟩ := List.mem_filter.mp hmem
    obtain ⟨stop', hstop', -⟩ := h.whole other hother
    obtain ⟨since', hb', hle'⟩ := h.boundOver hother hheld hstop'
    have hsince' := hbound other hother since' hb'.assigned
    have hapart := h.apart other hother row hrow hne holder since' stop' since stop hb' hb
    exact KeyRow.isLaterThan_of_lt hb.assigned hb'.assigned (by omega)
  have hheld : row ∈ db.rows.filter (·.isHeldBy holder) := List.mem_filter.mpr ⟨hrow, hb.held⟩
  have hascending := h.numbered.ascending.filter (·.isHeldBy holder)
  obtain ⟨before, after, hsplit⟩ := List.append_of_mem hheld
  rw [hsplit] at hlater hascending ⊢
  obtain ⟨-, hrest, hbefore⟩ := List.pairwise_append.mp hascending
  refine KeyRow.latest?_append_cons ?_ ?_
  · intro other hother
    have hlt := hbefore other hother row List.mem_cons_self
    exact (hlater other (List.mem_append_left _ hother) (by omega)).1
  · intro other hother
    have hlt := (List.pairwise_cons.mp hrest).1 other hother
    refine (hlater other (List.mem_append_right _ (List.mem_cons_of_mem row hother)) (by omega)).2

end Database

/-! ## Runs -/

/-- The times at which calls would bind rows, in order. -/
def StoreCall.clock (calls : List StoreCall) : List Timestamp :=
  calls.filterMap (·.operation.bindingTime?)

theorem StoreCall.mem_clock {calls : List StoreCall} {call : StoreCall} {t : Timestamp}
    (hcall : call ∈ calls) (ht : t ∈ call.operation.bindingTime?) : t ∈ clock calls :=
  List.mem_filterMap.mpr ⟨call, hcall, ht⟩

theorem StoreCall.clock_append_cons (earlier later : List StoreCall) (component : String)
    (now : Timestamp) (client irpc : Int32) (poisoned : Bool) :
    clock (earlier ++ ⟨.assign component now client irpc, poisoned⟩ :: later) =
      clock earlier ++ now :: clock later := by
  simp [clock, StoreOperation.bindingTime?]

namespace Database

theorem mem_after_of_id {db : Database} (h : db.Numbered) {row last : KeyRow} (hrow : row ∈ db.rows)
    (hclient : row.client ≠ .null) {calls : List StoreCall} (hlast : last ∈ (db.after calls).rows)
    (hid : last.id = row.id) : row ∈ (db.after calls).rows := by
  obtain ⟨origin, horigin, hbecomes⟩ :=
    (leads_after h calls).origin last hlast (hid ▸ h.bounded row hrow)
  obtain rfl := h.eq_of_id_eq horigin hrow (hbecomes.id_eq.symm.trans hid)
  rwa [hbecomes.eq_of_client hclient] at hlast

theorem assignedBy_clock {calls : List StoreCall} {bound : Int}
    (hcalls : ∀ call ∈ calls, call.operation.InsertsUnbound)
    (hclock : ∀ t ∈ StoreCall.clock calls, t.toMillis ≤ bound) :
    (empty.after calls).AssignedBy bound := by
  refine assignedBy_after (fun _ hrow => absurd hrow List.not_mem_nil) numbered_empty hcalls ?_
  intro call hcall t ht
  exact hclock t (StoreCall.mem_clock hcall ht)

end Database

/-- What a client that was handed a key is answered after a run: the key as it was handed out, and
nothing changes. An assignment answers so at every time from which the clock does not go back, up to
the end of the key. -/
structure HoldingSpec (calls : List StoreCall) (holder : Holder) (key : AttestationKey) : Prop where
  found : Store.lookup ⟨Database.empty.after calls, false⟩ holder.component holder.client holder.irpc =
    ⟨.ok (some key), ⟨Database.empty.after calls, false⟩, []⟩
  again : ∀ now, (∀ t ∈ StoreCall.clock calls, t ≤ now) → now ≤ key.expiration →
    Store.assign ⟨Database.empty.after calls, false⟩ holder.component now holder.client holder.irpc =
      ⟨.ok (some key), ⟨Database.empty.after calls, false⟩, []⟩

/-- A client that is handed a key has it for as long as its row is there and the clock, which does not
go back, is not past its end, whatever anyone asks of the store in between. -/
theorem holding_spec {earlier later : List StoreCall} {holder : Holder} {now : Timestamp}
    {key : AttestationKey}
    (hcalls : ∀ call ∈ earlier ++ later, call.operation.InsertsUnbound)
    (hclock : (StoreCall.clock earlier ++ now :: StoreCall.clock later).Pairwise (· ≤ ·))
    (hhanded : (Store.assign ⟨Database.empty.after earlier, false⟩ holder.component now holder.client
      holder.irpc).result = .ok (some key))
    (hstays : ∃ row ∈ (Database.empty.after
      (earlier ++ ⟨.assign holder.component now holder.client holder.irpc, false⟩ :: later)).rows,
        key.id = some row.id)
    (hunexpired : ∀ t ∈ StoreCall.clock later, t ≤ key.expiration) :
    HoldingSpec (earlier ++ ⟨.assign holder.component now holder.client holder.irpc, false⟩ :: later)
      holder key := by
  obtain ⟨row, hrow, hheld, hkey, hlive⟩ := Store.assign_leaves hhanded
  obtain ⟨-, hid, -, stop, hstop, htime⟩ := KeyRow.toKey_eq_ok hkey
  rw [KeyRow.isAtLeast_of_expires hstop, decide_eq_true_eq] at hlive
  have hend : key.expiration.toMillis = stop := Timestamp.toMillis_ofMillis? htime
  have hbefore : ∀ t ∈ StoreCall.clock earlier, t ≤ now := by
    intro t ht
    exact (List.pairwise_append.mp hclock).2.2 t ht now List.mem_cons_self
  generalize hall : earlier ++
    (⟨.assign holder.component now holder.client holder.irpc, false⟩ : StoreCall) :: later = calls
    at hstays ⊢
  have hunbound : ∀ call ∈ calls, call.operation.InsertsUnbound := by
    subst hall
    simpa [or_imp, forall_and, StoreOperation.InsertsUnbound] using hcalls
  -- the row that was handed out is still there as it was
  have hmem : row ∈ (Database.empty.after calls).rows := by
    subst hall
    obtain ⟨last, hlast, hsame⟩ := hstays
    rw [Database.after_append, Database.after_cons] at hlast ⊢
    refine Database.mem_after_of_id ?_ hrow (KeyRow.client_ne_null_of_isHeldBy hheld) hlast ?_
    · exact (Database.numbered_empty.after earlier).change (StoreOperation.assign_change ⟨_, false⟩ _ _ _ _)
    · exact Option.some.inj (hsame.symm.trans hid)
  have horderly : (Database.empty.after calls).Orderly := Database.orderly_empty.after hunbound
  obtain ⟨since, hb, -⟩ := horderly.boundOver hmem hheld hstop
  constructor
  · refine Store.lookup_latest rfl (horderly.latest?_eq hmem hb ?_) hkey
    refine Database.assignedBy_clock hunbound ?_
    subst hall
    intro t ht
    rw [StoreCall.clock_append_cons] at ht
    rcases List.mem_append.mp ht with ht | ht
    · exact (Timestamp.toMillis_mono (hbefore t ht)).trans hlive
    · rcases List.mem_cons.mp ht with rfl | ht
      · exact hlive
      · exact hend ▸ Timestamp.toMillis_mono (hunexpired t ht)
  · intro now' hnow hle
    refine Store.assign_held rfl (horderly.firstLive?_eq hmem hb ?_ ?_) hkey
    · exact Database.assignedBy_clock hunbound fun t ht => Timestamp.toMillis_mono (hnow t ht)
    · exact hend ▸ Timestamp.toMillis_mono hle

/-- A client whose first key has expired is given the second, and then another client asks. -/
def renewedAndAsked : List StoreCall :=
  renewing ++ [⟨.assign "hal" ⟨3000000000, 0, by decide, Timestamp.epoch.offset_bounds⟩ 8 9, false⟩]

/-- Both keys are still bound to the client, and the second is the one that it has. -/
theorem holding_spec_renewed :
    (Database.empty.after renewedAndAsked).rows.map (fun row => (row.id, row.isHeldBy ⟨"hal", 7, 9⟩)) =
        [(1, true), (2, true)] ∧
      ∃ key, key.id = some 2 ∧ HoldingSpec renewedAndAsked ⟨"hal", 7, 9⟩ key := by
  have hrows : (Database.empty.after renewedAndAsked).rows.map
      (fun row => (row.id, row.isHeldBy ⟨"hal", 7, 9⟩)) = [(1, true), (2, true)] := by
    simp only [renewedAndAsked, renewing, List.cons_append, List.nil_append, Database.after_cons,
      next_insert_twoKeys]
    decide +kernel
  have hhanded : (Store.assign ⟨Database.empty.after (renewing.take 2), false⟩ "hal"
      ⟨2000000000, 0, by decide, Timestamp.epoch.offset_bounds⟩ 7 9).result =
        .ok (some ⟨some 2, [2], "hal", [], .selfSigned,
          ⟨5000000000, 0, by decide, Timestamp.epoch.offset_bounds⟩,
          some ⟨7, 9, ⟨2000000000, 0, by decide, Timestamp.epoch.offset_bounds⟩⟩⟩) := by
    rw [after_renewing]
    rfl
  have hstays : ∃ row ∈ (Database.empty.after renewedAndAsked).rows, some (2 : Int) = some row.id := by
    have hmem : (2, true) ∈ (Database.empty.after renewedAndAsked).rows.map
        (fun row => (row.id, row.isHeldBy ⟨"hal", 7, 9⟩)) := by simp [hrows]
    obtain ⟨row, hrow, hpair⟩ := List.mem_map.mp hmem
    exact ⟨row, hrow, congrArg (some ∘ Prod.fst) hpair.symm⟩
  refine ⟨hrows, ⟨some 2, [2], "hal", [], .selfSigned,
    ⟨5000000000, 0, by decide, Timestamp.epoch.offset_bounds⟩,
    some ⟨7, 9, ⟨2000000000, 0, by decide, Timestamp.epoch.offset_bounds⟩⟩⟩, rfl, ?_⟩
  apply @holding_spec (renewing.take 2)
    [⟨.assign "hal" ⟨3000000000, 0, by decide, Timestamp.epoch.offset_bounds⟩ 8 9, false⟩]
    ⟨"hal", 7, 9⟩ ⟨2000000000, 0, by decide, Timestamp.epoch.offset_bounds⟩
  · simp [renewing, StoreOperation.InsertsUnbound, twoKeys]
  · simp only [StoreCall.clock, renewing, List.take, StoreOperation.bindingTime?, List.filterMap]
    decide
  · exact hhanded
  · exact hstays
  · simp only [StoreCall.clock, StoreOperation.bindingTime?, List.filterMap]
    decide

end KeyPool
