import KeyPool.Console.Report
import KeyPool.Proofs.Store.Reading
import Mathlib.Data.String.Basic

/-! What is shown of the pools. Each component that owns keys has one line. Its keys are assigned, free
or expired, and those that are neither assigned nor valid to the millisecond are both of the last two. -/

namespace KeyPool

namespace PoolStatus

variable {keys : List AttestationKey} {name other : String} {names : List String}

/-! ## Components -/

theorem mem_insertName : other ∈ insertName name names ↔ other = name ∨ other ∈ names := by
  induction names with
  | nil => simp [insertName]
  | cons n rest ih =>
      rw [insertName]
      split
      · simp
      · split
        · simp only [List.mem_cons, ih]
          tauto
        · rename_i hbelow habove
          obtain rfl : n = name := le_antisymm (not_lt.mp hbelow) (not_lt.mp habove)
          simp

theorem insertName_ascending (h : names.Pairwise (· < ·)) :
    (insertName name names).Pairwise (· < ·) := by
  induction names with
  | nil => simp [insertName]
  | cons n rest ih =>
      obtain ⟨hfirst, hrest⟩ := List.pairwise_cons.mp h
      rw [insertName]
      split
      · rename_i hlt
        refine List.pairwise_cons.mpr ⟨?_, h⟩
        intro m hm
        rcases List.mem_cons.mp hm with rfl | hm
        · exact hlt
        · exact hlt.trans (hfirst m hm)
      · split
        · rename_i hlt
          refine List.pairwise_cons.mpr ⟨?_, ih hrest⟩
          intro m hm
          rcases mem_insertName.mp hm with rfl | hm
          · exact hlt
          · exact hfirst m hm
        · exact h

/-- The components of keys are put in their places one after another. -/
theorem components_foldl (keys : List AttestationKey) {names : List String}
    (h : names.Pairwise (· < ·)) :
    (keys.foldl (fun names key => insertName key.component names) names).Pairwise (· < ·) ∧
      ∀ name, name ∈ keys.foldl (fun names key => insertName key.component names) names ↔
        name ∈ names ∨ ∃ key ∈ keys, key.component = name := by
  induction keys generalizing names with
  | nil => exact ⟨h, fun name => by simp⟩
  | cons key keys ih =>
      obtain ⟨hascending, hmem⟩ := ih (insertName_ascending h)
      refine ⟨hascending, ?_⟩
      intro name
      rw [List.foldl_cons, hmem, mem_insertName]
      simp only [List.mem_cons, exists_eq_or_imp]
      tauto

theorem components_ascending (keys : List AttestationKey) : (components keys).Pairwise (· < ·) :=
  (components_foldl keys List.Pairwise.nil).1

theorem mem_components : name ∈ components keys ↔ ∃ key ∈ keys, key.component = name := by
  rw [components, (components_foldl keys List.Pairwise.nil).2]
  simp

/-! ## Classes of keys -/

/-- How many free keys of a component are valid in whole milliseconds. -/
def free (keys : List AttestationKey) (now : Timestamp) (component : String) : Nat :=
  keys.countP fun key => decide (key.component = component) && !key.isAssigned &&
    !(key.isExpiredAt now && !key.lapsesAt now)

/-- How many of these have expired. -/
def lapsing (keys : List AttestationKey) (now : Timestamp) (component : String) : Nat :=
  keys.countP fun key => decide (key.component = component) && !key.isAssigned && key.lapsesAt now

/-- Every key of a component is in one of three classes, and in two of them if it is free and lapses. -/
theorem classes_balance (keys : List AttestationKey) (now : Timestamp) (component : String) :
    (keys.countP fun key => key.component = component && key.isAssigned) + free keys now component +
        (keys.countP fun key => key.component = component && (!key.isAssigned && key.isExpiredAt now)) =
      (keys.countP fun key => key.component = component) + lapsing keys now component := by
  unfold free lapsing
  induction keys with
  | nil => rfl
  | cons key keys ih =>
      have hexpired : key.lapsesAt now = true → key.isExpiredAt now = true :=
        AttestationKey.isExpiredAt_of_lapsesAt
      simp only [List.countP_cons]
      cases decide (key.component = component) <;> cases key.isAssigned <;>
        cases hlapses : key.lapsesAt now <;> cases hended : key.isExpiredAt now <;> simp_all <;> omega

theorem lapsing_eq_zero {now : Timestamp} : lapsing keys now name = 0 ↔
    ∀ key ∈ keys, key.component = name → key.isAssigned = false → key.lapsesAt now = false := by
  simp [lapsing, List.countP_eq_zero]

/-- What the numbers of a pool are, where its store holds some keys. A free key is counted as expired
as soon as it is for its own test, and as free as long as it is valid for the test of the store. So the
classes cover the pool, and the last two have in common the free keys that lapse. -/
structure Tallies (keys : List AttestationKey) (now : Timestamp) (pool : PoolStatus) : Prop where
  total : pool.total = keys.countP fun key => key.component = pool.component
  assigned : pool.assigned = keys.countP fun key => key.component = pool.component && key.isAssigned
  expired : pool.expired = keys.countP fun key =>
    key.component = pool.component && (!key.isAssigned && key.isExpiredAt now)
  unassigned : pool.unassigned = free keys now pool.component
  balance : pool.assigned + pool.unassigned + pool.expired =
    pool.total + lapsing keys now pool.component
  balanced_iff : pool.total = pool.assigned + pool.unassigned + pool.expired ↔
    ∀ key ∈ keys, key.component = pool.component → key.isAssigned = false → key.lapsesAt now = false

theorem count_tallies (keys : List AttestationKey) (now : Timestamp) (component : String) :
    (count keys now component (free keys now component)).Tallies keys now := by
  have hown (p : AttestationKey → Bool) :
      (keys.filter (·.component = component)).countP p =
        keys.countP fun key => key.component = component && p key := by
    rw [List.countP_filter]
    exact List.countP_congr fun key _ => by rw [Bool.and_comm]
  have htotal : (keys.filter (·.component = component)).length =
      keys.countP fun key => key.component = component :=
    List.countP_eq_length_filter.symm
  have hbalance : (count keys now component (free keys now component)).assigned +
      (count keys now component (free keys now component)).unassigned +
        (count keys now component (free keys now component)).expired =
      (count keys now component (free keys now component)).total + lapsing keys now component := by
    unfold count
    dsimp only
    rw [hown, hown, htotal]
    exact classes_balance keys now component
  refine ⟨htotal, hown _, hown _, rfl, hbalance, ?_⟩
  rw [hbalance]
  exact Nat.left_eq_add.trans lapsing_eq_zero

theorem ofStore_eq {s : Store} (h : s.keys.result = .ok keys) (now : Timestamp) : ofStore s now =
    .ok ((components keys).map fun component => count keys now component (free keys now component)) := by
  rw [ofStore, h]
  change (components keys).mapM _ = _
  rw [mapM_eq_ok, List.forall₂_map_right_iff, List.forall₂_same]
  intro component _
  rw [Store.countFree_of_keys h component]
  rfl

end PoolStatus

/-! ## The report -/

namespace Console

def statusHead (c : Context) : List Line :=
  [Line.bold .cyan ("密钥库: " ++ c.path),
    Line.plain ("目标空闲密钥数: " ++ toString c.policy.extraKeys), Line.plain ""]

theorem statusReport_eq {c : Context} {pools : List PoolStatus}
    (h : PoolStatus.ofStore c.store c.now = .ok pools) :
    statusReport c = .done c.store (statusHead c ++
      if pools = [] then [Line.styled .yellow "密钥库为空"] else pools.map (poolLine c.policy)) := by
  rw [statusReport, h]
  cases pools <;> rfl

/-- What is shown of the pools of a store. If the keys can be read, each component that owns some has
one line, in ascending order; otherwise no line is shown of any pool. What was written through
operations cannot be read only over a time beyond the calendar. -/
structure StatusSpec (c : Context) : Prop where
  shown : ∀ keys, c.store.keys.result = .ok keys → ∃ pools : List PoolStatus,
    (statusReport c).ending = .success ∧
    (statusReport c).lines = statusHead c ++
      (if pools = [] then [Line.styled .yellow "密钥库为空"] else pools.map (poolLine c.policy)) ∧
    (pools.map (·.component)).Pairwise (· < ·) ∧
    (∀ name, name ∈ pools.map (·.component) ↔ ∃ key ∈ keys, key.component = name) ∧
    ∀ pool ∈ pools, pool.Tallies keys c.now
  lapsing : ∀ keys, c.store.keys.result = .ok keys → ∀ key ∈ keys, (key.lapsesAt c.now = true ↔
    0 ≤ key.expiration.instant ∧ key.expiration.instant < c.now.instant ∧
      c.now.instant < key.expiration.instant + 1000000)
  refused : ∀ e, c.store.keys.result = .error e →
    (statusReport c).ending = .failed (.store e) ∧ (statusReport c).lines = statusHead c
  readable : ∀ calls, c.store = ⟨Database.empty.after calls, false⟩ → ∀ e,
    c.store.keys.result = .error e → e.BlamesTime (StoreCall.given calls)

/-- A line adds up unless a free key of its component lapses. -/
theorem status_spec (c : Context) : StatusSpec c := by
  refine ⟨?_, ?_, ?_, ?_⟩
  · intro keys hkeys
    have hreport := statusReport_eq (PoolStatus.ofStore_eq hkeys c.now)
    have hnames : ((PoolStatus.components keys).map fun component =>
        PoolStatus.count keys c.now component (PoolStatus.free keys c.now component)).map
          (·.component) = PoolStatus.components keys := by
      rw [List.map_map]
      exact List.map_id _
    refine ⟨_, by rw [hreport]; rfl, by rw [hreport]; rfl, ?_, ?_, ?_⟩
    · rw [hnames]
      exact PoolStatus.components_ascending keys
    · intro name
      rw [hnames]
      exact PoolStatus.mem_components
    · intro pool hpool
      obtain ⟨component, -, rfl⟩ := List.mem_map.mp hpool
      exact PoolStatus.count_tallies keys c.now component
  · intro keys hkeys key hkey
    obtain ⟨row, -, hread⟩ := exists_of_mem_forall₂ (Store.keys_eq_ok.mp hkeys).2 hkey
    exact AttestationKey.lapsesAt_iff (KeyRow.ofMillis?_of_toKey hread)
  · intro e he
    have hstatus : PoolStatus.ofStore c.store c.now = .error e := by
      rw [PoolStatus.ofStore, he]
      rfl
    rw [statusReport, hstatus]
    exact ⟨rfl, rfl⟩
  · intro calls hstore e he
    have hw := StoreCall.written_after calls
    rw [hstore] at he
    exact Store.keys_error hw he (by simp)

/-- The store with one key that ends with the first instant of 1970, looked at half a millisecond
later. -/
def lapsedContext : Context := ⟨oneEnding, false, "keys.db", .default, halfMillisecondLater⟩

/-- The only key is shown as free and as expired. -/
theorem status_spec_lapsed :
    (statusReport lapsedContext).lines = statusHead lapsedContext ++
      [Line.styled .yellow "  hal: 总计 1 / 已分配 0 / 空闲 1 / 过期 1"] ∧
    ∃ keys, lapsedContext.store.keys.result = .ok keys ∧ ∃ pool : PoolStatus,
      pool.component = "hal" ∧ pool.Tallies keys lapsedContext.now ∧
        pool.total ≠ pool.assigned + pool.unassigned + pool.expired := by
  have hkeys : oneEnding.keys.result = .ok [{ AttestationKey.ending .epoch with id := some 1 }] := by
    rw [oneEnding_eq]
    rfl
  have hpools : PoolStatus.ofStore oneEnding halfMillisecondLater = .ok [⟨"hal", 1, 0, 1, 1⟩] := by
    rw [oneEnding_eq]
    rfl
  refine ⟨?_, _, hkeys, ?_⟩
  · rw [@statusReport_eq lapsedContext _ hpools]
    rfl
  · obtain ⟨pools, -, -, -, hnames, htallies⟩ := (status_spec lapsedContext).shown _ hkeys
    obtain ⟨pool, hpool, hname⟩ :=
      List.mem_map.mp ((hnames "hal").mpr ⟨_, List.mem_singleton_self _, rfl⟩)
    refine ⟨pool, hname, htallies pool hpool, ?_⟩
    intro hbalanced
    have hnone := (htallies pool hpool).balanced_iff.mp hbalanced _ (List.mem_singleton_self _)
      hname.symm rfl
    exact absurd hnone (by decide)

end Console

end KeyPool
