import KeyPool.Proofs.Provisioning.Batching

/-! How many keys an attempt adds to the pool of a component, and what then stands in it. An attempt
that succeeds closes the gap to the policy, unless the policy caps requests at no key. -/

namespace KeyPool

variable {σ : Type}

/-! ## Running through the batches -/

theorem Exchange.length_gained {component : String} (xs : List (Exchange component)) :
    (gained xs).length = (xs.map (·.keys.length)).sum := by
  induction xs with
  | nil => rfl
  | cons x xs ih =>
      rw [List.map_cons, List.sum_cons, ← ih, ← x.length_records, ← List.length_append]
      rfl

namespace Provision

variable {p p' : Progress σ} {component : Component σ} {server : Server σ} {geek : Geek}

/-- Batches that all succeed put as many keys behind those of the store as were needed. Batches of
no size are none. -/
theorem storeBatches_ok {batchSize index needed n : Nat}
    (h : storeBatches component server geek batchSize index needed p = (.ok n, p')) :
    ∃ xs, Exchanges component server geek p.outside xs p'.outside ∧
      p'.store = p.store.add (Exchange.gained xs) ∧ (Exchange.gained xs).length = n ∧
      n = if batchSize = 0 then 0 else needed := by
  obtain ⟨xs, made, calls, hc⟩ := storeBatches_committed h
  have hall : xs.length = (Batch.sizes needed batchSize).length := hc.ok_iff.mp ⟨n, rfl⟩
  have hsized : xs.map (·.keys.length) = Batch.sizes needed batchSize := by
    rw [hc.sized, hall, List.take_length]
  obtain ⟨w, stop?, hxs, hend, hresult⟩ := hc.ended
  rw [hall, List.drop_length] at hend
  cases hend with
  | finished =>
      have hn : n = (Exchange.gained xs).length := Except.ok.inj hresult
      refine ⟨xs, hxs, hc.stored, hn.symm, ?_⟩
      rw [hn, Exchange.length_gained, hsized, Batch.sum_sizes]

end Provision

/-- The keys that a successful attempt adds to a pool: those that are missing, but none where no key
may go into a request. -/
def Policy.due (policy : Policy) (free : Nat) : Nat :=
  if policy.maxBatchSize = some 0 then 0 else policy.extraKeys - free

/-- The world outside after a component was asked for its batch size, if keys are missing at all. -/
def Policy.asked (policy : Policy) (component : Component σ) (free : Nat) (w : σ) : σ :=
  if policy.extraKeys ≤ free then w else (component.batchSize w).2

namespace Policy

variable (policy : Policy) (free : Nat)

theorem due_eq_iff : policy.due free = policy.extraKeys - free ↔
    ¬ (free < policy.extraKeys ∧ policy.maxBatchSize = some 0) := by
  unfold due
  by_cases hcap : policy.maxBatchSize = some 0
  · rw [if_pos hcap]
    simp only [hcap, and_true]
    omega
  · simp [hcap]

theorem due_eq_zero_iff :
    policy.due free = 0 ↔ policy.extraKeys ≤ free ∨ policy.maxBatchSize = some 0 := by
  unfold due
  by_cases hcap : policy.maxBatchSize = some 0
  · simp [hcap]
  · rw [if_neg hcap, Nat.sub_eq_zero_iff_le]
    simp [hcap]

theorem add_due : free + policy.due free =
    if policy.maxBatchSize = some 0 then free else max free policy.extraKeys := by
  unfold due
  split
  · rfl
  · omega

end Policy

theorem Batch.capped_eq_zero {reported : Nat} (h : reported ≠ 0) (cap : Option Nat) :
    capped reported cap = 0 ↔ cap = some 0 := by
  cases cap with
  | none => simp [capped, h]
  | some cap =>
      rw [capped, Option.some.injEq]
      omega

namespace Provision

variable {policy : Policy} {now : Timestamp} {component : Component σ} {server : Server σ}
  {geek : Geek} {p p' : Progress σ}

theorem fillPool_ok {n : Nat} (h : fillPool policy now component server geek p = (.ok n, p')) :
    ∃ free xs, (p.store.countFree component.name now).result = .ok free ∧
      Exchanges component server geek (policy.asked component free p.outside) xs p'.outside ∧
      p'.store = p.store.add (Exchange.gained xs) ∧ (Exchange.gained xs).length = n ∧
      n = policy.due free := by
  rcases fillPool_cases h with
    ⟨hstore, -, calls, hnone⟩ | ⟨free, reported, q, hstore, -, hstart, h⟩
  · generalize p'.outside = last at hnone ⊢
    cases hnone with
    | full hfree hfull =>
        rename_i free
        have hdue : policy.due free = 0 := (policy.due_eq_zero_iff free).mpr (.inl hfull)
        refine ⟨free, [], hfree, ?_, hstore, rfl, hdue.symm⟩
        rw [Policy.asked, if_pos hfull]
        exact .none p.outside
  · obtain ⟨xs, hxs, hadded, hlength, hn⟩ := storeBatches_ok h
    have hasked : policy.asked component free p.outside = q.outside := by
      rw [Policy.asked, if_neg (Nat.not_le.mpr hstart.short), hstart.asked]
    refine ⟨free, xs, hstart.counted, hasked ▸ hxs, hstore ▸ hadded, hlength, ?_⟩
    -- the size is not looked at again after the cap, which may be zero
    rw [hn, Policy.due]
    simp only [Batch.capped_eq_zero hstart.sized]

/-- Under a policy that lets no key into a request, filling a short pool ends at once. -/
theorem fillPool_short {free reported : Nat} {w : σ}
    (hfree : (p.store.countFree component.name now).result = .ok free)
    (hlt : free < policy.extraKeys) (hcap : policy.maxBatchSize = some 0)
    (hreported : component.batchSize p.outside = (.ok reported, w)) (hne : reported ≠ 0) :
    ∃ q, fillPool policy now component server geek p = (.ok 0, q) ∧ q.store = p.store := by
  have hnone (n : Nat) : Batch.capped n policy.maxBatchSize = 0 := by
    simp [Batch.capped, hcap]
  cases hfill : fillPool policy now component server geek p with
  | mk result q =>
      rcases fillPool_cases hfill with
        ⟨-, -, calls, hends⟩ | ⟨free', reported', q', hstore, -, hstart, hbatches⟩
      · exfalso
        generalize q.outside = last at hends
        cases hends with
        | uncounted he => simp [hfree] at he
        | full hfree' hfull =>
            rw [hfree, Except.ok.injEq] at hfree'
            omega
        | unasked _ _ hstop => cases hreported.symm.trans hstop
        | sizeless _ _ hzero =>
            cases hreported.symm.trans hzero
            exact hne rfl
        | unlisted _ _ _ _ hlong => simp [hnone, Batch.isListable] at hlong
      · rw [hnone, storeBatches, if_pos (.inr rfl)] at hbatches
        cases hbatches
        exact ⟨_, rfl, hstore⟩

end Provision

theorem AttemptStatus.ofResult_eq_notNeeded {result : Except Stop Nat} :
    ofResult result = notNeeded ↔ result = .ok 0 := by
  cases result with
  | error stop => cases stop <;> simp [ofResult]
  | ok n => cases n <;> simp [ofResult]

/-! ## The pool afterwards -/

namespace Store

theorem countFree_eq_ok {s : Store} {component : String} {now : Timestamp} {free : Nat} :
    (s.countFree component now).result = .ok free ↔ s.poisoned = false ∧
      s.db.rows.countP
        (fun row => row.isFree component && row.expiration.isAtLeast now.toMillis) = free := by
  unfold countFree query
  cases s.poisoned <;> simp [refuse]

theorem countFree_add {s : Store} {component : String} {now : Timestamp} {free : Nat}
    (h : (s.countFree component now).result = .ok free) {keys : List AttestationKey}
    (hkeys : ∀ key ∈ keys, key.component = component ∧ key.assignment = none ∧
      now ≤ key.expiration) :
    ((s.add keys).countFree component now).result = .ok (free + keys.length) := by
  obtain ⟨hp, hcount⟩ := countFree_eq_ok.mp h
  refine countFree_eq_ok.mpr ⟨?_, ?_⟩
  · rw [add_poisoned, hp]
  · rw [add_rows, List.countP_append, hcount, ← KeyRow.length_numbered s.db.lastUsed keys]
    refine congrArg _ (List.countP_eq_length.mpr ?_)
    intro row hrow
    obtain ⟨key, hkey, id, rfl⟩ := KeyRow.exists_key_of_mem_numbered hrow
    obtain ⟨hcomponent, hunbound, hlive⟩ := hkeys key hkey
    rw [Bool.and_eq_true]
    refine ⟨?_, ?_⟩
    · simp [KeyRow.isFree, KeyRow.ofKey, hcomponent, hunbound, Cell.ofInteger?]
    · simpa [KeyRow.ofKey, Cell.isAtLeast] using Timestamp.toMillis_mono hlive

end Store

/-- What an attempt that succeeds with `n` keys has done, where `free` keys were in the pool. The gap
is closed, unless there is one and the policy admits no key to a request. The new rows are what the
batches of the attempt brought in, and no other has changed. If no leaf that the server returned for
them has expired, they are all in the pool. -/
structure Filled (policy : Policy) (now : Timestamp) (component : Component σ) (server : Server σ)
    (geek : Geek) (p : Progress σ) (n : Nat) (p' : Progress σ) (free : Nat) : Prop where
  counted : (p.store.countFree component.name now).result = .ok free
  stored : n = policy.due free
  complete : n = policy.extraKeys - free ↔
    ¬ (free < policy.extraKeys ∧ policy.maxBatchSize = some 0)
  added : ∃ rows, p'.store.db.rows = p.store.db.rows ++ rows ∧ rows.length = n ∧
    ∀ row ∈ rows, row.component = .text component.name ∧ row.IsUnbound
  level : ∃ xs, Exchanges component server geek
      (policy.asked component free p.outside) xs p'.outside ∧
    p'.store = p.store.add (Exchange.gained xs) ∧
    ((∀ x ∈ xs, ∀ encoded ∈ x.chains, ∀ chain, CertificateChain.ofBytes encoded = .ok chain →
        now ≤ chain.leaf.notAfter) →
      (p'.store.countFree component.name now).result =
        .ok (if policy.maxBatchSize = some 0 then free else max free policy.extraKeys))
  status : p'.attempt.status = .notNeeded ↔ n = 0

/-- How an attempt fills the pool of a component, from any store and with any partners. That nothing
was needed is said where the pool is full, or where no key may be requested. There a short pool stays
short and the attempt succeeds. -/
structure FillingSpec (policy : Policy) (now : Timestamp) (component : Component σ)
    (server : Server σ) (geek : Geek) (p : Progress σ) : Prop where
  filled : ∀ n p', Provision.run policy now component server geek p = (.ok n, p') →
    ∃ free, Filled policy now component server geek p n p' free
  notNeeded : ∀ result p', Provision.run policy now component server geek p = (result, p') →
    p'.attempt.status = .notNeeded →
      ∃ free, (p.store.countFree component.name now).result = .ok free ∧
        (policy.extraKeys ≤ free ∨ policy.maxBatchSize = some 0)
  short : ∀ free reported w, (p.store.countFree component.name now).result = .ok free →
    free < policy.extraKeys → policy.maxBatchSize = some 0 →
      component.batchSize p.outside = (.ok reported, w) → reported ≠ 0 →
        ∃ p', Provision.run policy now component server geek p = (.ok 0, p') ∧
          p'.store = p.store ∧ p'.attempt.status = .notNeeded

section

variable (policy : Policy) (now : Timestamp) (component : Component σ) (server : Server σ)
  (geek : Geek) (p : Progress σ)

theorem run_filled {n : Nat} {p' : Progress σ}
    (h : Provision.run policy now component server geek p = (.ok n, p')) :
    ∃ free, Filled policy now component server geek p n p' free := by
  obtain ⟨q, hfill, rfl⟩ := Provision.run_eq_iff.mp h
  obtain ⟨free, xs, hfree, hxs, hstore, hlength, hn⟩ := Provision.fillPool_ok hfill
  refine ⟨free, hfree, hn, hn ▸ policy.due_eq_iff free, ?_, ⟨xs, hxs, hstore, ?_⟩, ?_⟩
  · refine ⟨KeyRow.numbered p.store.db.lastUsed (Exchange.gained xs), ?_, ?_, ?_⟩
    · change q.store.db.rows = _
      rw [hstore, Store.add_rows]
    · rw [KeyRow.length_numbered, hlength]
    · intro row hrow
      obtain ⟨key, hkey, id, rfl⟩ := KeyRow.exists_key_of_mem_numbered hrow
      obtain ⟨hcomponent, hunbound⟩ := Exchange.unbound_of_mem_gained hkey
      exact ⟨congrArg Cell.text hcomponent, KeyRow.ofKey_unbound hunbound⟩
  · intro hleaves
    have hlive : ∀ key ∈ Exchange.gained xs, key.component = component.name ∧
        key.assignment = none ∧ now ≤ key.expiration := by
      intro key hkey
      obtain ⟨hcomponent, hunbound⟩ := Exchange.unbound_of_mem_gained hkey
      exact ⟨hcomponent, hunbound, Exchange.alive_of_mem_gained hleaves hkey⟩
    change (q.store.countFree component.name now).result = _
    rw [hstore, Store.countFree_add hfree hlive, hlength, hn, policy.add_due free]
  · change AttemptStatus.ofResult (.ok n) = _ ↔ _
    rw [AttemptStatus.ofResult_eq_notNeeded, Except.ok.injEq]

/-- An attempt that succeeds brings the free keys of the component up to the policy, and adds no
more than that. It falls short of it under one policy alone, which lets no key into a request: then
it adds none and says that none was needed. -/
theorem filling_spec : FillingSpec policy now component server geek p := by
  refine ⟨fun n p' h => run_filled policy now component server geek p h, ?_, ?_⟩
  · intro result p' h hstatus
    obtain ⟨q, hfill, rfl⟩ := Provision.run_eq_iff.mp h
    obtain rfl := AttemptStatus.ofResult_eq_notNeeded.mp hstatus
    obtain ⟨free, xs, hfree, -, -, -, hn⟩ := Provision.fillPool_ok hfill
    exact ⟨free, hfree, (policy.due_eq_zero_iff free).mp hn.symm⟩
  · intro free reported w hfree hlt hcap hreported hne
    obtain ⟨q, hfill, hstore⟩ :
        ∃ q, Provision.fillPool policy now component server geek p = (.ok 0, q) ∧
          q.store = p.store :=
      Provision.fillPool_short hfree hlt hcap hreported hne
    exact ⟨_, Provision.run_eq_iff.mpr ⟨q, hfill, rfl⟩, hstore, rfl⟩

end

/-! ## A pool of one key -/

def Component.oneKey : Component Unit where
  name := "hal"
  batchSize := pure 1
  newKey := pure ⟨[1], (Bytes.selfSigned.drop 63).take 32⟩
  signRequest _ _ := pure []

def Server.oneChain : Server Unit where
  greet := throw (.failed (.network ""))
  certify _ _ := pure [.selfSigned]

/-- An attempt to have one key on hand, under a cap if there is one. -/
def Provision.one (cap : Option Nat) : Except Stop Nat × Progress Unit :=
  run { Policy.default with extraKeys := 1, maxBatchSize := cap } .epoch .oneKey .oneChain
    ⟨[], [], none, none, none⟩ ⟨.empty, (), .ofComponent .manual "hal", []⟩

/-- Without a cap the pool gets its key. Under a cap of no key the same pool stays empty, and
nothing is said to have been needed. -/
theorem filling_spec_one :
    (∃ p' free, Provision.one none = (.ok 1, p') ∧
        Filled { Policy.default with extraKeys := 1, maxBatchSize := none } .epoch .oneKey .oneChain
          ⟨[], [], none, none, none⟩ ⟨.empty, (), .ofComponent .manual "hal", []⟩ 1 p' free) ∧
      ∃ p', Provision.one (some 0) = (.ok 0, p') ∧ p'.store = .empty ∧
        p'.attempt.status = .notNeeded := by
  refine ⟨?_, ?_⟩
  · have hresult : (Provision.one none).1 = .ok 1 := toOption_eq_some.mp (by decide +kernel)
    have hrun : Provision.one none = (.ok 1, (Provision.one none).2) := Prod.ext hresult rfl
    obtain ⟨free, hfilled⟩ := (filling_spec _ _ _ _ _ _).filled 1 _ hrun
    exact ⟨_, free, hrun, hfilled⟩
  · exact (filling_spec _ _ _ _ _ _).short 0 1 () rfl (by decide) rfl rfl (by decide)

end KeyPool
