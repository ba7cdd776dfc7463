import KeyPool.Proofs.Provisioning.Exchange
import KeyPool.Proofs.Provisioning.Sizes

/-! How batches go, whatever the partners do. Each batch is stored as a whole or stops the attempt: a
call fails, an answer does not certify the keys, or the store refuses the records. What stopped it
was the last call. -/

namespace KeyPool

/-! ## Counters -/

/-- The counters of an attempt went on by so many keys made and stored, modulo `2 ^ 64`. -/
structure Attempt.Counts (a : Attempt) (made stored : Nat) (a' : Attempt) : Prop where
  generated : a.keysGenerated < 18446744073709551616 →
    a'.keysGenerated = (a.keysGenerated + made) % 18446744073709551616
  stored : a.keysStored < 18446744073709551616 →
    a'.keysStored = (a.keysStored + stored) % 18446744073709551616

namespace Attempt.Counts

theorem refl (a : Attempt) : a.Counts 0 0 a :=
  ⟨fun h => (Nat.mod_eq_of_lt h).symm, fun h => (Nat.mod_eq_of_lt h).symm⟩

theorem noted (a : Attempt) (n : Nat) : a.Counts 0 0 (a.noteUnassigned n) :=
  ⟨(refl a).generated, (refl a).stored⟩

theorem generated_one (a : Attempt) : a.Counts 1 0 a.countGenerated :=
  ⟨fun _ => rfl, fun h => (Nat.mod_eq_of_lt h).symm⟩

theorem stored_all (a : Attempt) (n : Nat) : a.Counts 0 n (a.countStored n) :=
  ⟨fun h => (Nat.mod_eq_of_lt h).symm, fun _ => rfl⟩

theorem trans {a a' a'' : Attempt} {m n m' n' : Nat} (h : a.Counts m n a')
    (h' : a'.Counts m' n' a'') : a.Counts (m + m') (n + n') a'' := by
  have hmod {x y k l : Nat} (hx : y = (x + k) % 18446744073709551616) :
      (y + l) % 18446744073709551616 = (x + (k + l)) % 18446744073709551616 := by
    rw [hx, Nat.mod_add_mod, Nat.add_assoc]
  have hbelow {x k : Nat} : (x + k) % 18446744073709551616 < 18446744073709551616 :=
    Nat.mod_lt _ (by decide)
  constructor
  · intro ha
    have hfirst := h.generated ha
    rw [h'.generated (hfirst ▸ hbelow), hmod hfirst]
  · intro ha
    have hfirst := h.stored ha
    rw [h'.stored (hfirst ▸ hbelow), hmod hfirst]

end Attempt.Counts

namespace Call

variable {τ α β : Type} {x : Call τ α} {w w' : τ}

/-- A step that does not succeed is the last one. -/
theorem bind_eq {f : α → Call τ β} {result : Except Stop β} :
    (x >>= f) w = (result, w') ↔
      (∃ stop, x w = (.error stop, w') ∧ result = .error stop) ∨
        ∃ a u, x w = (.ok a, u) ∧ f a u = (result, w') := by
  change ExceptT.bindCont f (x w).1 (x w).2 = (result, w') ↔ _
  obtain ⟨found, u⟩ := x w
  cases found with
  | error stop =>
      constructor
      · intro h
        cases h
        exact .inl ⟨stop, rfl, rfl⟩
      · rintro (⟨_, h, rfl⟩ | ⟨_, _, h, -⟩)
        · cases h
          rfl
        · cases h
  | ok a =>
      constructor
      · intro h
        exact .inr ⟨a, u, rfl, h⟩
      · rintro (⟨_, h, -⟩ | ⟨_, _, h, hf⟩)
        · cases h
        · cases h
          exact hf

/-- What is done with the answer of the last step changes nothing else. -/
theorem bind_pure_eq {f : α → β} {result : Except Stop β} :
    (x >>= fun a => pure (f a)) w = (result, w') ↔
      ∃ found, x w = (found, w') ∧ result = found.map f := by
  change ExceptT.bindCont (fun a => (pure (f a) : Call τ β)) (x w).1 (x w).2 = (result, w') ↔ _
  obtain ⟨found, u⟩ := x w
  constructor
  · intro h
    cases found <;> cases h <;> exact ⟨_, rfl, rfl⟩
  · rintro ⟨_, h, rfl⟩
    cases h
    cases found <;> rfl

end Call

namespace Provision

variable {σ α β : Type} {p p' : Progress σ}

theorem call_eq {c : Call σ α} {result : Except Stop α} :
    call c p = (result, p') ↔ ∃ w, c p.outside = (result, w) ∧ { p with outside := w } = p' := by
  change ((c p.outside).1, { p with outside := (c p.outside).2 }) = (result, p') ↔ _
  rw [Prod.mk.injEq]
  constructor
  · rintro ⟨ha, hp⟩
    exact ⟨_, Prod.ext ha rfl, hp⟩
  · rintro ⟨w, hc, hp⟩
    rw [hc]
    exact ⟨rfl, hp⟩

theorem needRoom_bind (f : Unit → Provision σ α) (p : Progress σ) :
    (needRoom true >>= f) p = f () p := rfl

theorem tally_bind (count : Attempt → Attempt) (f : Unit → Provision σ α) (p : Progress σ) :
    (tally count >>= f) p = f () { p with attempt := count p.attempt } := rfl

theorem emit_bind (event : Event) (f : Unit → Provision σ α) (p : Progress σ) :
    (emit event >>= f) p = f () { p with events := p.events ++ [event] } := rfl

end Provision

/-! ## One batch -/

variable {σ : Type}

/-- The ways in which a number of keys can be made: all of them, or some before one cannot be. -/
inductive Component.Making (component : Component σ) (n : Nat) (w : σ) :
    List FreshKey → Except Stop (List FreshKey) → σ → Prop where
  | all {keys : List FreshKey} {last : σ} (hkeys : component.Makes w keys last)
      (hall : keys.length = n) : Making component n w keys (.ok keys) last
  | stopped {keys : List FreshKey} {made last : σ} {stop : Stop}
      (hkeys : component.Makes w keys made) (hfew : keys.length < n)
      (hstop : component.newKey made = (.error stop, last)) :
      Making component n w keys (.error stop) last

def Exchange.calls {component : String} (geek : Geek) (x : Exchange component) : List CallRecord :=
  List.replicate x.keys.length (.newKey component) ++
    [.signRequest component geek.chain x.keys.length, .certify x.csr geek.challenge]

/-- The ways in which a batch of some size can be asked for: how many keys are made, the calls, what
comes of it, and the world outside after the last of the calls. -/
inductive Requesting (component : Component σ) (server : Server σ) (geek : Geek) (size : Nat)
    (w : σ) : Nat → List CallRecord → Except Stop (Exchange component.name) → σ → Prop where
  | tooLarge (hroom : Batch.isHoldable size = false) :
      Requesting component server geek size w 0 [] (.error (.crashed .capacityOverflow)) w
  | notMade {keys : List FreshKey} {made last : σ} {stop : Stop}
      (hroom : Batch.isHoldable size = true) (hkeys : component.Makes w keys made)
      (hfew : keys.length < size) (hstop : component.newKey made = (.error stop, last)) :
      Requesting component server geek size w keys.length
        (List.replicate (keys.length + 1) (.newKey component.name)) (.error stop) last
  | notSigned {keys : List FreshKey} {made last : σ} {stop : Stop}
      (hroom : Batch.isHoldable size = true) (hkeys : component.Makes w keys made)
      (hall : keys.length = size)
      (hstop : component.signRequest geek keys made = (.error stop, last)) :
      Requesting component server geek size w size
        (List.replicate size (.newKey component.name) ++
          [.signRequest component.name geek.chain size]) (.error stop) last
  | notAnswered {keys : List FreshKey} {made signed last : σ} {csr : Bytes} {stop : Stop}
      (hroom : Batch.isHoldable size = true) (hkeys : component.Makes w keys made)
      (hall : keys.length = size)
      (hcsr : component.signRequest geek keys made = (.ok csr, signed))
      (hstop : server.certify csr geek.challenge signed = (.error stop, last)) :
      Requesting component server geek size w size
        (List.replicate size (.newKey component.name) ++
          [.signRequest component.name geek.chain size, .certify csr geek.challenge])
        (.error stop) last
  | malformed {keys : List FreshKey} {made signed last : σ} {csr : Bytes} {chains : List Bytes}
      {fault : ResponseFault}
      (hroom : Batch.isHoldable size = true) (hkeys : component.Makes w keys made)
      (hall : keys.length = size)
      (hcsr : component.signRequest geek keys made = (.ok csr, signed))
      (hchains : server.certify csr geek.challenge signed = (.ok chains, last))
      (hfault : ResponseFault.certifyAll component.name keys chains = .error fault) :
      Requesting component server geek size w size
        (List.replicate size (.newKey component.name) ++
          [.signRequest component.name geek.chain size, .certify csr geek.challenge])
        (.error (.failed (.malformedResponse fault))) last
  | certified {last : σ} (x : Exchange component.name)
      (hroom : Batch.isHoldable size = true) (hx : x.Between server geek w last)
      (hall : x.keys.length = size) :
      Requesting component server geek size w size (x.calls geek) (.ok x) last

namespace Provision

variable {p p' : Progress σ} {component : Component σ} {server : Server σ} {geek : Geek}

theorem generateKeys_making {n : Nat} {result : Except Stop (List FreshKey)}
    (h : generateKeys component n p = (result, p')) :
    ∃ keys, component.Making n p.outside keys result p'.outside ∧ p'.store = p.store ∧
      p.attempt.Counts keys.length 0 p'.attempt := by
  induction n generalizing p result with
  | zero =>
      cases h
      exact ⟨[], .all (.none _) rfl, rfl, .refl _⟩
  | succ n ih =>
      rcases Call.bind_eq.mp h with ⟨stop, hcall, rfl⟩ | ⟨key, q, hcall, h⟩
      · obtain ⟨last, hstop, rfl⟩ := call_eq.mp hcall
        exact ⟨[], .stopped (.none _) (Nat.succ_pos n) hstop, rfl, .refl _⟩
      · obtain ⟨w, hkey, rfl⟩ := call_eq.mp hcall
        rw [tally_bind] at h
        have hcount {rest : List FreshKey}
            (hrest : p.attempt.countGenerated.Counts rest.length 0 p'.attempt) :
            p.attempt.Counts (key :: rest).length 0 p'.attempt := by
          rw [List.length_cons, Nat.add_comm]
          exact (Attempt.Counts.generated_one p.attempt).trans hrest
        obtain ⟨found, hrest, rfl⟩ := Call.bind_pure_eq.mp h
        obtain ⟨keys, hmaking, hstore, hcounts⟩ := ih hrest
        refine ⟨key :: keys, ?_, hstore, hcount hcounts⟩
        cases hmaking with
        | all hkeys hall => exact .all (.next hkey hkeys) (congrArg Nat.succ hall)
        | stopped hkeys hfew hstop =>
            exact .stopped (.next hkey hkeys) (Nat.succ_lt_succ hfew) hstop

/-- What comes of asking for a batch. The store is not used for it. -/
theorem requestBatch_requesting {size : Nat} {result : Except Stop (List AttestationKey)}
    (h : requestBatch component server geek size p = (result, p')) :
    ∃ made calls outcome,
      Requesting component server geek size p.outside made calls outcome p'.outside ∧
        result = outcome.map (·.records) ∧ p'.store = p.store ∧
        p.attempt.Counts made 0 p'.attempt := by
  unfold requestBatch at h
  by_cases hlarge : Batch.isHoldable size = false
  · rw [hlarge] at h
    cases h
    exact ⟨0, [], _, .tooLarge hlarge, rfl, rfl, .refl p.attempt⟩
  have hroom : Batch.isHoldable size = true := by simpa using hlarge
  rw [hroom, needRoom_bind] at h
  rcases Call.bind_eq.mp h with ⟨stop, hkeys, rfl⟩ | ⟨keys, q, hkeys, h⟩
  · obtain ⟨keys, hmaking, hstore, hcounts⟩ := generateKeys_making hkeys
    cases hmaking with
    | stopped hkeys hfew hstop =>
        exact ⟨_, _, _, .notMade hroom hkeys hfew hstop, rfl, hstore, hcounts⟩
  obtain ⟨keys', hmaking, hstore, hcounts⟩ := generateKeys_making hkeys
  cases hmaking with
  | all hkeys hall =>
      -- from here on only the world outside changes
      rw [hall] at hcounts
      rcases Call.bind_eq.mp h with ⟨stop, hcall, rfl⟩ | ⟨csr, q', hcall, h⟩
      · obtain ⟨last, hstop, rfl⟩ := call_eq.mp hcall
        exact ⟨_, _, _, .notSigned hroom hkeys hall hstop, rfl, hstore, hcounts⟩
      obtain ⟨signed, hcsr, rfl⟩ := call_eq.mp hcall
      rcases Call.bind_eq.mp h with ⟨stop, hcall, rfl⟩ | ⟨chains, q', hcall, h⟩
      · obtain ⟨last, hstop, rfl⟩ := call_eq.mp hcall
        exact ⟨_, _, _, .notAnswered hroom hkeys hall hcsr hstop, rfl, hstore, hcounts⟩
      obtain ⟨last, hchains, rfl⟩ := call_eq.mp hcall
      cases hfound : ResponseFault.certifyAll component.name keys chains with
      | error fault =>
          rw [hfound] at h
          cases h
          exact ⟨_, _, _, .malformed hroom hkeys hall hcsr hchains hfound, rfl, hstore, hcounts⟩
      | ok records =>
          rw [hfound] at h
          cases h
          exact ⟨_, _, _, .certified ⟨keys, csr, chains, records, hfound⟩ hroom
            ⟨_, _, hkeys, hcsr, hchains⟩ hall, rfl, hstore, hcounts⟩

end Provision

/-! ## One batch after another -/

/-- Batches that are requested one after another, and the world outside before and after. -/
inductive Exchanges (component : Component σ) (server : Server σ) (geek : Geek) :
    σ → List (Exchange component.name) → σ → Prop
  | none (w : σ) : Exchanges component server geek w [] w
  | next {w w' w'' : σ} {x : Exchange component.name} {xs : List (Exchange component.name)}
      (hx : x.Between server geek w w') (hxs : Exchanges component server geek w' xs w'') :
      Exchanges component server geek w (x :: xs) w''

def Exchange.gained {component : String} (xs : List (Exchange component)) : List AttestationKey :=
  xs.flatMap (·.records)

namespace Exchange

variable {component : String} {xs : List (Exchange component)} {record : AttestationKey}

theorem exists_of_mem_gained (h : record ∈ gained xs) :
    ∃ x ∈ xs, ∃ key ∈ x.keys, ∃ encoded ∈ x.chains, key.Certified component encoded record := by
  obtain ⟨x, hx, hrecord⟩ := List.mem_flatMap.mp h
  exact ⟨x, hx, x.exists_of_mem_records hrecord⟩

theorem unbound_of_mem_gained (h : record ∈ gained xs) :
    record.component = component ∧ record.assignment = none := by
  obtain ⟨x, -, key, -, encoded, -, chain, -, -, rfl⟩ := exists_of_mem_gained h
  exact ⟨rfl, rfl⟩

theorem alive_of_mem_gained {now : Timestamp}
    (hleaves : ∀ x ∈ xs, ∀ encoded ∈ x.chains, ∀ chain,
      CertificateChain.ofBytes encoded = .ok chain → now ≤ chain.leaf.notAfter)
    (h : record ∈ gained xs) : now ≤ record.expiration := by
  obtain ⟨x, hx, key, -, encoded, hencoded, chain, hchain, -, rfl⟩ := exists_of_mem_gained h
  exact hleaves x hx encoded hencoded chain hchain

end Exchange

/-- How an attempt ends that has come to the last of its batches, or to one that is not stored: how
many more keys are made, the calls, why it stops if it does, and the world outside after the last
call. -/
inductive Ending (component : Component σ) (server : Server σ) (geek : Geek) (s : Store) (w : σ) :
    List Nat → Nat → List CallRecord → Option Stop → σ → Prop where
  | finished : Ending component server geek s w [] 0 [] none w
  | refused {size made : Nat} {sizes : List Nat} {calls : List CallRecord} {stop : Stop} {last : σ}
      (h : Requesting component server geek size w made calls (.error stop) last) :
      Ending component server geek s w (size :: sizes) made calls (some stop) last
  | rejected {size made : Nat} {sizes : List Nat} {calls : List CallRecord}
      {x : Exchange component.name} {e : StoreError} {last : σ}
      (h : Requesting component server geek size w made calls (.ok x) last)
      (he : (s.insert x.records).result = .error e) :
      Ending component server geek s w (size :: sizes) made calls (some (.failed (.store e))) last

/-- What an attempt leaves that goes through batches of some sizes: `xs` are stored, each as a whole
and behind those before it, and then it ends. -/
structure Committed (component : Component σ) (server : Server σ) (geek : Geek) (sizes : List Nat)
    (p : Progress σ) (xs : List (Exchange component.name)) (made : Nat) (calls : List CallRecord)
    (result : Except Stop Nat) (p' : Progress σ) : Prop where
  sized : xs.map (·.keys.length) = sizes.take xs.length
  stored : p'.store = p.store.add (Exchange.gained xs)
  ended : ∃ w stop?, Exchanges component server geek p.outside xs w ∧
    Ending component server geek p'.store w (sizes.drop xs.length) made calls stop? p'.outside ∧
      result = stop?.elim (.ok (Exchange.gained xs).length) .error
  counted : p.attempt.Counts ((Exchange.gained xs).length + made) (Exchange.gained xs).length
    p'.attempt

namespace Committed

variable {p q p' : Progress σ} {component : Component σ} {server : Server σ} {geek : Geek}
  {sizes : List Nat} {xs : List (Exchange component.name)} {made : Nat} {calls : List CallRecord}
  {result : Except Stop Nat}

/-- What is left after one batch is stored and an attempt goes on. -/
theorem cons {x : Exchange component.name} (hx : x.Between server geek p.outside q.outside)
    (hstore : q.store = p.store.add x.records)
    (hcounts : p.attempt.Counts x.records.length x.records.length q.attempt)
    (h : Committed component server geek sizes q xs made calls result p') :
    Committed component server geek (x.records.length :: sizes) p (x :: xs) made calls
      (result.map (x.records.length + ·)) p' := by
  have hgained : Exchange.gained (x :: xs) = x.records ++ Exchange.gained xs := rfl
  obtain ⟨w, stop?, hxs, hend, hresult⟩ := h.ended
  refine ⟨?_, ?_, ⟨w, stop?, .next hx hxs, hend, ?_⟩, ?_⟩
  · simp only [List.map_cons, List.length_cons, List.take_succ_cons, h.sized, x.length_records]
  · rw [h.stored, hstore, Store.add_add, hgained]
  · rw [hresult, hgained, List.length_append]
    cases stop? <;> rfl
  · rw [hgained, List.length_append, Nat.add_assoc]
    exact hcounts.trans h.counted

/-- What is left when the first batch is not stored. -/
theorem stopped {stop : Stop}
    (hend : Ending component server geek p'.store p.outside sizes made calls (some stop) p'.outside)
    (hresult : result = .error stop) (hstore : p'.store = p.store)
    (hcounts : p.attempt.Counts made 0 p'.attempt) :
    Committed component server geek sizes p [] made calls result p' := by
  refine ⟨rfl, hstore, ⟨p.outside, some stop, .none _, hend, hresult⟩, ?_⟩
  rw [Exchange.gained, List.flatMap_nil, List.length_nil, Nat.zero_add]
  exact hcounts

/-- Batches are stored in order, so there are no more of them than there are sizes. -/
theorem length_le (h : Committed component server geek sizes p xs made calls result p') :
    xs.length ≤ sizes.length := by
  have hlength := congrArg List.length h.sized
  rw [List.length_map, List.length_take] at hlength
  omega

/-- An attempt succeeds exactly when it stores all of its batches. -/
theorem ok_iff (h : Committed component server geek sizes p xs made calls result p') :
    (∃ n, result = .ok n) ↔ xs.length = sizes.length := by
  obtain ⟨w, stop?, -, hend, rfl⟩ := h.ended
  have hle := h.length_le
  generalize hrest : sizes.drop xs.length = rest at hend
  have hlength := congrArg List.length hrest
  rw [List.length_drop] at hlength
  cases hend with
  | finished =>
      rw [List.length_nil] at hlength
      exact ⟨fun _ => by omega, fun _ => ⟨_, rfl⟩⟩
  | refused =>
      rw [List.length_cons] at hlength
      exact ⟨fun ⟨_, hok⟩ => (nomatch hok), fun _ => by omega⟩
  | rejected =>
      rw [List.length_cons] at hlength
      exact ⟨fun ⟨_, hok⟩ => (nomatch hok), fun _ => by omega⟩

end Committed

namespace Provision

variable {p p' : Progress σ} {component : Component σ} {server : Server σ} {geek : Geek}

theorem insert_eq {records : List AttestationKey} {result : Except Stop Unit}
    (h : onStore (fun s => (s.insert records).report) p = (result, p')) :
    p'.outside = p.outside ∧ p'.attempt = p.attempt ∧
      ((result = .ok () ∧ p'.store = p.store.add records) ∨
        ∃ e, (p.store.insert records).result = .error e ∧
          result = .error (.failed (.store e)) ∧ p'.store = p.store) := by
  change (((p.store.insert records).result.mapError .store).mapError Stop.failed, _) = _ at h
  obtain ⟨hresult, rfl⟩ := Prod.mk.inj h
  refine ⟨rfl, rfl, ?_⟩
  cases hinsert : (p.store.insert records).result with
  | ok u =>
      rw [hinsert] at hresult
      exact .inl ⟨hresult.symm, Store.insert_eq_ok hinsert⟩
  | error e =>
      rw [hinsert] at hresult
      exact .inr ⟨e, rfl, hresult.symm, Store.insert_refused hinsert⟩

/-- One round: a batch is not stored and the attempt ends, or it is and the rest is left to later
rounds. -/
theorem storeBatches_round {batchSize index needed : Nat} {result : Except Stop Nat}
    (hn : needed ≠ 0) (hb : batchSize ≠ 0)
    (h : storeBatches component server geek batchSize index needed p = (result, p')) :
    (∃ made calls stop, result = .error stop ∧ p'.store = p.store ∧
        p.attempt.Counts made 0 p'.attempt ∧ ∀ sizes, Ending component server geek p'.store p.outside
          (min batchSize needed :: sizes) made calls (some stop) p'.outside) ∨
      ∃ (x : Exchange component.name) (q : Progress σ) (rest : Except Stop Nat),
        x.Between server geek p.outside q.outside ∧ q.store = p.store.add x.records ∧
        x.records.length = min batchSize needed ∧
        p.attempt.Counts x.records.length x.records.length q.attempt ∧
        storeBatches component server geek batchSize (index + 1) (needed - min batchSize needed) q =
          (rest, p') ∧ result = rest.map (x.records.length + ·) := by
  rw [storeBatches, if_neg (not_or.mpr ⟨hn, hb⟩)] at h
  rcases Call.bind_eq.mp h with ⟨stop, hrequest, rfl⟩ | ⟨records, q, hrequest, h⟩
  · obtain ⟨made, calls, outcome, hr, hresult, hstore, hcounts⟩ := requestBatch_requesting hrequest
    cases outcome with
    | ok x => cases hresult
    | error stop' =>
        cases hresult
        exact .inl ⟨made, calls, stop, rfl, hstore, hcounts, fun _ => .refused hr⟩
  obtain ⟨made, calls, outcome, hr, hresult, hstore, hcounts⟩ := requestBatch_requesting hrequest
  cases outcome with
  | error stop' => cases hresult
  | ok x =>
      cases hresult
      rcases Call.bind_eq.mp h with ⟨stop, hinsert, rfl⟩ | ⟨_, q₁, hinsert, h⟩
      · obtain ⟨hout, hattempt, ⟨hok, -⟩ | ⟨e, he, hstop, hsame⟩⟩ := insert_eq hinsert
        · cases hok
        · cases hstop
          rw [← hout] at hr
          rw [← hattempt] at hcounts
          exact .inl ⟨made, calls, _, rfl, hsame.trans hstore, hcounts,
            fun _ => .rejected hr (hsame ▸ he)⟩
      obtain ⟨hout, hattempt, ⟨-, hadded⟩ | ⟨e, -, hstop, -⟩⟩ := insert_eq hinsert
      · rw [tally_bind, emit_bind] at h
        obtain ⟨rest, hrest, rfl⟩ := Call.bind_pure_eq.mp h
        cases hr with
        | certified _ hroom hx hall =>
            refine .inr ⟨x, _, rest, ?_, ?_, x.length_records.trans hall, ?_, hrest, rfl⟩
            · change x.Between server geek p.outside q₁.outside
              rw [hout]
              exact hx
            · change q₁.store = _
              rw [hadded, hstore]
            · rw [← hall, ← x.length_records] at hcounts
              change p.attempt.Counts _ _ (q₁.attempt.countStored x.records.length)
              rw [hattempt]
              simpa using hcounts.trans (.stored_all q.attempt x.records.length)
      · cases hstop

theorem storeBatches_committed {batchSize index needed : Nat} {result : Except Stop Nat}
    (h : storeBatches component server geek batchSize index needed p = (result, p')) :
    ∃ xs made calls, Committed component server geek (Batch.sizes needed batchSize) p xs made calls
      result p' := by
  -- every round needs fewer keys than the one before it
  induction needed using Nat.strong_induction_on generalizing index result p with
  | h needed ih =>
      by_cases hnone : needed = 0 ∨ batchSize = 0
      · rw [storeBatches, if_pos hnone] at h
        cases h
        rw [Batch.sizes_eq_nil hnone]
        exact ⟨[], 0, [], rfl, rfl, ⟨_, none, .none _, .finished, rfl⟩, .refl _⟩
      · obtain ⟨hn, hb⟩ := not_or.mp hnone
        rw [Batch.sizes_eq_cons hn hb]
        rcases storeBatches_round hn hb h with
          ⟨made, calls, stop, hresult, hstore, hcounts, hend⟩ |
          ⟨x, q, rest, hx, hstore, hlength, hcounts, hrest, rfl⟩
        · exact ⟨[], made, calls, .stopped (hend _) hresult hstore hcounts⟩
        · obtain ⟨xs, made, calls, hc⟩ := ih _ (by omega) hrest
          rw [← hlength] at hc ⊢
          exact ⟨x :: xs, made, calls, hc.cons hx hstore hcounts⟩

end Provision

/-! ## Up to the first batch -/

/-- The ways in which an attempt ends without coming to a batch: its answer, its calls, and the world
outside after them. -/
inductive Unstarted (policy : Policy) (now : Timestamp) (component : Component σ) (s : Store) (w : σ) :
    Except Stop Nat → List CallRecord → σ → Prop where
  | uncounted {e : StoreError} (he : (s.countFree component.name now).result = .error e) :
      Unstarted policy now component s w (.error (.failed (.store e))) [] w
  | full {free : Nat} (hfree : (s.countFree component.name now).result = .ok free)
      (hfull : policy.extraKeys ≤ free) : Unstarted policy now component s w (.ok 0) [] w
  | unasked {free : Nat} {stop : Stop} {last : σ}
      (hfree : (s.countFree component.name now).result = .ok free) (hshort : free < policy.extraKeys)
      (hstop : component.batchSize w = (.error stop, last)) :
      Unstarted policy now component s w (.error stop) [.batchSize component.name] last
  | sizeless {free : Nat} {last : σ}
      (hfree : (s.countFree component.name now).result = .ok free) (hshort : free < policy.extraKeys)
      (hzero : component.batchSize w = (.ok 0, last)) :
      Unstarted policy now component s w (.error (.failed (.zeroBatchSize component.name)))
        [.batchSize component.name] last
  | unlisted {free reported : Nat} {last : σ}
      (hfree : (s.countFree component.name now).result = .ok free) (hshort : free < policy.extraKeys)
      (hreported : component.batchSize w = (.ok reported, last)) (hne : reported ≠ 0)
      (hlong : Batch.isListable (policy.extraKeys - free)
        (Batch.capped reported policy.maxBatchSize) = false) :
      Unstarted policy now component s w (.error (.crashed .capacityOverflow))
        [.batchSize component.name] last

/-- An attempt comes to its batches: `free` keys are there, which is too few, and the component has
said how many keys fit a request, which the policy caps. -/
structure Started (policy : Policy) (now : Timestamp) (component : Component σ) (s : Store) (w : σ)
    (free reported : Nat) (last : σ) : Prop where
  counted : (s.countFree component.name now).result = .ok free
  short : free < policy.extraKeys
  asked : component.batchSize w = (.ok reported, last)
  sized : reported ≠ 0
  listable : Batch.isListable (policy.extraKeys - free)
    (Batch.capped reported policy.maxBatchSize) = true

namespace Provision

variable {policy : Policy} {now : Timestamp} {component : Component σ} {server : Server σ}
  {geek : Geek} {p p' : Progress σ}

theorem countFree_eq {result : Except Stop Nat} :
    onStore (fun s => (s.countFree component.name now).report) p = (result, p') ↔
      (p.store.countFree component.name now).result.mapError (.failed ∘ .store) = result ∧ p = p' := by
  have hsame : p.store.countFree component.name now =
      ⟨(p.store.countFree component.name now).result, p.store, []⟩ := by
    unfold Store.countFree Store.query
    split <;> rfl
  change ((p.store.countFree component.name now).report.result.mapError Stop.failed,
    ({ p with
        store := (p.store.countFree component.name now).report.store
        events := p.events ++ (p.store.countFree component.name now).report.events } :
      Progress σ)) = (result, p') ↔ _
  rw [hsame, Prod.mk.injEq]
  cases (p.store.countFree component.name now).result <;>
    simp [Store.Outcome.report, Except.mapError]

/-- Filling a pool ends before the first batch, with nothing made or stored, or goes through
batches. -/
theorem fillPool_cases {result : Except Stop Nat}
    (h : fillPool policy now component server geek p = (result, p')) :
    (p'.store = p.store ∧ p.attempt.Counts 0 0 p'.attempt ∧
        ∃ calls, Unstarted policy now component p.store p.outside result calls p'.outside) ∨
      ∃ (free reported : Nat) (q : Progress σ), q.store = p.store ∧ p.attempt.Counts 0 0 q.attempt ∧
        Started policy now component p.store p.outside free reported q.outside ∧
        storeBatches component server geek (Batch.capped reported policy.maxBatchSize) 0
          (policy.extraKeys - free) q = (result, p') := by
  unfold fillPool at h
  rcases Call.bind_eq.mp h with ⟨stop, hcount, rfl⟩ | ⟨free, q, hcount, h⟩
  · obtain ⟨hresult, rfl⟩ := countFree_eq.mp hcount
    obtain ⟨e, he, rfl⟩ := mapError_eq_error.mp hresult
    exact .inl ⟨rfl, .refl _, [], .uncounted he⟩
  obtain ⟨hfree, rfl⟩ := countFree_eq.mp hcount
  rw [mapError_eq_ok] at hfree
  rw [tally_bind] at h
  have hcounts : p.attempt.Counts 0 0 (p.attempt.noteUnassigned free) := .noted p.attempt free
  by_cases hfull : policy.extraKeys ≤ free
  · rw [Batch.shortfall, if_pos (Nat.sub_eq_zero_of_le hfull), emit_bind] at h
    cases h
    exact .inl ⟨rfl, hcounts, [], .full hfree hfull⟩
  have hshort : free < policy.extraKeys := Nat.lt_of_not_le hfull
  rw [Batch.shortfall, if_neg (Nat.sub_ne_zero_of_lt hshort)] at h
  rcases Call.bind_eq.mp h with ⟨stop, hcall, rfl⟩ | ⟨reported, q, hcall, h⟩
  · obtain ⟨w, hstop, rfl⟩ := call_eq.mp hcall
    exact .inl ⟨rfl, hcounts, _, .unasked hfree hshort hstop⟩
  obtain ⟨w, hreported, rfl⟩ := call_eq.mp hcall
  by_cases hne : reported = 0
  · rw [if_pos hne] at h
    subst hne
    cases h
    exact .inl ⟨rfl, hcounts, _, .sizeless hfree hshort hreported⟩
  rw [if_neg hne] at h
  cases hlist : Batch.isListable (policy.extraKeys - free)
      (Batch.capped reported policy.maxBatchSize) with
  | false =>
      rw [hlist] at h
      cases h
      exact .inl ⟨rfl, hcounts, _, .unlisted hfree hshort hreported hne hlist⟩
  | true =>
      rw [hlist, needRoom_bind, emit_bind] at h
      refine .inr ⟨free, reported, _, ?_, ?_, ⟨hfree, hshort, ?_, hne, hlist⟩, h⟩
      · rfl
      · exact hcounts
      · exact hreported

/-- What a run ends with is what filling ends with, but for the status. -/
theorem run_eq_iff {result : Except Stop Nat} :
    run policy now component server geek p = (result, p') ↔
      ∃ q, fillPool policy now component server geek p = (result, q) ∧
        { q with attempt := q.attempt.withStatus (.ofResult result) } = p' := by
  cases hfill : fillPool policy now component server geek p with
  | mk found q =>
      unfold run
      rw [hfill, Prod.mk.injEq]
      constructor
      · rintro ⟨rfl, hp⟩
        exact ⟨q, rfl, hp⟩
      · rintro ⟨_, hq, hp⟩
        cases hq
        exact ⟨rfl, hp⟩

end Provision

end KeyPool
