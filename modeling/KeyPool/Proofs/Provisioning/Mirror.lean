import KeyPool.Proofs.Store.Call
import KeyPool.Provisioning.Cycle
import Mathlib.Data.List.Forall2

/-! Partners in a world that keeps more than another. Where they do in it what others do in the view of
it, an attempt and a whole cycle come to the same answer, store and reports. So to note calls, or what
they bring, changes nothing. -/

namespace KeyPool

variable {τ σ α β : Type}

/-- What one call does in a world, another does in the view of it. -/
def Call.Mirrors (view : τ → σ) (c : Call τ α) (d : Call σ α) : Prop :=
  ∀ w, d (view w) = ((c w).1, view (c w).2)

structure Component.Mirrors (view : τ → σ) (c : Component τ) (d : Component σ) : Prop where
  name : c.name = d.name
  batchSize : Call.Mirrors view c.batchSize d.batchSize
  newKey : Call.Mirrors view c.newKey d.newKey
  signRequest : ∀ geek keys, Call.Mirrors view (c.signRequest geek keys) (d.signRequest geek keys)

structure Server.Mirrors (view : τ → σ) (c : Server τ) (d : Server σ) : Prop where
  greet : Call.Mirrors view c.greet d.greet
  certify : ∀ csr challenge, Call.Mirrors view (c.certify csr challenge) (d.certify csr challenge)

theorem Component.recorded_mirrors (c : Component σ) : c.recorded.Mirrors Prod.fst c :=
  ⟨rfl, fun _ => rfl, fun _ => rfl, fun _ _ _ => rfl⟩

theorem Server.recorded_mirrors (s : Server σ) : s.recorded.Mirrors Prod.fst s :=
  ⟨fun _ => rfl, fun _ _ _ => rfl⟩

/-! ## Attempts -/

def Progress.map (view : τ → σ) (p : Progress τ) : Progress σ :=
  ⟨p.store, view p.outside, p.attempt, p.events⟩

namespace Provision

/-- Two courses of an attempt are the same, but for the world outside, of which the second has a
view. -/
def Mirrors (view : τ → σ) (x : Provision τ α) (y : Provision σ α) : Prop :=
  ∀ p, y (p.map view) = ((x p).1, (x p).2.map view)

variable {view : τ → σ}

theorem Mirrors.bind {x : Provision τ α} {y : Provision σ α} {f : α → Provision τ β}
    {g : α → Provision σ β} (hx : Mirrors view x y) (hf : ∀ a, Mirrors view (f a) (g a)) :
    Mirrors view (x >>= f) (y >>= g) := by
  intro p
  change ExceptT.bindCont g (y (p.map view)).1 (y (p.map view)).2 =
    ((ExceptT.bindCont f (x p).1 (x p).2).1, (ExceptT.bindCont f (x p).1 (x p).2).2.map view)
  rw [hx p]
  cases (x p).1 with
  | error stop => rfl
  | ok a => exact hf a (x p).2

theorem pure_mirrors (a : α) : Mirrors view (pure a) (pure a) := fun _ => rfl

theorem fail_mirrors (e : ProvisioningError) : Mirrors view (fail e : Provision τ α) (fail e) :=
  fun _ => rfl

theorem needRoom_mirrors (available : Bool) : Mirrors view (needRoom available) (needRoom available) := by
  cases available <;> exact fun _ => rfl

theorem tally_mirrors (count : Attempt → Attempt) : Mirrors view (tally count) (tally count) :=
  fun _ => rfl

theorem emit_mirrors (event : Event) : Mirrors view (emit event) (emit event) := fun _ => rfl

theorem onStore_mirrors (operation : Store → Reported α) :
    Mirrors view (onStore operation) (onStore operation) :=
  fun _ => rfl

theorem call_mirrors {c : Call τ α} {d : Call σ α} (h : Call.Mirrors view c d) :
    Mirrors view (call c) (call d) := by
  intro p
  change ((d (view p.outside)).1, (⟨p.store, (d (view p.outside)).2, p.attempt, p.events⟩ : Progress σ)) = _
  rw [h p.outside]
  rfl

variable {c : Component τ} {d : Component σ} {s : Server τ} {t : Server σ}

theorem generateKeys_mirrors (hc : c.Mirrors view d) (n : Nat) :
    Mirrors view (generateKeys c n) (generateKeys d n) := by
  induction n with
  | zero => exact pure_mirrors []
  | succ n ih =>
      refine (call_mirrors hc.newKey).bind fun key => (tally_mirrors _).bind fun _ => ?_
      exact ih.bind fun keys => pure_mirrors (key :: keys)

theorem requestBatch_mirrors (hc : c.Mirrors view d) (hs : s.Mirrors view t) (geek : Geek)
    (size : Nat) : Mirrors view (requestBatch c s geek size) (requestBatch d t geek size) := by
  refine (needRoom_mirrors _).bind fun _ => (generateKeys_mirrors hc size).bind fun keys => ?_
  refine (call_mirrors (hc.signRequest geek keys)).bind fun csr => ?_
  refine (call_mirrors (hs.certify csr geek.challenge)).bind fun chains => ?_
  rw [hc.name]
  cases ResponseFault.certifyAll d.name keys chains with
  | ok records => exact pure_mirrors records
  | error fault => exact fail_mirrors _

theorem storeBatches_mirrors (hc : c.Mirrors view d) (hs : s.Mirrors view t) (geek : Geek)
    (batchSize index needed : Nat) :
    Mirrors view (storeBatches c s geek batchSize index needed)
      (storeBatches d t geek batchSize index needed) := by
  -- every round needs fewer keys than the one before it
  induction needed using Nat.strongRecOn generalizing index with
  | ind needed ih =>
      rw [storeBatches, storeBatches]
      by_cases hnone : needed = 0 ∨ batchSize = 0
      · rw [if_pos hnone, if_pos hnone]
        exact pure_mirrors 0
      · rw [if_neg hnone, if_neg hnone, hc.name]
        rw [not_or] at hnone
        refine (requestBatch_mirrors hc hs geek _).bind fun records => ?_
        refine (onStore_mirrors _).bind fun _ => (tally_mirrors _).bind fun _ => ?_
        refine (emit_mirrors _).bind fun _ => ?_
        exact (ih _ (by omega) (index + 1)).bind fun n => pure_mirrors (records.length + n)

theorem fillPool_mirrors (hc : c.Mirrors view d) (hs : s.Mirrors view t) (policy : Policy)
    (now : Timestamp) (geek : Geek) :
    Mirrors view (fillPool policy now c s geek) (fillPool policy now d t geek) := by
  unfold fillPool
  rw [hc.name]
  refine (onStore_mirrors _).bind fun free => (tally_mirrors _).bind fun _ => ?_
  by_cases hneeded : Batch.shortfall policy.extraKeys free = 0
  · rw [if_pos hneeded, if_pos hneeded]
    exact (emit_mirrors _).bind fun _ => pure_mirrors 0
  · rw [if_neg hneeded, if_neg hneeded]
    refine (call_mirrors hc.batchSize).bind fun reported => ?_
    by_cases hzero : reported = 0
    · rw [if_pos hzero, if_pos hzero]
      exact fail_mirrors _
    · rw [if_neg hzero, if_neg hzero]
      refine (needRoom_mirrors _).bind fun _ => (emit_mirrors _).bind fun _ => ?_
      exact storeBatches_mirrors hc hs geek _ 0 _

theorem run_mirrors (hc : c.Mirrors view d) (hs : s.Mirrors view t) (policy : Policy)
    (now : Timestamp) (geek : Geek) :
    Mirrors view (run policy now c s geek) (run policy now d t geek) := by
  intro p
  unfold run
  rw [fillPool_mirrors hc hs policy now geek p]
  rfl

end Provision

/-! ## Cycles -/

def CycleState.map (view : τ → σ) (s : CycleState τ) : CycleState σ :=
  ⟨s.store, view s.outside, s.policy, s.events⟩

namespace Cycle

theorem get_bind (f : CycleState σ → Cycle σ α) (s : CycleState σ) : (get >>= f) s = f s s := rfl

theorem provisionComponent_eq (server : Server σ) (geek : Geek) (cause : AttemptCause)
    (now : Timestamp) (component : Component σ) (s : CycleState σ) {result : Except Stop Nat}
    {p : Progress σ}
    (h : Provision.run s.policy now component server geek
      ⟨s.store, s.outside, .ofComponent cause component.name, s.events⟩ = (result, p)) :
    provisionComponent server geek cause now component s =
      match Stop.caught result with
      | .error stop => (.error stop, ⟨p.store, p.outside, s.policy, p.events⟩)
      | .ok outcome =>
        (.ok outcome, ⟨p.store, p.outside, s.policy, p.events ++ [.attemptFinished p.attempt]⟩) := by
  rw [provisionComponent, get_bind, h]
  cases result with
  | ok n => rfl
  | error stop => cases stop <;> rfl

/-- Two courses of a cycle are the same, but for the world outside, of which the second has a view;
and what `P` says of the store and the world holds after the first if it held before. -/
def Mirrors (view : τ → σ) (P : Store → τ → Prop) (x : Cycle τ α) (y : Cycle σ α) : Prop :=
  ∀ s, P s.store s.outside →
    y (s.map view) = ((x s).1, (x s).2.map view) ∧ P (x s).2.store (x s).2.outside

variable {view : τ → σ} {P : Store → τ → Prop}

theorem Mirrors.bind {x : Cycle τ α} {y : Cycle σ α} {f : α → Cycle τ β} {g : α → Cycle σ β}
    (hx : Mirrors view P x y) (hf : ∀ a, Mirrors view P (f a) (g a)) :
    Mirrors view P (x >>= f) (y >>= g) := by
  intro s hs
  obtain ⟨hsame, hkept⟩ := hx s hs
  change ExceptT.bindCont g (y (s.map view)).1 (y (s.map view)).2 =
      ((ExceptT.bindCont f (x s).1 (x s).2).1, (ExceptT.bindCont f (x s).1 (x s).2).2.map view) ∧
    P (ExceptT.bindCont f (x s).1 (x s).2).2.store (ExceptT.bindCont f (x s).1 (x s).2).2.outside
  rw [hsame]
  cases (x s).1 with
  | error stop => exact ⟨rfl, hkept⟩
  | ok a => exact hf a (x s).2 hkept

theorem pure_mirrors (a : α) : Mirrors view P (pure a) (pure a) := fun _ hs => ⟨rfl, hs⟩

theorem ofExcept_mirrors (e : Except Stop α) : Mirrors view P (ofExcept e) (ofExcept e) :=
  fun _ hs => ⟨rfl, hs⟩

theorem throw_mirrors (stop : Stop) :
    Mirrors view P (throw stop : Cycle τ α) (throw stop) :=
  ofExcept_mirrors (.error stop)

theorem emit_mirrors (event : Event) : Mirrors view P (emit event) (emit event) :=
  fun _ hs => ⟨rfl, hs⟩

/-- A policy can be followed and read without a look at the world outside. -/
theorem follow_mirrors {f : Policy → Cycle τ α} {g : Policy → Cycle σ α}
    (hf : ∀ policy, Mirrors view P (f policy) (g policy)) :
    Mirrors view P (get >>= fun s => f s.policy) (get >>= fun s => g s.policy) :=
  fun s hs => hf s.policy s hs

theorem onStore_mirrors {operation : Store → Reported α}
    (h : ∀ s w, P s w → P (operation s).store w) :
    Mirrors view P (onStore operation) (onStore operation) :=
  fun s hs => ⟨rfl, h s.store s.outside hs⟩

theorem attemptCall_mirrors {c : Call τ α} {d : Call σ α} (hc : Call.Mirrors view c d)
    (h : ∀ s w, P s w → P s (c w).2) : Mirrors view P (attemptCall c) (attemptCall d) := by
  intro s hs
  refine ⟨?_, h s.store s.outside hs⟩
  change (Stop.caught (d (view s.outside)).1,
    (⟨s.store, (d (view s.outside)).2, s.policy, s.events⟩ : CycleState σ)) = _
  rw [hc s.outside]
  rfl

/-- What store operations other than insertions keep, and attempts and greetings too, a cycle
keeps. -/
structure Upholds (P : Store → τ → Prop) (components : List (Component τ)) (server : Server τ) :
    Prop where
  operation : ∀ s w op, (∀ keys, op ≠ .insert keys) → P s w → P (StoreOperation.perform s op).store w
  greet : ∀ s w, P s w → P s (server.greet w).2
  attempt : ∀ component ∈ components, ∀ policy now geek p, P p.store p.outside →
    P (Provision.run policy now component server geek p).2.store
      (Provision.run policy now component server geek p).2.outside

variable {c : Component τ} {d : Component σ} {cs : List (Component τ)} {ds : List (Component σ)}
  {s : Server τ} {t : Server σ}

theorem provisionComponent_mirrors (hc : c.Mirrors view d) (hs : s.Mirrors view t)
    (h : Upholds P cs s) (hmem : c ∈ cs) (geek : Geek) (cause : AttemptCause) (now : Timestamp) :
    Mirrors view P (provisionComponent s geek cause now c) (provisionComponent t geek cause now d) := by
  intro x hx
  have hkept := h.attempt c hmem x.policy now geek
    ⟨x.store, x.outside, .ofComponent cause c.name, x.events⟩ hx
  have hsame := Provision.run_mirrors hc hs x.policy now geek
    ⟨x.store, x.outside, .ofComponent cause c.name, x.events⟩
  cases hrun : Provision.run x.policy now c s geek
      ⟨x.store, x.outside, .ofComponent cause c.name, x.events⟩ with
  | mk result p =>
      rw [hrun] at hkept hsame
      rw [provisionComponent_eq s geek cause now c x hrun,
        provisionComponent_eq t geek cause now d (x.map view) (hc.name ▸ hsame)]
      cases Stop.caught result with
      | error stop => exact ⟨rfl, hkept⟩
      | ok outcome => exact ⟨rfl, hkept⟩

theorem provisionAll_mirrors (hcs : List.Forall₂ (Component.Mirrors view) cs ds)
    (hs : s.Mirrors view t) (h : Upholds P cs s) (geek : Geek) (cause : AttemptCause)
    (clock : Nat → Timestamp) (reading : Nat) :
    Mirrors view P (provisionAll s geek cause clock reading cs)
      (provisionAll t geek cause clock reading ds) := by
  induction hcs generalizing reading with
  | nil => exact pure_mirrors []
  | cons hc hrest ih =>
      rename_i c d cs ds
      have htail : Upholds P cs s :=
        ⟨h.operation, h.greet, fun c' hc' => h.attempt c' (List.mem_cons_of_mem c hc')⟩
      rw [provisionAll, provisionAll]
      refine (provisionComponent_mirrors hc hs h List.mem_cons_self geek cause _).bind fun outcome => ?_
      rw [hc.name]
      have hnext : Mirrors view P
          (provisionAll s geek cause clock (reading + 1) cs >>= fun reports =>
            pure (⟨d.name, outcome⟩ :: reports))
          (provisionAll t geek cause clock (reading + 1) ds >>= fun reports =>
            pure (⟨d.name, outcome⟩ :: reports)) :=
        (ih htail (reading + 1)).bind fun reports => pure_mirrors _
      cases outcome with
      | ok n => exact hnext
      | error e =>
          by_cases hstore : e.isStore = true
          · simp only [hstore, ite_true]
            exact (throw_mirrors _).bind fun _ => hnext
          · simp only [hstore, Bool.false_eq_true, ite_false]
            exact (emit_mirrors _).bind fun _ => hnext

theorem purge_upheld (h : Upholds P cs s) (geek : Geek) (x : Store) (w : τ) (hx : P x w) :
    P (geek.purge x).store w := by
  unfold Geek.purge
  split
  · exact hx
  · rename_i window hw
    have hkept : P (x.purge window).store w :=
      h.operation x w (.purge window) (fun _ => StoreOperation.noConfusion) hx
    simp only
    split <;> exact hkept

/-- A cycle in a world is in every view of it the cycle that partners in the view lead to. -/
theorem run_mirrors {registry : Registry τ} {registry' : Registry σ}
    (hcs : List.Forall₂ (Component.Mirrors view) registry.components registry'.components)
    (hs : s.Mirrors view t) (h : Upholds P registry.components s) (clock : Nat → Timestamp)
    (cause : AttemptCause) :
    Mirrors view P (run registry s clock cause) (run registry' t clock cause) := by
  unfold run
  refine (attemptCall_mirrors hs.greet h.greet).bind fun answer => ?_
  cases answer with
  | error e => exact (emit_mirrors _).bind fun _ => throw_mirrors _
  | ok geek =>
      by_cases hoff : geek.isDisabled = true
      · simp only [hoff, ite_true]
        unfold disable
        refine (onStore_mirrors fun x w hx => ?_).bind fun deleted => ?_
        · exact h.operation x w .clear (fun _ => StoreOperation.noConfusion) hx
        · exact (emit_mirrors _).bind fun _ => (emit_mirrors _).bind fun _ => pure_mirrors _
      · simp only [hoff, Bool.false_eq_true, ite_false]
        refine (emit_mirrors _).bind fun _ => ?_
        refine Mirrors.bind (fun x hx => ⟨rfl, hx⟩) fun _ => ?_
        refine (onStore_mirrors (purge_upheld h geek)).bind fun badDeleted => ?_
        refine follow_mirrors fun policy => (ofExcept_mirrors _).bind fun cutoff => ?_
        refine (onStore_mirrors fun x w hx => ?_).bind fun expiringDeleted => ?_
        · exact h.operation x w (.expire cutoff) (fun _ => StoreOperation.noConfusion) hx
        · refine (provisionAll_mirrors hcs hs h geek cause clock 1).bind fun reports => ?_
          exact (emit_mirrors _).bind fun _ => pure_mirrors _

end Cycle

end KeyPool
