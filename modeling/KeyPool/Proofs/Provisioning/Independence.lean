import KeyPool.Proofs.Provisioning.Frame
import Mathlib.Data.List.Induction
import Mathlib.Data.String.Basic

/-! Components do not disturb one another. The keys that others bring in do not show to a component
that counts and stores its own, so it does in a cycle with others what it does in a cycle alone. -/

namespace KeyPool

variable {σ τ α β : Type}

/-! ## What calls touch of the world outside -/

/-- A call whose answer depends on a part of the world alone, as does what it makes of that part. -/
def Call.DependsOn (part : σ → τ) (c : Call σ α) : Prop :=
  ∀ v w, part v = part w → (c v).1 = (c w).1 ∧ part (c v).2 = part (c w).2

structure Component.DependsOn (part : σ → τ) (component : Component σ) (server : Server σ) : Prop where
  batchSize : Call.DependsOn part component.batchSize
  newKey : Call.DependsOn part component.newKey
  signRequest : ∀ geek keys, Call.DependsOn part (component.signRequest geek keys)
  certify : ∀ csr challenge, Call.DependsOn part (server.certify csr challenge)

def Call.Keeps (P : σ → Prop) (c : Call σ α) : Prop :=
  ∀ ⦃w w' : σ⦄ ⦃result : Except Stop α⦄, c w = (result, w') → P w → P w'

structure Component.Keeps (P : σ → Prop) (component : Component σ) (server : Server σ) : Prop where
  batchSize : Call.Keeps P component.batchSize
  newKey : Call.Keeps P component.newKey
  signRequest : ∀ geek keys, Call.Keeps P (component.signRequest geek keys)
  certify : ∀ csr challenge, Call.Keeps P (server.certify csr challenge)

section

variable {component : Component σ} {server : Server σ} {geek : Geek} {P : σ → Prop} {w w' : σ}

theorem Component.Makes.keeps {keys : List FreshKey} (h : component.Makes w keys w')
    (hkeeps : component.Keeps P server) (hw : P w) : P w' := by
  induction h with
  | none w => exact hw
  | next hkey hkeys ih => exact ih (hkeeps.newKey hkey hw)

theorem Exchange.Between.keeps {x : Exchange component.name} (h : x.Between server geek w w')
    (hkeeps : component.Keeps P server) (hw : P w) : P w' := by
  obtain ⟨made, signed, hkeys, hcsr, hchains⟩ := h
  have hmade : P made := hkeys.keeps hkeeps hw
  have hsigned : P signed := hkeeps.signRequest geek x.keys hcsr hmade
  exact hkeeps.certify x.csr geek.challenge hchains hsigned

theorem Exchanges.keeps {xs : List (Exchange component.name)}
    (h : Exchanges component server geek w xs w') (hkeeps : component.Keeps P server) (hw : P w) :
    P w' := by
  induction h with
  | none w => exact hw
  | next hx hxs ih => exact ih (hx.keeps hkeeps hw)

theorem Requesting.keeps {size made : Nat} {calls : List CallRecord}
    {outcome : Except Stop (Exchange component.name)}
    (h : Requesting component server geek size w made calls outcome w')
    (hkeeps : component.Keeps P server) (hw : P w) : P w' := by
  cases h with
  | tooLarge hroom => exact hw
  | notMade hroom hkeys hfew hstop => exact hkeeps.newKey hstop (hkeys.keeps hkeeps hw)
  | notSigned hroom hkeys hall hstop =>
      exact hkeeps.signRequest geek _ hstop (hkeys.keeps hkeeps hw)
  | notAnswered hroom hkeys hall hcsr hstop =>
      have hsigned := hkeeps.signRequest geek _ hcsr (hkeys.keeps hkeeps hw)
      exact hkeeps.certify _ _ hstop hsigned
  | malformed hroom hkeys hall hcsr hchains hfault =>
      have hsigned := hkeeps.signRequest geek _ hcsr (hkeys.keeps hkeeps hw)
      exact hkeeps.certify _ _ hchains hsigned
  | certified x hroom hx hall => exact hx.keeps hkeeps hw

theorem Provision.run_keeps {policy : Policy} {now : Timestamp} {p p' : Progress σ}
    {result : Except Stop Nat} (h : run policy now component server geek p = (result, p'))
    (hkeeps : component.Keeps P server) (hp : P p.outside) : P p'.outside := by
  obtain ⟨q, hfill, rfl⟩ := run_eq_iff.mp h
  change P q.outside
  rcases fillPool_cases hfill with
    ⟨-, -, calls, hends⟩ | ⟨free, reported, q', -, -, hstart, hbatches⟩
  · generalize q.outside = last at hends ⊢
    cases hends with
    | uncounted he => exact hp
    | full hfree hfull => exact hp
    | unasked hfree hshort hstop => exact hkeeps.batchSize hstop hp
    | sizeless hfree hshort hzero => exact hkeeps.batchSize hzero hp
    | unlisted hfree hshort hreported hne hlong => exact hkeeps.batchSize hreported hp
  · have hasked : P q'.outside := hkeeps.batchSize hstart.asked hp
    obtain ⟨xs, made, calls, hdone⟩ := storeBatches_committed hbatches
    obtain ⟨w, stop?, hxs, hend, -⟩ := hdone.ended
    have hw : P w := hxs.keeps hkeeps hasked
    generalize (Batch.sizes (policy.extraKeys - free) _).drop xs.length = sizes at hend
    cases hend with
    | finished => exact hw
    | refused hr => exact hr.keeps hkeeps hw
    | rejected hr he => exact hr.keeps hkeeps hw

end

/-! ## Stores that hold fewer keys -/

def KeyRow.unnumbered (row : KeyRow) : KeyRow := { row with id := 0 }

namespace KeyRow

/-- What numbered rows say beside their ids is said by the keys. -/
theorem map_unnumbered_numbered (last : Int) (keys : List AttestationKey) :
    (numbered last keys).map unnumbered = keys.map (ofKey 0) := by
  induction keys generalizing last with
  | nil => rfl
  | cons key keys ih =>
      rw [numbered, List.map_cons, List.map_cons, ih]
      rfl

theorem countP_numbered {test : KeyRow → Bool} (htest : ∀ row, test row.unnumbered = test row)
    (last : Int) (keys : List AttestationKey) :
    (numbered last keys).countP test = keys.countP fun key => test (ofKey 0 key) := by
  have hsame : test ∘ unnumbered = test := funext htest
  rw [← hsame, ← List.countP_map, map_unnumbered_numbered, List.countP_map]
  rfl

theorem filter_numbered (last other : Int) (keys : List AttestationKey) (name : String) :
    ((numbered last keys).filter (·.component = .text name)).map unnumbered =
      (numbered other (keys.filter (·.component = name))).map unnumbered := by
  have hrow (row : KeyRow) : row.unnumbered.component = row.component := rfl
  have hkey (key : AttestationKey) :
      decide ((ofKey 0 key).component = .text name) = decide (key.component = name) := by
    simp [ofKey]
  have hrows := List.filter_map (f := unnumbered) (p := fun row => decide (row.component = .text name))
    (l := numbered last keys)
  simp only [Function.comp_def, hrow] at hrows
  rw [← hrows, map_unnumbered_numbered, map_unnumbered_numbered, List.filter_map]
  simp only [Function.comp_def, hkey]

end KeyRow

/-- Tables that leave keys the room that others leave them: no greater id was given, and no blob is
there that the others do not have. -/
structure Database.Roomier (d db : Database) : Prop where
  ids : d.lastUsed ≤ db.lastUsed
  blobs : d.rows.map (·.keyBlob) ⊆ db.rows.map (·.keyBlob)

namespace Database

variable {d db : Database}

/-- What has room for keys among more has room for them among fewer. -/
theorem Roomier.accepts {keys : List AttestationKey} (h : d.Roomier db) (ha : db.Accepts keys) :
    d.Accepts keys := by
  refine ⟨?_, ?_, ha.distinct⟩
  · have hroom := ha.ids
    have hless := h.ids
    omega
  · intro key hkey row hrow hblob
    have hmem := h.blobs (List.mem_map_of_mem hrow)
    obtain ⟨other, hother, hsame⟩ := List.mem_map.mp hmem
    exact ha.fresh key hkey other hother (hsame.trans hblob)

end Database

namespace Store

variable {s t : Store}

/-- A batch that is accepted where there is less room is accepted where there is more. -/
theorem insert_of_roomier {batch : List AttestationKey} (h : t.db.Roomier s.db)
    (hp : t.poisoned = s.poisoned) (hok : (s.insert batch).result = .ok ()) :
    (t.insert batch).result = .ok () := by
  have hi := s.insert_inserting batch
  generalize s.insert batch = outcome at hok hi
  cases hi with
  | nothing hnil => simp [insert, hnil, answer]
  | inserted hne hv hfree hall =>
      have haccepts := h.accepts ((Database.insertAll_eq_ok hne).mp hall).1
      have hadded := (Database.insertAll_eq_ok hne).mpr ⟨haccepts, rfl⟩
      simp [insert, hne, hv, hp, hfree, hadded]
  | _ => cases hok

theorem lastUsed_add (s : Store) (keys : List AttestationKey) :
    (s.add keys).db.lastUsed = s.db.lastUsed + keys.length := by
  by_cases hkeys : keys = []
  · simp [hkeys]
  · rw [add_of_ne_nil s hkeys]
    exact s.db.lastUsed_append keys

/-- The tables with some of the keys leave the room that those with all of them leave. -/
theorem add_filter_roomier (s : Store) (keys : List AttestationKey) (keep : AttestationKey → Bool) :
    (s.add (keys.filter keep)).db.Roomier (s.add keys).db := by
  refine ⟨?_, ?_⟩
  · have := List.length_filter_le keep keys
    rw [lastUsed_add, lastUsed_add]
    omega
  · simp only [add_rows, List.map_append, KeyRow.map_keyBlob_numbered]
    intro blob hblob
    rcases List.mem_append.mp hblob with hold | hnew
    · exact List.mem_append_left _ hold
    · obtain ⟨key, hkey, rfl⟩ := List.mem_map.mp hnew
      exact List.mem_append_right _ (List.mem_map_of_mem (List.mem_of_mem_filter hkey))

/-- The count of the free keys of a component does not show what others bring in. -/
theorem countFree_add_filter (s : Store) (keys : List AttestationKey) (name : String)
    (now : Timestamp) : ((s.add (keys.filter (·.component = name))).countFree name now).result =
      ((s.add keys).countFree name now).result := by
  have hcount (last : Int) (keys : List AttestationKey) :
      (KeyRow.numbered last keys).countP
          (fun row => row.isFree name && row.expiration.isAtLeast now.toMillis) =
        keys.countP fun key => (KeyRow.ofKey 0 key).isFree name &&
          (KeyRow.ofKey 0 key).expiration.isAtLeast now.toMillis :=
    KeyRow.countP_numbered (fun _ => rfl) last keys
  have hown (key : AttestationKey) :
      ((KeyRow.ofKey 0 key).isFree name &&
          (KeyRow.ofKey 0 key).expiration.isAtLeast now.toMillis && decide (key.component = name)) =
        ((KeyRow.ofKey 0 key).isFree name &&
          (KeyRow.ofKey 0 key).expiration.isAtLeast now.toMillis) := by
    by_cases hname : key.component = name <;> simp [KeyRow.isFree, KeyRow.ofKey, hname]
  unfold countFree query
  simp only [add_poisoned]
  cases s.poisoned with
  | true => rfl
  | false => simp [add_rows, List.countP_append, hcount, List.countP_filter, hown]

end Store

/-! ## An attempt among others -/

/-- What a component of some name can see is the same twice: its part of the world, and a store that
keys came into, if it has all of them at first and only those of the component the second time. -/
structure Alike (part : σ → τ) (base : Store) (name : String) (s : Store) (w : σ) (t : Store) (v : σ) :
    Prop where
  outside : part w = part v
  stored : ∃ keys, s = base.add keys ∧ t = base.add (keys.filter (·.component = name))

namespace Provision

/-- A course of an attempt that does not show whether the keys of others are in the store, unless the
store stops it where they are. -/
def Blind (part : σ → τ) (base : Store) (name : String) (x : Provision σ α) : Prop :=
  ∀ ⦃p q p' : Progress σ⦄ ⦃result : Except Stop α⦄,
    Alike part base name p.store p.outside q.store q.outside → x p = (result, p') →
      (∃ e, result = .error (.failed (.store e))) ∨
        ∃ q', x q = (result, q') ∧ Alike part base name p'.store p'.outside q'.store q'.outside

variable {part : σ → τ} {base : Store} {name : String}

theorem Blind.bind_of {x : Provision σ α} {f : α → Provision σ β} {Q : α → Prop}
    (hx : Blind part base name x) (hQ : ∀ ⦃p p' a⦄, x p = (.ok a, p') → Q a)
    (hf : ∀ a, Q a → Blind part base name (f a)) : Blind part base name (x >>= f) := by
  intro p q p' result hpq h
  rcases Call.bind_eq.mp h with ⟨stop, hstop, rfl⟩ | ⟨a, u, ha, h⟩
  · rcases hx hpq hstop with ⟨e, he⟩ | ⟨q', hq, hlast⟩
    · cases he
      exact .inl ⟨e, rfl⟩
    · exact .inr ⟨q', Call.bind_eq.mpr (.inl ⟨stop, hq, rfl⟩), hlast⟩
  · rcases hx hpq ha with ⟨e, he⟩ | ⟨v, hv, huv⟩
    · cases he
    · rcases hf a (hQ ha) huv h with hstore | ⟨q', hq, hlast⟩
      · exact .inl hstore
      · exact .inr ⟨q', Call.bind_eq.mpr (.inr ⟨a, v, hv, hq⟩), hlast⟩

theorem Blind.bind {x : Provision σ α} {f : α → Provision σ β} (hx : Blind part base name x)
    (hf : ∀ a, Blind part base name (f a)) : Blind part base name (x >>= f) :=
  @Blind.bind_of _ _ _ _ _ _ _ x f (fun _ => True) hx (fun _ _ _ _ => trivial) fun a _ => hf a

theorem pure_blind (a : α) : Blind part base name (pure a : Provision σ α) := by
  intro p q p' result hpq h
  cases h
  exact .inr ⟨q, rfl, hpq⟩

theorem fail_blind (e : ProvisioningError) : Blind part base name (fail e : Provision σ α) := by
  intro p q p' result hpq h
  cases h
  exact .inr ⟨q, rfl, hpq⟩

theorem needRoom_blind (available : Bool) :
    Blind part base name (needRoom available : Provision σ Unit) := by
  intro p q p' result hpq h
  cases available <;> cases h <;> exact .inr ⟨q, rfl, hpq⟩

theorem tally_blind (count : Attempt → Attempt) :
    Blind part base name (tally count : Provision σ Unit) := by
  intro p q p' result hpq h
  cases h
  exact .inr ⟨_, rfl, hpq⟩

theorem emit_blind (event : Event) : Blind part base name (emit event : Provision σ Unit) := by
  intro p q p' result hpq h
  cases h
  exact .inr ⟨_, rfl, hpq⟩

theorem call_blind {c : Call σ α} (hc : c.DependsOn part) : Blind part base name (call c) := by
  intro p q p' result hpq h
  obtain ⟨w, hw, rfl⟩ := call_eq.mp h
  obtain ⟨hsame, hpart⟩ := hc p.outside q.outside hpq.outside
  rw [hw] at hsame hpart
  have hq : c q.outside = (result, (c q.outside).2) := Prod.ext hsame.symm rfl
  exact .inr ⟨_, call_eq.mpr ⟨_, hq, rfl⟩, hpart, hpq.stored⟩

variable {component : Component σ} {server : Server σ} {geek : Geek}

theorem countFree_blind (now : Timestamp) : Blind part base component.name
    (onStore fun s => (s.countFree component.name now).report : Provision σ Nat) := by
  intro p q p' result hpq h
  obtain ⟨keys, hp, hq⟩ := hpq.stored
  obtain ⟨hresult, rfl⟩ := countFree_eq.mp h
  refine .inr ⟨q, countFree_eq.mpr ⟨?_, rfl⟩, hpq⟩
  rw [hq, Store.countFree_add_filter, ← hp, hresult]

/-- The records of a component are accepted without the keys of others if they are with them. -/
theorem insert_blind {records : List AttestationKey} (hown : ∀ r ∈ records, r.component = name) :
    Blind part base name (onStore fun s => (s.insert records).report : Provision σ Unit) := by
  intro p q p' result hpq h
  obtain ⟨keys, hp, hq⟩ := hpq.stored
  obtain ⟨hout, -, ⟨rfl, hstore⟩ | ⟨e, -, rfl, -⟩⟩ := insert_eq h
  · have hresult : ((p.store.insert records).result.mapError .store).mapError Stop.failed = .ok () :=
      congrArg Prod.fst h
    have hfits : (q.store.insert records).result = .ok () := by
      rw [mapError_eq_ok, mapError_eq_ok, hp] at hresult
      rw [hq]
      exact Store.insert_of_roomier (base.add_filter_roomier keys _) (by simp) hresult
    cases hfound : onStore (fun s => (s.insert records).report) q with
    | mk found q' =>
        obtain ⟨hout', -, ⟨rfl, hstore'⟩ | ⟨e, he, -, -⟩⟩ := insert_eq hfound
        · refine .inr ⟨q', rfl, ?_, keys ++ records, ?_, ?_⟩
          · rw [hout, hout', hpq.outside]
          · rw [hstore, hp, Store.add_add]
          · have hall : records.filter (·.component = name) = records := by
              simpa [List.filter_eq_self] using hown
            rw [hstore', hq, Store.add_add, List.filter_append, hall]
        · rw [hfits] at he
          cases he
  · exact .inl ⟨e, rfl⟩

theorem generateKeys_blind (hc : component.DependsOn part server) (n : Nat) :
    Blind part base name (generateKeys component n) := by
  induction n with
  | zero => exact pure_blind []
  | succ n ih =>
      refine (call_blind hc.newKey).bind fun key => (tally_blind _).bind fun _ => ?_
      exact ih.bind fun keys => pure_blind (key :: keys)

theorem requestBatch_blind (hc : component.DependsOn part server) (size : Nat) :
    Blind part base name (requestBatch component server geek size) := by
  refine (needRoom_blind _).bind fun _ => (generateKeys_blind hc size).bind fun keys => ?_
  refine (call_blind (hc.signRequest geek keys)).bind fun csr => ?_
  refine (call_blind (hc.certify csr geek.challenge)).bind fun chains => ?_
  cases ResponseFault.certifyAll component.name keys chains with
  | ok records => exact pure_blind records
  | error fault => exact fail_blind _

theorem component_of_requestBatch {size : Nat} {p p' : Progress σ} {records : List AttestationKey}
    (h : requestBatch component server geek size p = (.ok records, p')) :
    ∀ r ∈ records, r.component = component.name := by
  obtain ⟨made, calls, outcome, -, hresult, -⟩ := requestBatch_requesting h
  obtain ⟨x, rfl, rfl⟩ := map_eq_ok.mp hresult.symm
  intro r hr
  obtain ⟨key, -, encoded, -, chain, -, -, rfl⟩ := x.exists_of_mem_records hr
  rfl

theorem storeBatches_blind (hc : component.DependsOn part server)
    (batchSize index needed : Nat) :
    Blind part base component.name (storeBatches component server geek batchSize index needed) := by
  -- every round needs fewer keys than the one before it
  induction needed using Nat.strong_induction_on generalizing index with
  | h needed ih =>
      rw [storeBatches]
      by_cases hnone : needed = 0 ∨ batchSize = 0
      · rw [if_pos hnone]
        exact pure_blind 0
      · rw [if_neg hnone]
        rw [not_or] at hnone
        refine (requestBatch_blind hc _).bind_of (fun _ _ _ => component_of_requestBatch) ?_
        intro records hown
        refine (insert_blind hown).bind fun _ => (tally_blind _).bind fun _ => ?_
        refine (emit_blind _).bind fun _ => ?_
        exact (ih _ (by omega) (index + 1)).bind fun n => pure_blind (records.length + n)

theorem fillPool_blind (hc : component.DependsOn part server) (policy : Policy)
    (now : Timestamp) :
    Blind part base component.name (fillPool policy now component server geek) := by
  unfold fillPool
  refine (countFree_blind now).bind fun free => (tally_blind _).bind fun _ => ?_
  by_cases hneeded : Batch.shortfall policy.extraKeys free = 0
  · rw [if_pos hneeded]
    exact (emit_blind _).bind fun _ => pure_blind 0
  · rw [if_neg hneeded]
    refine (call_blind hc.batchSize).bind fun reported => ?_
    by_cases hzero : reported = 0
    · rw [if_pos hzero]
      exact fail_blind _
    · rw [if_neg hzero]
      refine (needRoom_blind _).bind fun _ => (emit_blind _).bind fun _ => ?_
      exact storeBatches_blind hc _ 0 _

theorem run_blind (hc : component.DependsOn part server) (policy : Policy)
    (now : Timestamp) : Blind part base component.name (run policy now component server geek) := by
  intro p q p' result hpq h
  obtain ⟨u, hfill, rfl⟩ := run_eq_iff.mp h
  rcases fillPool_blind hc policy now hpq hfill with hstore | ⟨v, hv, huv⟩
  · exact .inl hstore
  · exact .inr ⟨_, run_eq_iff.mpr ⟨v, hv, rfl⟩, huv⟩

end Provision

/-! ## A cycle with others and a cycle alone -/

/-- Keys that come in under other names show to nobody who has not asked for them. -/
theorem Alike.add_others {part : σ → τ} {base s t : Store} {name : String} {w w' v : σ}
    (h : Alike part base name s w t v) (hpart : part w' = part w) {keys : List AttestationKey}
    (hkeys : ∀ key ∈ keys, key.component ≠ name) : Alike part base name (s.add keys) w' t v := by
  obtain ⟨old, hs, ht⟩ := h.stored
  refine ⟨hpart.trans h.outside, old ++ keys, ?_, ?_⟩
  · rw [hs, Store.add_add]
  · have hnone : keys.filter (·.component = name) = [] := by
      simpa [List.filter_eq_nil_iff] using hkeys
    rw [ht, List.filter_append, hnone, List.append_nil]

section

variable {part : σ → τ} {base : Store} {server : Server σ} {geek : Geek} {cause : AttemptCause}
  {now : Timestamp} {reading : Nat} {component : Component σ} {components : List (Component σ)}
  {s s' t : CycleState σ} {result : Except Stop (List ComponentReport)}
  {reports : List ComponentReport}

theorem Touring.keeps {P : σ → Prop} {clock : Nat → Timestamp}
    (h : Touring server geek cause clock reading components s result s')
    (hkeeps : ∀ c ∈ components, c.Keeps P server) (hs : P s.outside) : P s'.outside := by
  induction h with
  | done => exact hs
  | crashed hrun => exact Provision.run_keeps hrun (hkeeps _ List.mem_cons_self) hs
  | aborted hrun => exact Provision.run_keeps hrun (hkeeps _ List.mem_cons_self) hs
  | next hrun hstore hrest ih =>
      apply ih
      · exact fun c hc => hkeeps c (List.mem_cons_of_mem _ hc)
      · exact Provision.run_keeps hrun (hkeeps _ List.mem_cons_self) hs

/-- Components of other names do not report on a component, nor do they show to it. -/
theorem Touring.others {v : σ} {name : String} {u : Store} {clock : Nat → Timestamp}
    (h : Touring server geek cause clock reading components s (.ok reports) s')
    (hothers : ∀ c ∈ components, c.name ≠ name ∧ ∀ a, c.Keeps (part · = a) server)
    (halike : Alike part base name s.store s.outside u v) :
    reports.filter (·.component = name) = [] ∧ Alike part base name s'.store s'.outside u v := by
  constructor
  · rw [List.filter_eq_nil_iff]
    intro r hr
    have hname : r.component ∈ components.map (·.name) := by
      rw [← h.names rfl]
      exact List.mem_map_of_mem hr
    obtain ⟨c, hc, hsame⟩ := List.mem_map.mp hname
    simpa [← hsame] using (hothers c hc).1
  · obtain ⟨-, keys, hstore, hkeys⟩ := h.adds
    rw [hstore]
    refine halike.add_others ?_ ?_
    · exact h.keeps (fun c hc => (hothers c hc).2 (part s.outside)) rfl
    · intro key hkey
      obtain ⟨-, c, hc, hsame⟩ := hkeys key hkey
      rw [hsame]
      exact (hothers c hc).1

/-- Of components that are gone through with others, each is gone through alone with the same
report. -/
theorem Touring.alone (h : Touring server geek cause (fun _ => now) reading components s result s')
    (hok : result = .ok reports) (hnames : components.Pairwise fun c d => c.name ≠ d.name)
    (hmem : component ∈ components) (hdepends : component.DependsOn part server)
    (hothers : ∀ c ∈ components, c.name ≠ component.name → ∀ a, c.Keeps (part · = a) server)
    (halike : Alike part base component.name s.store s.outside t.store t.outside)
    (hpolicy : t.policy = s.policy) :
    ∃ t', Touring server geek cause (fun _ => now) 1 [component] t
        (.ok (reports.filter (·.component = component.name))) t' ∧ t'.policy = s'.policy ∧
      Alike part base component.name s'.store s'.outside t'.store t'.outside := by
  induction h generalizing reports with
  | done => cases hmem
  | crashed => cases hok
  | aborted => cases hok
  | next hrun hstore hrest ih =>
      rename_i reading first rest s s' outcome p _
      obtain ⟨reports, rfl, rfl⟩ := map_eq_ok.mp hok
      rw [List.pairwise_cons] at hnames
      rw [List.forall_mem_cons] at hothers
      rcases List.mem_cons.mp hmem with rfl | hmem
      · have hlater : ∀ c ∈ rest, c.name ≠ component.name ∧ ∀ a, c.Keeps (part · = a) server :=
          fun c hc => ⟨(hnames.1 c hc).symm, hothers.2 c hc (hnames.1 c hc).symm⟩
        have hblind := @Provision.run_blind _ _ part base component server geek hdepends s.policy now
          _ ⟨t.store, t.outside, .ofComponent cause component.name, t.events⟩ _ _ halike hrun
        rcases hblind with ⟨e, he⟩ | ⟨q, hq, hsame⟩
        · obtain ⟨e', he', hfailed⟩ := mapError_eq_error.mp he
          cases hfailed
          cases hstore _ he'
        · obtain ⟨hnone, hsame⟩ := hrest.others hlater hsame
          rw [← hpolicy] at hq
          have halone : (ComponentReport.mk component.name outcome :: reports).filter
              (·.component = component.name) = [⟨component.name, outcome⟩] := by
            simp [hnone]
          rw [halone]
          refine ⟨_, @Touring.next _ server geek cause (fun _ => now) 1 component [] t _ outcome q _
            hq hstore .done, ?_, hsame⟩
          exact hpolicy.trans hrest.adds.1.symm
      · have hfirst : first.name ≠ component.name := hnames.1 component hmem
        obtain ⟨keys, hadded, hkeys, -⟩ := Provision.run_adds hrun
        have hpart : part p.outside = part s.outside :=
          Provision.run_keeps hrun (hothers.1 hfirst (part s.outside)) rfl
        have hnext : Alike part base component.name p.store p.outside t.store t.outside := by
          rw [hadded]
          refine halike.add_others hpart fun key hkey => ?_
          rw [(hkeys key hkey).1]
          exact hfirst
        have hother : (ComponentReport.mk first.name outcome :: reports).filter
            (·.component = component.name) = reports.filter (·.component = component.name) := by
          simp [hfirst]
        rw [hother]
        exact ih rfl hnames.2 hmem hothers.2 hnext hpolicy

/-- What a component does in a cycle with others, which leads from `s` to `s'` and ends with a report,
it does in a cycle alone, which leads from `s` to `s₁`. That comes to its end too, and says the same of
the component and of the store. The same of the old rows are left, and but for their ids the same rows
of the component are new. -/
structure Undisturbed (part : σ → τ) (server : Server σ) (now : Timestamp) (cause : AttemptCause)
    (component : Component σ) (s : CycleState σ) (report : CycleReport) (s' s₁ : CycleState σ) : Prop
    where
  run : Cycle.run ⟨[component]⟩ server (fun _ => now) cause s =
    (.ok { report with components := report.components.filter (·.component = component.name) }, s₁)
  policy : s₁.policy = s'.policy
  outside : part s'.outside = part s₁.outside
  rows : ∃ kept added own : List KeyRow, kept.Sublist s.store.db.rows ∧
    s'.store.db.rows = kept ++ added ∧ s₁.store.db.rows = kept ++ own ∧
    (∀ row ∈ added ++ own, s.store.db.lastId < row.id ∧ ∀ old ∈ kept, old.id < row.id) ∧
    (added.filter (·.component = .text component.name)).map KeyRow.unnumbered =
      own.map KeyRow.unnumbered

/-- Stores that show the same to a component have the same new rows of it. -/
theorem Alike.rows {w v : σ} {name : String} {old u₁ u₂ : Store}
    (h : Alike part base name u₁ w u₂ v) (hkept : base.db.rows.Sublist old.db.rows)
    (hlast : base.db.lastId = old.db.lastId) :
    ∃ kept added own : List KeyRow, kept.Sublist old.db.rows ∧ u₁.db.rows = kept ++ added ∧
      u₂.db.rows = kept ++ own ∧
      (∀ row ∈ added ++ own, old.db.lastId < row.id ∧ ∀ k ∈ kept, k.id < row.id) ∧
      (added.filter (·.component = .text name)).map KeyRow.unnumbered =
        own.map KeyRow.unnumbered := by
  obtain ⟨keys, rfl, rfl⟩ := h.stored
  refine ⟨base.db.rows, _, _, hkept, base.add_rows keys, base.add_rows _, ?_,
    KeyRow.filter_numbered _ _ keys name⟩
  intro row hrow
  have hnew : base.db.lastUsed < row.id := by
    rcases List.mem_append.mp hrow with hrow | hrow
    · exact (KeyRow.numbered_bounds _ _ row hrow).1
    · exact (KeyRow.numbered_bounds _ _ row hrow).1
  refine ⟨?_, fun k hk => lt_of_le_of_lt (base.db.id_le_lastUsed hk) hnew⟩
  rw [← hlast]
  exact lt_of_le_of_lt base.db.lastId_le_lastUsed hnew

/-- A component is not disturbed by others, if what it does depends on a part of the world that no
call of theirs changes. -/
theorem Cycling.alone {registry : Registry σ} {report : CycleReport}
    (h : Cycling registry server (fun _ => now) cause s (.ok report) s')
    (hnames : registry.components.Pairwise fun c d => c.name ≠ d.name)
    (hmem : component ∈ registry.components) (hdepends : component.DependsOn part server)
    (hothers : ∀ c ∈ registry.components, c.name ≠ component.name →
      ∀ a, c.Keeps (part · = a) server) :
    ∃ s₁, Undisturbed part server now cause component s report s' s₁ := by
  cases h with
  | emptied hgreet hoff hclear =>
      have hdone : Cycling ⟨[component]⟩ server (fun _ => now) cause s _ _ :=
        .emptied hgreet hoff hclear
      have hsame : Alike part s.store.clear.store component.name s.store.clear.store s.outside
          s.store.clear.store s.outside := ⟨rfl, [], rfl, rfl⟩
      have hempty := Store.clear_eq_ok hclear
      refine ⟨_, hdone.execution, rfl, rfl, hsame.rows ?_ ?_⟩
      · rw [hempty]
        exact List.nil_sublist _
      · rw [hempty]
  | finished hclean htour =>
      rename_i geek w bad cutoff expiring reports s'
      have hsame : Alike part (s.cleaned cause geek w cutoff).store component.name
          (s.cleaned cause geek w cutoff).store w (s.cleaned cause geek w cutoff).store w :=
        ⟨rfl, [], rfl, rfl⟩
      obtain ⟨s₁, htour₁, hpolicy, halike⟩ :=
        htour.alone rfl hnames hmem hdepends hothers hsame rfl
      have hdone : Cycling ⟨[component]⟩ server (fun _ => now) cause s _ _ :=
        .finished hclean htour₁
      obtain ⟨htouched, hlast⟩ := @CycleState.cleaned_touched σ registry (fun _ => now) cause geek w s
        cutoff hclean.clocked hclean.poisoned_eq
      refine ⟨_, hdone.execution, hpolicy, halike.outside, halike.rows ?_ hlast⟩
      rw [htouched.rows, List.append_nil]
      exact List.filter_sublist

end

/-! ## Components that know their own calls -/

/-- A call that a component receives. -/
inductive ComponentCall where
  | batchSize
  | newKey
  | signRequest (geek : Geek) (keys : List FreshKey)

abbrev Histories := String → List ComponentCall

/-- What a component answers to a call after those that it has received before. -/
structure Conduct where
  batchSize : List ComponentCall → Except Stop Nat
  newKey : List ComponentCall → Except Stop FreshKey
  signRequest : Geek → List FreshKey → List ComponentCall → Except Stop Bytes

/-- A call that is answered by what a component has received before, and is noted. -/
def Call.heard (name : String) (call : ComponentCall)
    (answer : List ComponentCall → Except Stop α) : Call Histories α :=
  fun calls => (answer (calls name), Function.update calls name (calls name ++ [call]))

def Conduct.component (c : Conduct) (name : String) : Component Histories where
  name := name
  batchSize := Call.heard name .batchSize c.batchSize
  newKey := Call.heard name .newKey c.newKey
  signRequest geek keys := Call.heard name (.signRequest geek keys) (c.signRequest geek keys)

/-- A server that greets in one way, and answers to a request and its challenge always the same. -/
def Server.answering (greeting : Except Stop Geek)
    (answer : (csr challenge : Bytes) → Except Stop (List Bytes)) : Server Histories where
  greet := fun calls => (greeting, calls)
  certify csr challenge := fun calls => (answer csr challenge, calls)

def Registry.ofConducts (conducts : List (String × Conduct)) : Registry Histories :=
  conducts.foldl (fun registry c => registry.register (c.2.component c.1)) .empty

namespace Registry

theorem mem_insertSorted {c d : Component σ} {components : List (Component σ)}
    (h : d ∈ insertSorted c components) : d = c ∨ d ∈ components := by
  induction components with
  | nil => simpa [insertSorted] using h
  | cons first rest ih =>
      rw [insertSorted] at h
      split at h
      · simpa using h
      · split at h
        · rcases List.mem_cons.mp h with rfl | h
          · simp
          · rcases ih h with rfl | hrest <;> simp [*]
        · rcases List.mem_cons.mp h with rfl | h <;> simp [*]

theorem insertSorted_ascending (c : Component σ) {components : List (Component σ)}
    (h : components.Pairwise fun a b => a.name < b.name) :
    (insertSorted c components).Pairwise fun a b => a.name < b.name := by
  induction components with
  | nil => simp [insertSorted]
  | cons first rest ih =>
      obtain ⟨hfirst, hrest⟩ := List.pairwise_cons.mp h
      rw [insertSorted]
      split
      · rename_i hbefore
        refine .cons ?_ h
        intro d hd
        rcases List.mem_cons.mp hd with rfl | hd
        · exact hbefore
        · exact hbefore.trans (hfirst d hd)
      · rename_i hbefore
        split
        · rename_i hafter
          refine .cons ?_ (ih hrest)
          intro d hd
          rcases mem_insertSorted hd with rfl | hd
          · exact hafter
          · exact hfirst d hd
        · rename_i hafter
          have hsame : first.name = c.name := le_antisymm (not_lt.mp hbefore) (not_lt.mp hafter)
          exact .cons (fun d hd => hsame ▸ hfirst d hd) hrest

/-- Registered components have names of their own, and each is one that was registered. -/
theorem ofConducts_registered (conducts : List (String × Conduct)) :
    ((ofConducts conducts).components.Pairwise fun a b => a.name < b.name) ∧
      ∀ component ∈ (ofConducts conducts).components,
        ∃ c ∈ conducts, component = c.2.component c.1 := by
  induction conducts using List.reverseRecOn with
  | nil => exact ⟨.nil, fun _ h => absurd h List.not_mem_nil⟩
  | append_singleton conducts last ih =>
      have hlast : (ofConducts (conducts ++ [last])).components =
          insertSorted (last.2.component last.1) (ofConducts conducts).components := by
        simp [ofConducts, register]
      rw [hlast]
      refine ⟨insertSorted_ascending _ ih.1, ?_⟩
      intro component hc
      rcases mem_insertSorted hc with rfl | hc
      · exact ⟨last, by simp, rfl⟩
      · obtain ⟨c, hmem, hsame⟩ := ih.2 component hc
        exact ⟨c, List.mem_append_left _ hmem, hsame⟩

end Registry

theorem Call.heard_dependsOn (name : String) (call : ComponentCall)
    (answer : List ComponentCall → Except Stop α) :
    (Call.heard name call answer).DependsOn (fun calls => calls name) := by
  intro v w hvw
  simp [Call.heard, hvw]

theorem Call.heard_keeps {name other : String} (hother : name ≠ other) (call : ComponentCall)
    (answer : List ComponentCall → Except Stop α) (heard : List ComponentCall) :
    (Call.heard name call answer).Keeps (fun calls => calls other = heard) := by
  intro w w' result h hw
  cases h
  simpa [Function.update_of_ne hother.symm] using hw

/-- A component does in a cycle with others what it does alone: its report, its calls and its new rows
are the same, if components and the server answer by what they are asked. -/
theorem independence_spec (conducts : List (String × Conduct)) (greeting : Except Stop Geek)
    (answer : (csr challenge : Bytes) → Except Stop (List Bytes)) (now : Timestamp)
    (cause : AttemptCause) (s : CycleState Histories) {report : CycleReport}
    {s' : CycleState Histories}
    (hrun : Cycle.run (.ofConducts conducts) (.answering greeting answer) (fun _ => now) cause s =
      (.ok report, s')) :
    ∀ component ∈ (Registry.ofConducts conducts).components, ∃ s₁,
      Undisturbed (fun calls => calls component.name) (.answering greeting answer) now cause component s
        report s' s₁ := by
  intro component hmem
  obtain ⟨hascending, horigin⟩ := Registry.ofConducts_registered conducts
  refine (Cycle.run_cycling hrun).alone (hascending.imp fun h => h.ne) hmem ?_ ?_
  · obtain ⟨c, -, rfl⟩ := horigin component hmem
    refine ⟨Call.heard_dependsOn _ _ _, Call.heard_dependsOn _ _ _,
      fun _ _ => Call.heard_dependsOn _ _ _, ?_⟩
    exact fun csr challenge v w hvw => ⟨rfl, hvw⟩
  · intro other hother hname heard
    obtain ⟨c, -, rfl⟩ := horigin other hother
    refine ⟨Call.heard_keeps hname _ _ _, Call.heard_keeps hname _ _ _,
      fun _ _ => Call.heard_keeps hname _ _ _, ?_⟩
    intro csr challenge w w' result h hw
    cases h
    exact hw

/-- A component that makes keys for its first calls, and fails from then on. -/
def Conduct.tiring (calls : Nat) : Conduct where
  batchSize _ := .ok 1
  newKey heard := if heard.length < calls then
      .ok ⟨[UInt8.ofNat calls, UInt8.ofNat heard.length], (Bytes.selfSigned.drop 63).take 32⟩
    else .error (.failed (.keyGeneration "tired"))
  signRequest _ _ _ := .ok []

def Server.alike : Server Histories :=
  .answering (.ok ⟨[], [], none, some 2, none⟩) fun _ _ => .ok [.selfSigned]

/-- A cycle of two components, of which the first fails at its second key. -/
def CycleState.uneven : Except Stop CycleReport × CycleState Histories :=
  Cycle.run (.ofConducts [("b", .tiring 9), ("a", .tiring 3)]) .alike (fun _ => .epoch) .scheduled
    ⟨.empty, fun _ => [], .default, []⟩

/-- One component gets its two keys as it does alone, while the other fails after its first. -/
theorem independence_spec_uneven :
    CycleState.uneven.2.store.db.rows.length = 3 ∧ ∃ report s₁,
      report.components.map (fun r => (r.component, r.stored, r.failed)) =
        [("a", 0, true), ("b", 2, false)] ∧
      Undisturbed (fun calls => calls "b") .alike .epoch .scheduled
        (Conduct.component (.tiring 9) "b") ⟨.empty, fun _ => [], .default, []⟩ report
        CycleState.uneven.2 s₁ := by
  have hfound : CycleState.uneven.2.store.db.rows.length = 3 ∧ CycleState.uneven.1.toOption.map
        (fun report => report.components.map fun r => (r.component, r.stored, r.failed)) =
      some [("a", 0, true), ("b", 2, false)] := by
    decide +kernel
  obtain ⟨hrows, hreport⟩ := hfound
  refine ⟨hrows, ?_⟩
  obtain ⟨report, hrun, hcomponents⟩ := toOption_map_eq_some.mp hreport
  have hbefore : "a" < "b" := by decide
  have hmem : Conduct.component (.tiring 9) "b" ∈
      (Registry.ofConducts [("b", .tiring 9), ("a", .tiring 3)]).components := by
    simp only [Registry.ofConducts, Registry.register, Registry.empty, Registry.insertSorted,
      List.foldl_cons, List.foldl_nil, Conduct.component, hbefore, ite_true]
    exact List.mem_cons_of_mem _ List.mem_cons_self
  obtain ⟨s₁, halone⟩ := independence_spec _ _ _ .epoch .scheduled _
    (Prod.ext hrun rfl : CycleState.uneven = (.ok report, CycleState.uneven.2)) _ hmem
  exact ⟨report, s₁, hcomponents, halone⟩

end KeyPool
