import KeyPool.Proofs.Provisioning.Filling
import KeyPool.Proofs.Provisioning.Mirror
import KeyPool.Proofs.Store.History

/-! Where the keys of a pool come from. If keys are brought in by provisioning alone, then every key
that is read back was made by its component, and is held under a chain that certifies it for exactly
as long as its record says. -/

namespace KeyPool

variable {σ α : Type}

/-! ## Reading back what was stored -/

namespace KeyRow

/-- Beside its assignment a key reads as it was stored, if its expiration is a whole number of
milliseconds. -/
theorem toKey_eq_map {row : KeyRow} {record : AttestationKey}
    (hblob : row.keyBlob = .blob record.keyBlob) (hcomponent : row.component = .text record.component)
    (hpublic : row.publicKey = .blob record.publicKey) (hchain : row.chain = .blob record.chain)
    (hexpires : row.expiration = .integer record.expiration.toMillis)
    (htime : Timestamp.ofMillis? record.expiration.toMillis = some record.expiration) :
    row.toKey =
      row.readAssignment.map fun assignment => { record with id := some row.id, assignment } := by
  cases hassignment : row.readAssignment <;>
    simp [toKey, hassignment, hblob, hcomponent, hpublic, hchain, hexpires, htime, read, readTime,
      Cell.toBlob?, Cell.toText?, Cell.toInteger?, bind, Except.bind, pure, Except.pure, Except.map]

/-- A key that was stored unbound reads as it was for as long as its row is there, unless it was
assigned at a time that no clock shows. -/
theorem toKey_of_becomes {id : Int} {record : AttestationKey} {row : KeyRow}
    (hrow : (ofKey id record).Becomes row) (hunbound : record.assignment = none)
    (htime : Timestamp.ofMillis? record.expiration.toMillis = some record.expiration) :
    (∃ assignment, row.toKey = .ok { record with id := some id, assignment }) ∨
      ∃ millis, Timestamp.ofMillis? millis = none ∧
        row.toKey = .error (.unreadableTime .assignedAt millis) := by
  cases hrow with
  | same =>
      rw [toKey_eq_map rfl rfl rfl rfl rfl htime, readAssignment_unbound (ofKey_unbound hunbound)]
      exact .inl ⟨none, rfl⟩
  | bound client irpc millis hfree =>
      rw [toKey_eq_map rfl rfl rfl rfl rfl htime, readAssignment_assign]
      cases htold : Timestamp.ofMillis? millis with
      | none => exact .inr ⟨millis, htold, by simp [readTime, htold, Except.map]⟩
      | some t =>
          exact .inl ⟨some ⟨client, irpc, t⟩, by simp [readTime, htold, Except.map, assign, ofKey]⟩

end KeyRow

/-! ## Keys that were made -/

/-- A key and the name of the component that made it. -/
structure MadeKey where
  component : String
  key : FreshKey

/-- The same call in a world that also keeps a list of keys, to which it adds those it brings. -/
def Call.bringing (keys : α → List MadeKey) (c : Call σ α) : Call (σ × List MadeKey) α :=
  fun (w, made) =>
    let (result, w) := c w
    (result, w, made ++ result.toOption.elim [] keys)

def Component.remembering (c : Component σ) : Component (σ × List MadeKey) where
  name := c.name
  batchSize := c.batchSize.bringing fun _ => []
  newKey := c.newKey.bringing fun key => [⟨c.name, key⟩]
  signRequest geek keys := (c.signRequest geek keys).bringing fun _ => []

def Server.remembering (s : Server σ) : Server (σ × List MadeKey) where
  greet := s.greet.bringing fun _ => []
  certify csr challenge := (s.certify csr challenge).bringing fun _ => []

theorem Component.remembering_mirrors (c : Component σ) : c.remembering.Mirrors Prod.fst c :=
  ⟨rfl, fun _ => rfl, fun _ => rfl, fun _ _ _ => rfl⟩

theorem Server.remembering_mirrors (s : Server σ) : s.remembering.Mirrors Prod.fst s :=
  ⟨fun _ => rfl, fun _ _ _ => rfl⟩

theorem Call.bringing_eq {keys : α → List MadeKey} {c : Call σ α} {u u' : σ × List MadeKey}
    {result : Except Stop α} (h : c.bringing keys u = (result, u')) :
    u'.2 = u.2 ++ result.toOption.elim [] keys := by
  cases h
  rfl

theorem Call.made_eq {c : Call σ α} {u u' : σ × List MadeKey} {result : Except Stop α}
    (h : c.bringing (fun _ => []) u = (result, u')) : u'.2 = u.2 := by
  rw [Call.bringing_eq h]
  cases result <;> simp [Except.toOption]

section

variable {component : Component σ} {server : Server σ} {geek : Geek} {u u' : σ × List MadeKey}

theorem Component.Makes.made_eq {keys : List FreshKey}
    (h : component.remembering.Makes u keys u') :
    u'.2 = u.2 ++ keys.map (⟨component.name, ·⟩) := by
  induction h with
  | none u => simp
  | next hkey hkeys ih =>
      rw [ih, Call.bringing_eq hkey]
      simp [Except.toOption]

theorem Exchange.Between.made_eq {x : Exchange component.remembering.name}
    (h : x.Between server.remembering geek u u') :
    u'.2 = u.2 ++ x.keys.map (⟨component.name, ·⟩) := by
  obtain ⟨made, signed, hkeys, hcsr, hchains⟩ := h
  rw [Call.made_eq hchains, Call.made_eq hcsr, hkeys.made_eq]

theorem Exchanges.made_eq {xs : List (Exchange component.remembering.name)}
    (h : Exchanges component.remembering server.remembering geek u xs u') :
    u'.2 = u.2 ++ (xs.flatMap (·.keys)).map (⟨component.name, ·⟩) := by
  induction h with
  | none u => simp
  | next hx hxs ih => rw [ih, hx.made_eq, List.flatMap_cons, List.map_append, List.append_assoc]

theorem Requesting.made_subset {size count : Nat} {calls : List CallRecord}
    {outcome : Except Stop (Exchange component.remembering.name)}
    (h : Requesting component.remembering server.remembering geek size u count calls outcome u') :
    u.2 ⊆ u'.2 := by
  cases h with
  | tooLarge hroom => exact List.Subset.refl _
  | notMade hroom hkeys hfew hstop =>
      rw [Call.bringing_eq hstop, hkeys.made_eq]
      simp [Except.toOption]
  | notSigned hroom hkeys hall hstop =>
      rw [Call.made_eq hstop, hkeys.made_eq]
      exact List.subset_append_left _ _
  | notAnswered hroom hkeys hall hcsr hstop =>
      rw [Call.made_eq hstop, Call.made_eq hcsr, hkeys.made_eq]
      exact List.subset_append_left _ _
  | malformed hroom hkeys hall hcsr hchains hfault =>
      rw [Call.made_eq hchains, Call.made_eq hcsr, hkeys.made_eq]
      exact List.subset_append_left _ _
  | certified x hroom hx hall =>
      rw [hx.made_eq]
      exact List.subset_append_left _ _

theorem Ending.made_subset {s : Store} {sizes : List Nat} {count : Nat} {calls : List CallRecord}
    {stop? : Option Stop}
    (h : Ending component.remembering server.remembering geek s u sizes count calls stop? u') :
    u.2 ⊆ u'.2 := by
  cases h with
  | finished => exact List.Subset.refl _
  | refused h => exact h.made_subset
  | rejected h he => exact h.made_subset

theorem Unstarted.made_eq {policy : Policy} {now : Timestamp} {s : Store}
    {result : Except Stop Nat} {calls : List CallRecord}
    (h : Unstarted policy now component.remembering s u result calls u') : u'.2 = u.2 := by
  cases h with
  | uncounted he => rfl
  | full hfree hfull => rfl
  | unasked hfree hshort hstop => exact Call.made_eq hstop
  | sizeless hfree hshort hzero => exact Call.made_eq hzero
  | unlisted hfree hshort hreported hne hlong => exact Call.made_eq hreported

end

/-! ## Genuine keys -/

/-- A key that was made by its component and is held under a chain that certifies it, for exactly as
long as the leaf of the chain lasts. -/
def AttestationKey.Genuine (made : List MadeKey) (key : AttestationKey) : Prop :=
  ∃ chain, CertificateChain.ofBytes key.chain = .ok chain ∧
    chain.leaf.publicKey = key.publicKey ∧ chain.leaf.notAfter = key.expiration ∧
    ⟨key.component, key.keyBlob, key.publicKey⟩ ∈ made

theorem AttestationKey.Genuine.mono {made made' : List MadeKey} {key : AttestationKey}
    (h : key.Genuine made) (hsub : made ⊆ made') : key.Genuine made' := by
  obtain ⟨chain, hchain, hpublic, hexpires, hmade⟩ := h
  exact ⟨chain, hchain, hpublic, hexpires, hsub hmade⟩

theorem AttestationKey.genuine_of_gained {component : Component σ} {server : Server σ} {geek : Geek}
    {u u' : σ × List MadeKey} {xs : List (Exchange component.remembering.name)}
    (h : Exchanges component.remembering server.remembering geek u xs u')
    {record : AttestationKey} (hrecord : record ∈ Exchange.gained xs) :
    record.Genuine u'.2 ∧ record.assignment = none := by
  obtain ⟨x, hx, key, hkey, encoded, -, chain, hchain, hpublic, rfl⟩ :=
    Exchange.exists_of_mem_gained hrecord
  have hmade : (⟨component.name, key⟩ : MadeKey) ∈ u'.2 := by
    rw [h.made_eq]
    exact List.mem_append_right _ (List.mem_map_of_mem (List.mem_flatMap.mpr ⟨x, hx, hkey⟩))
  exact ⟨⟨chain, hchain, hpublic, rfl, hmade⟩, rfl⟩

/-- Every row is what became of a genuine key that was stored unbound. -/
structure Database.Genuine (made : List MadeKey) (db : Database) : Prop where
  numbered : db.Numbered
  origin : ∀ row ∈ db.rows, ∃ id record, record.Genuine made ∧ record.assignment = none ∧
    (KeyRow.ofKey id record).Becomes row

namespace Database.Genuine

variable {made made' : List MadeKey} {db db' : Database}

theorem empty (made : List MadeKey) : Database.empty.Genuine made :=
  ⟨numbered_empty, fun _ h => absurd h List.not_mem_nil⟩

theorem mono (h : db.Genuine made) (hsub : made ⊆ made') : db.Genuine made' := by
  refine ⟨h.numbered, ?_⟩
  intro row hrow
  obtain ⟨id, record, hgenuine, hfree, hbecomes⟩ := h.origin row hrow
  exact ⟨id, record, hgenuine.mono hsub, hfree, hbecomes⟩

theorem change (h : db.Genuine made) {op : StoreOperation} (hop : ∀ keys, op ≠ .insert keys)
    (hc : db.Change op db') : db'.Genuine made := by
  refine ⟨h.numbered.change hc, ?_⟩
  intro later hlater
  rcases hc.rows_origin h.numbered with ⟨keys, hinsert, -⟩ | ⟨-, horigin⟩
  · exact absurd hinsert (hop keys)
  · obtain ⟨row, hrow, hlater⟩ := horigin later hlater
    obtain ⟨id, record, hgenuine, hfree, hbecomes⟩ := h.origin row hrow
    exact ⟨id, record, hgenuine, hfree, hbecomes.trans hlater⟩

theorem append (h : db.Genuine made) {keys : List AttestationKey}
    (hkeys : ∀ key ∈ keys, key.Genuine made ∧ key.assignment = none) :
    (db.append keys).Genuine made := by
  refine ⟨h.numbered.append keys, ?_⟩
  intro row hrow
  rcases List.mem_append.mp hrow with hold | hnew
  · exact h.origin row hold
  · obtain ⟨key, hkey, id, rfl⟩ := KeyRow.exists_key_of_mem_numbered hnew
    obtain ⟨hgenuine, hfree⟩ := hkeys key hkey
    exact ⟨id, key, hgenuine, hfree, .same⟩

theorem toKey (h : db.Genuine made) {row : KeyRow} (hrow : row ∈ db.rows) :
    (∃ key, row.toKey = .ok key ∧ key.Genuine made) ∨
      ∃ millis, Timestamp.ofMillis? millis = none ∧
        row.toKey = .error (.unreadableTime .assignedAt millis) := by
  obtain ⟨id, record, ⟨chain, hchain, hpublic, hexpires, hmade⟩, hfree, hbecomes⟩ :=
    h.origin row hrow
  have htime : Timestamp.ofMillis? record.expiration.toMillis = some record.expiration := by
    rw [← hexpires]
    exact chain.leaf.body.notAfter.ofMillis?_toMillis
  rcases KeyRow.toKey_of_becomes hbecomes hfree htime with ⟨assignment, hkey⟩ | hunreadable
  · exact .inl ⟨_, hkey, chain, hchain, hpublic, hexpires, hmade⟩
  · exact .inr hunreadable

end Database.Genuine

/-! ## Attempts and cycles -/

def Store.IsGenuine (s : Store) (u : σ × List MadeKey) : Prop := s.db.Genuine u.2

namespace Store.IsGenuine

theorem add {s : Store} {u : σ × List MadeKey} (h : s.IsGenuine u) {keys : List AttestationKey}
    (hkeys : ∀ key ∈ keys, key.Genuine u.2 ∧ key.assignment = none) : (s.add keys).IsGenuine u := by
  by_cases hnil : keys = []
  · rw [hnil, Store.add_nil]
    exact h
  · rw [Store.add_of_ne_nil s hnil]
    exact Database.Genuine.append h hkeys

section

variable {component : Component σ} {server : Server σ} {geek : Geek}
  {p p' : Progress (σ × List MadeKey)} {result : Except Stop Nat}

/-- Whatever component and server do, what batches add is genuine. -/
theorem storeBatches {batchSize index needed : Nat} (h : p.store.IsGenuine p.outside)
    (hrun : Provision.storeBatches component.remembering server.remembering geek batchSize index needed
      p = (result, p')) : p'.store.IsGenuine p'.outside := by
  obtain ⟨xs, made, calls, hdone⟩ := Provision.storeBatches_committed hrun
  obtain ⟨u, stop?, hxs, hend, -⟩ := hdone.ended
  have hbefore : p.outside.2 ⊆ u.2 := by
    rw [hxs.made_eq]
    exact List.subset_append_left _ _
  have hadded : (p.store.add (Exchange.gained xs)).IsGenuine u :=
    add (Database.Genuine.mono h hbefore) fun key hkey => AttestationKey.genuine_of_gained hxs hkey
  rw [hdone.stored]
  exact Database.Genuine.mono hadded hend.made_subset

theorem run {policy : Policy} {now : Timestamp} (h : p.store.IsGenuine p.outside)
    (hrun : Provision.run policy now component.remembering server.remembering geek p = (result, p')) :
    p'.store.IsGenuine p'.outside := by
  obtain ⟨q, hfill, rfl⟩ := Provision.run_eq_iff.mp hrun
  change q.store.IsGenuine q.outside
  rcases Provision.fillPool_cases hfill with
    ⟨hstore, -, calls, hends⟩ | ⟨free, reported, q', hstore, -, hstart, hbatches⟩
  · rw [hstore, IsGenuine, hends.made_eq]
    exact h
  · have hstarted : q'.store.IsGenuine q'.outside := by
      rw [hstore, IsGenuine, Call.made_eq hstart.asked]
      exact h
    exact storeBatches hstarted hbatches

end

theorem upheld (components : List (Component σ)) (server : Server σ) :
    Cycle.Upholds IsGenuine (components.map Component.remembering) server.remembering where
  operation s u op hop h := Database.Genuine.change h hop (op.perform_change s)
  greet s u h := by
    have hmade : (server.remembering.greet u).2.2 = u.2 := @Call.made_eq _ _ server.greet u _ _ rfl
    rw [IsGenuine, hmade]
    exact h
  attempt component hcomponent policy now geek p h := by
    obtain ⟨c, -, rfl⟩ := List.mem_map.mp hcomponent
    exact run h rfl

end Store.IsGenuine

/-! ## Runs of a device -/

/-- The tables of a device and the world outside of it. -/
structure Device (σ : Type) where
  db : Database
  outside : σ

namespace Device

/-- What a course of provisioning leaves, whatever its answer. -/
def provision (d : Device σ) (poisoned : Bool) (attempt : Attempt) (x : Provision σ α) : Device σ :=
  let p := (x ⟨⟨d.db, poisoned⟩, d.outside, attempt, []⟩).2
  ⟨p.store.db, p.outside⟩

def cycle (d : Device σ) (poisoned : Bool) (policy : Policy) (x : Cycle σ α) : Device σ :=
  let s := (x ⟨⟨d.db, poisoned⟩, d.outside, policy, []⟩).2
  ⟨s.store.db, s.outside⟩

end Device

/-- What may happen on a device whose keys are brought in by provisioning alone: an operation that
inserts no keys, an attempt for one component, some batches of an attempt between which others use the
store, or a cycle. Each goes through a handle that may be poisoned. -/
inductive Activity (σ : Type) where
  | operation (call : StoreCall) (h : ∀ keys, call.operation ≠ .insert keys)
  | attempt (policy : Policy) (now : Timestamp) (component : Component σ) (server : Server σ)
    (geek : Geek) (begun : Attempt) (poisoned : Bool)
  | batches (component : Component σ) (server : Server σ) (geek : Geek) (batchSize index needed : Nat)
    (begun : Attempt) (poisoned : Bool)
  | cycle (registry : Registry σ) (server : Server σ) (policy : Policy) (clock : Nat → Timestamp)
    (cause : AttemptCause) (poisoned : Bool)

namespace Activity

def perform (d : Device σ) : Activity σ → Device σ
  | operation call _ => ⟨call.next d.db, d.outside⟩
  | attempt policy now component server geek begun poisoned =>
    d.provision poisoned begun (Provision.run policy now component server geek)
  | batches component server geek batchSize index needed begun poisoned =>
    d.provision poisoned begun
      (Provision.storeBatches component server geek batchSize index needed)
  | cycle registry server policy clock cause poisoned =>
    d.cycle poisoned policy (Cycle.run registry server clock cause)

def remembering : Activity σ → Activity (σ × List MadeKey)
  | operation call h => operation call h
  | attempt policy now component server geek begun poisoned =>
    attempt policy now component.remembering server.remembering geek begun poisoned
  | batches component server geek batchSize index needed begun poisoned =>
    batches component.remembering server.remembering geek batchSize index needed begun poisoned
  | cycle registry server policy clock cause poisoned =>
    cycle ⟨registry.components.map Component.remembering⟩ server.remembering policy clock cause poisoned

end Activity

namespace Device

def after (d : Device σ) (activities : List (Activity σ)) : Device σ :=
  activities.foldl Activity.perform d

def remembering (d : Device σ) (made : List MadeKey) : Device (σ × List MadeKey) :=
  ⟨d.db, d.outside, made⟩

section

variable {d : Device σ} {made : List MadeKey}

theorem provision_remembering {x : Provision (σ × List MadeKey) α} {y : Provision σ α}
    (hsame : Provision.Mirrors Prod.fst x y)
    (hkept : ∀ {p p' : Progress (σ × List MadeKey)} {result : Except Stop α},
      p.store.IsGenuine p.outside → x p = (result, p') → p'.store.IsGenuine p'.outside)
    (h : d.db.Genuine made) (poisoned : Bool) (attempt : Attempt) :
    ∃ made', (d.remembering made).provision poisoned attempt x =
      (d.provision poisoned attempt y).remembering made' ∧
        (d.provision poisoned attempt y).db.Genuine made' := by
  cases hx : x ⟨⟨d.db, poisoned⟩, (d.outside, made), attempt, []⟩ with
  | mk result p =>
      have hy : y ⟨⟨d.db, poisoned⟩, d.outside, attempt, []⟩ = (result, p.map Prod.fst) := by
        have hview := hsame ⟨⟨d.db, poisoned⟩, (d.outside, made), attempt, []⟩
        rw [hx] at hview
        exact hview
      refine ⟨p.outside.2, ?_, ?_⟩
      · rw [provision, provision, hy, remembering, hx]
        rfl
      · rw [provision, hy]
        refine hkept ?_ hx
        exact h

theorem cycle_remembering {x : Cycle (σ × List MadeKey) α} {y : Cycle σ α}
    (hsame : Cycle.Mirrors Prod.fst Store.IsGenuine x y) (h : d.db.Genuine made) (poisoned : Bool)
    (policy : Policy) :
    ∃ made', (d.remembering made).cycle poisoned policy x =
      (d.cycle poisoned policy y).remembering made' ∧
        (d.cycle poisoned policy y).db.Genuine made' := by
  obtain ⟨hview, hkept⟩ := hsame ⟨⟨d.db, poisoned⟩, (d.outside, made), policy, []⟩ h
  cases hx : x ⟨⟨d.db, poisoned⟩, (d.outside, made), policy, []⟩ with
  | mk result s =>
      rw [hx] at hview hkept
      have hy : y ⟨⟨d.db, poisoned⟩, d.outside, policy, []⟩ = (result, s.map Prod.fst) := hview
      refine ⟨s.outside.2, ?_, ?_⟩
      · rw [cycle, cycle, hy, remembering, hx]
        rfl
      · rw [cycle, hy]
        exact hkept

/-- An activity is the same where keys are remembered, and keeps the tables genuine. -/
theorem perform_remembering (a : Activity σ) (h : d.db.Genuine made) :
    ∃ made', a.remembering.perform (d.remembering made) = (a.perform d).remembering made' ∧
      (a.perform d).db.Genuine made' := by
  cases a with
  | operation call hop => exact ⟨made, rfl, h.change hop (call.next_change d.db)⟩
  | attempt policy now component server geek begun poisoned =>
      have hsame := Provision.run_mirrors component.remembering_mirrors server.remembering_mirrors
        policy now geek
      exact provision_remembering hsame Store.IsGenuine.run h poisoned begun
  | batches component server geek batchSize index needed begun poisoned =>
      have hsame := Provision.storeBatches_mirrors component.remembering_mirrors
        server.remembering_mirrors geek batchSize index needed
      exact provision_remembering hsame Store.IsGenuine.storeBatches h poisoned begun
  | cycle registry server policy clock cause poisoned =>
      have hcomponents : List.Forall₂ (Component.Mirrors Prod.fst)
          (registry.components.map Component.remembering) registry.components := by
        rw [List.forall₂_map_left_iff, List.forall₂_same]
        exact fun c _ => c.remembering_mirrors
      have hsame := Cycle.run_mirrors hcomponents server.remembering_mirrors
        (Store.IsGenuine.upheld registry.components server) clock cause
      exact cycle_remembering hsame h poisoned policy

end

theorem after_cons (d : Device σ) (a : Activity σ) (activities : List (Activity σ)) :
    d.after (a :: activities) = (a.perform d).after activities := rfl

theorem after_remembering (activities : List (Activity σ)) {d : Device σ} {made : List MadeKey}
    (h : d.db.Genuine made) : ∃ made',
      (d.remembering made).after (activities.map Activity.remembering) =
        (d.after activities).remembering made' ∧ (d.after activities).db.Genuine made' := by
  induction activities generalizing d made with
  | nil => exact ⟨made, rfl, h⟩
  | cons a activities ih =>
      obtain ⟨made', hsame, hkept⟩ := perform_remembering a h
      obtain ⟨made'', hrest, hlast⟩ := ih hkept
      refine ⟨made'', ?_, hlast⟩
      rw [List.map_cons, after_cons, after_cons, hsame, hrest]

end Device

/-- What is in the tables of a device after a run that began with empty ones. To remember the keys
that were made changes nothing else, and every row reads as one of them, unless it was assigned at a
time that no clock shows. -/
structure OriginSpec (activities : List (Activity σ)) (w : σ) (made : List MadeKey) : Prop where
  remembered : (Device.remembering ⟨.empty, w⟩ []).after (activities.map Activity.remembering) =
    (Device.after ⟨.empty, w⟩ activities).remembering made
  genuine : ∀ row ∈ (Device.after ⟨.empty, w⟩ activities).db.rows, ∀ key, row.toKey = .ok key →
    key.Genuine made
  readable : ∀ row ∈ (Device.after ⟨.empty, w⟩ activities).db.rows, ∀ e, row.toKey = .error e →
    ∃ millis, Timestamp.ofMillis? millis = none ∧ e = .unreadableTime .assignedAt millis

/-- Only certified keys get into a pool, with the expiration of their certificates. -/
theorem pool_genuine (activities : List (Activity σ)) (w : σ) :
    ∃ made, OriginSpec activities w made := by
  have hempty : (Device.mk Database.empty w).db.Genuine [] := .empty []
  obtain ⟨made, hsame, hgenuine⟩ := Device.after_remembering activities hempty
  refine ⟨made, hsame, ?_, ?_⟩
  · intro row hrow key hkey
    rcases hgenuine.toKey hrow with ⟨key', hkey', hgood⟩ | ⟨millis, -, herror⟩
    · cases hkey.symm.trans hkey'
      exact hgood
    · cases hkey.symm.trans herror
  · intro row hrow e he
    rcases hgenuine.toKey hrow with ⟨key, hkey, -⟩ | ⟨millis, hunshown, herror⟩
    · cases he.symm.trans hkey
    · cases he.symm.trans herror
      exact ⟨millis, hunshown, rfl⟩

/-- A key that was made for the pool and then bound. -/
example : ((Device.after ⟨.empty, ()⟩
    [.attempt { Policy.default with extraKeys := 1 } .epoch .oneKey .oneChain
        ⟨[], [], none, none, none⟩ (.ofComponent .manual "hal") false,
      .operation ⟨.assign "hal" .epoch 7 9, false⟩ fun _ => StoreOperation.noConfusion]).db.rows.map
        fun row => (row.id, row.client)) = [(1, .integer 7)] := by
  decide +kernel

end KeyPool
