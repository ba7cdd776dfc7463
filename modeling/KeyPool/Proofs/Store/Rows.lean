import KeyPool.Proofs.Certificate.Chains
import KeyPool.Proofs.Results
import KeyPool.Proofs.Time.Millis
import KeyPool.Store.Operation
import Mathlib.Algebra.Order.Ring.Int
import Mathlib.Data.List.Forall2

/-! What reading, binding and adding say of single rows and of the ids in a table. -/

namespace KeyPool

theorem exists_of_mem_forall₂ {α β : Type} {R : α → β → Prop} {l : List α} {l' : List β}
    (h : List.Forall₂ R l l') {b : β} (hb : b ∈ l') : ∃ a ∈ l, R a b := by
  induction h with
  | nil => cases hb
  | cons hhead htail ih =>
      rename_i a c l l'
      rcases List.mem_cons.mp hb with rfl | hb
      · exact ⟨a, List.mem_cons_self, hhead⟩
      · obtain ⟨a', ha', hr⟩ := ih hb
        exact ⟨a', List.mem_cons_of_mem a ha', hr⟩

/-- Tests that agree on what corresponds leave what corresponds. -/
theorem filter_forall₂ {α β : Type} {R : α → β → Prop} {p : α → Bool} {q : β → Bool} {l : List α}
    {l' : List β} (h : List.Forall₂ R l l') (hpq : ∀ a b, R a b → p a = q b) :
    List.Forall₂ R (l.filter p) (l'.filter q) := by
  refine List.rel_filter ?_ h
  intro a b hab
  change p a = true ↔ q b = true
  rw [hpq a b hab]

theorem countP_eq_of_forall₂ {α β : Type} {R : α → β → Prop} {p : α → Bool} {q : β → Bool}
    {l : List α} {l' : List β} (h : List.Forall₂ R l l') (hpq : ∀ a b, R a b → p a = q b) :
    l.countP p = l'.countP q := by
  rw [List.countP_eq_length_filter, List.countP_eq_length_filter]
  exact (filter_forall₂ h hpq).length_eq

/-- What is filtered out of a list is counted with what is left. -/
theorem length_filter_add_countP {α : Type} (keep : α → Bool) (l : List α) :
    (l.filter keep).length + l.countP (fun a => !keep a) = l.length := by
  have hsplit := l.length_eq_countP_add_countP keep
  simp only [Bool.not_eq_true, Bool.decide_eq_false] at hsplit
  rw [← List.countP_eq_length_filter, ← hsplit]

theorem length_sub_length_filter {α : Type} (keep : α → Bool) (l : List α) :
    l.length - (l.filter keep).length = l.countP fun a => !keep a := by
  rw [← length_filter_add_countP keep l, Nat.add_sub_cancel_left]

/-- What one of two tests holds of is counted by the first and, apart from that, by the second. -/
theorem countP_or {α : Type} (p q : α → Bool) (l : List α) :
    l.countP (fun a => p a || q a) = l.countP p + l.countP fun a => !p a && q a := by
  induction l with
  | nil => rfl
  | cons a l ih =>
      simp only [List.countP_cons, ih]
      cases p a <;> cases q a <;> simp <;> omega

/-! ## Cells -/

namespace Cell

variable {c : Cell}

theorem toBlob?_eq_some {b : Bytes} : c.toBlob? = some b ↔ c = .blob b := by
  cases c <;> simp [toBlob?]

theorem toText?_eq_some {s : String} : c.toText? = some s ↔ c = .text s := by
  cases c <;> simp [toText?]

theorem toInteger?_eq_some {n : Int} : c.toInteger? = some n ↔ c = .integer n := by
  cases c <;> simp [toInteger?]

end Cell

/-! ## Rows as keys -/

namespace KeyRow

/-- A row that was never bound: no column of an assignment has a value. -/
structure IsUnbound (row : KeyRow) : Prop where
  client : row.client = .null
  irpc : row.irpc = .null
  assignedAt : row.assignedAt = .null

theorem ofKey_unbound {id : Int} {key : AttestationKey} (h : key.assignment = none) :
    (ofKey id key).IsUnbound := by
  constructor <;> simp [ofKey, h, Cell.ofInteger?]

@[simp] theorem ofKey_id (id : Int) (key : AttestationKey) : (ofKey id key).id = id := rfl

@[simp] theorem assign_id (client irpc : Int32) (millis : Int) (row : KeyRow) :
    (row.assign client irpc millis).id = row.id := rfl

theorem readOptional_eq_ok_none {column : KeyColumn} {c : Cell}
    (h : readOptional column c = .ok none) : c = .null := by
  cases c <;> simp_all [readOptional, read, Cell.toInteger?, Except.map]

theorem readUid_eq_ok_none {column : KeyColumn} {c : Cell} (h : readUid column c = .ok none) :
    c = .null := by
  obtain ⟨found, hread, hfound⟩ := bind_eq_ok.mp h
  cases found with
  | none => exact readOptional_eq_ok_none hread
  | some n =>
      simp only at hfound
      split at hfound <;> cases hfound

theorem readOptional_eq_ok_some {column : KeyColumn} {c : Cell} {n : Int}
    (h : readOptional column c = .ok (some n)) : c = .integer n := by
  cases c <;> simp_all [readOptional, read, Cell.toInteger?, Except.map]

theorem readUid_eq_ok_some {column : KeyColumn} {c : Cell} {uid : Int32}
    (h : readUid column c = .ok (some uid)) : c = .integer uid.toInt := by
  obtain ⟨found, hread, hfound⟩ := bind_eq_ok.mp h
  cases found with
  | none => cases hfound
  | some n =>
      simp only at hfound
      split at hfound
      · rename_i hn
        cases hfound
        rw [readOptional_eq_ok_some hread, Int32.toInt_ofInt_of_le hn.1 hn.2]
      · cases hfound

/-- Of a row that reads as a key, either all columns of the assignment are empty or none is. -/
theorem readAssignment_eq_ok {row : KeyRow} {found : Option Assignment}
    (h : row.readAssignment = .ok found) :
    (found = none ∧ row.IsUnbound) ∨
      ∃ a millis, found = some a ∧ readUid .client row.client = .ok (some a.client) ∧
        readUid .irpc row.irpc = .ok (some a.irpc) ∧
        readOptional .assignedAt row.assignedAt = .ok (some millis) ∧
        readTime .assignedAt millis = .ok a.assignedAt := by
  obtain ⟨client, hc, h⟩ := bind_eq_ok.mp h
  obtain ⟨irpc, hi, h⟩ := bind_eq_ok.mp h
  obtain ⟨assignedAt, ha, h⟩ := bind_eq_ok.mp h
  cases client <;> cases irpc <;> cases assignedAt <;> try (cases h)
  case none.none.none =>
    exact .inl ⟨rfl, readUid_eq_ok_none hc, readUid_eq_ok_none hi, readOptional_eq_ok_none ha⟩
  case some.some.some client irpc millis =>
    obtain ⟨t, ht, h⟩ := bind_eq_ok.mp h
    cases h
    exact .inr ⟨_, millis, rfl, hc, hi, ha, ht⟩

theorem readUid_toInt (column : KeyColumn) (uid : Int32) :
    readUid column (.integer uid.toInt) = .ok (some uid) := by
  have hroom : -2147483648 ≤ uid.toInt ∧ uid.toInt < 2147483648 :=
    ⟨uid.le_toInt, uid.toInt_lt⟩
  simp [readUid, readOptional, read, Cell.toInteger?, hroom, bind, Except.bind, pure, Except.pure,
    Except.map]

theorem readAssignment_unbound {row : KeyRow} (h : row.IsUnbound) : row.readAssignment = .ok none := by
  simp [readAssignment, readUid, readOptional, h.client, h.irpc, h.assignedAt, bind, Except.bind, pure,
    Except.pure]

theorem readAssignment_assign (row : KeyRow) (client irpc : Int32) (millis : Int) :
    (row.assign client irpc millis).readAssignment =
      (readTime .assignedAt millis).map fun t => some ⟨client, irpc, t⟩ := by
  simp only [readAssignment, assign, readUid_toInt, readOptional, read, Cell.toInteger?, bind,
    Except.bind, Except.map]
  cases readTime .assignedAt millis <;> rfl

theorem toKey_eq_ok {row : KeyRow} {key : AttestationKey} (h : row.toKey = .ok key) :
    row.readAssignment = .ok key.assignment ∧ key.id = some row.id ∧
      row.component = .text key.component ∧
      ∃ millis, row.expiration = .integer millis ∧
        Timestamp.ofMillis? millis = some key.expiration := by
  obtain ⟨assignment, ha, h⟩ := bind_eq_ok.mp h
  obtain ⟨keyBlob, hb, h⟩ := bind_eq_ok.mp h
  obtain ⟨component, hc, h⟩ := bind_eq_ok.mp h
  obtain ⟨publicKey, hp, h⟩ := bind_eq_ok.mp h
  obtain ⟨chain, hn, h⟩ := bind_eq_ok.mp h
  obtain ⟨millis, hm, h⟩ := bind_eq_ok.mp h
  obtain ⟨expiration, he, h⟩ := bind_eq_ok.mp h
  cases h
  refine ⟨ha, rfl, ?_, millis, ?_, ?_⟩
  · cases hcell : row.component <;> simp_all [read, Cell.toText?]
  · cases hcell : row.expiration <;> simp_all [read, Cell.toInteger?]
  · unfold readTime at he
    split at he <;> simp_all

theorem client_of_isFree {component : String} {row : KeyRow} (h : row.isFree component = true) :
    row.component = .text component ∧ row.client = .null := by
  simpa [isFree] using h

/-- Rows for keys in order, under the ids that follow `last`. -/
def numbered (last : Int) : List AttestationKey → List KeyRow
  | [] => []
  | key :: keys => ofKey (last + 1) key :: numbered (last + 1) keys

theorem length_numbered (last : Int) (keys : List AttestationKey) :
    (numbered last keys).length = keys.length := by
  induction keys generalizing last with
  | nil => rfl
  | cons key keys ih => simp [numbered, ih]

theorem numbered_bounds (last : Int) (keys : List AttestationKey) :
    ∀ row ∈ numbered last keys, last < row.id ∧ row.id ≤ last + keys.length := by
  induction keys generalizing last with
  | nil => simp [numbered]
  | cons key keys ih =>
      intro row hrow
      rw [List.length_cons]
      rcases List.mem_cons.mp hrow with rfl | hrow
      · rw [ofKey_id]
        omega
      · have := ih (last + 1) row hrow
        omega

theorem numbered_ascending (last : Int) (keys : List AttestationKey) :
    (numbered last keys).Pairwise fun a b => a.id < b.id := by
  induction keys generalizing last with
  | nil => exact .nil
  | cons key keys ih =>
      refine .cons ?_ (ih (last + 1))
      intro row hrow
      exact (numbered_bounds (last + 1) keys row hrow).1

theorem numbered_append (last : Int) (keys more : List AttestationKey) :
    numbered last (keys ++ more) =
      numbered last keys ++ numbered (last + keys.length) more := by
  induction keys generalizing last with
  | nil => simp [numbered]
  | cons key keys ih =>
      have hlast : last + 1 + (keys.length : Int) = last + (key :: keys).length := by
        rw [List.length_cons]
        omega
      simp only [List.cons_append, numbered, ih, hlast]

theorem map_keyBlob_numbered (last : Int) (keys : List AttestationKey) :
    (numbered last keys).map (·.keyBlob) = keys.map fun key => .blob key.keyBlob := by
  induction keys generalizing last with
  | nil => rfl
  | cons key keys ih =>
      rw [numbered, List.map_cons, List.map_cons, ih]
      rfl

theorem exists_key_of_mem_numbered {last : Int} {keys : List AttestationKey} {row : KeyRow}
    (h : row ∈ numbered last keys) : ∃ key ∈ keys, ∃ id, row = ofKey id key := by
  induction keys generalizing last with
  | nil => cases h
  | cons key keys ih =>
      rcases List.mem_cons.mp h with rfl | h
      · exact ⟨key, List.mem_cons_self, _, rfl⟩
      · obtain ⟨k, hk, hrow⟩ := ih h
        exact ⟨k, List.mem_cons_of_mem key hk, hrow⟩

end KeyRow

/-! ## Ids -/

namespace Database

/-- The greatest id that is there or was given. -/
def lastUsed (db : Database) : Int := (db.rows.map (·.id)).foldl max db.lastId

theorem foldl_max_le_iff (ids : List Int) (start bound : Int) :
    ids.foldl max start ≤ bound ↔ start ≤ bound ∧ ∀ id ∈ ids, id ≤ bound := by
  induction ids generalizing start with
  | nil => simp
  | cons id ids ih =>
      rw [List.foldl_cons, ih, List.forall_mem_cons, max_le_iff, and_assoc]

theorem lastUsed_le_iff (db : Database) (bound : Int) :
    db.lastUsed ≤ bound ↔ db.lastId ≤ bound ∧ ∀ row ∈ db.rows, row.id ≤ bound := by
  rw [lastUsed, foldl_max_le_iff, List.forall_mem_map]

theorem lastId_le_lastUsed (db : Database) : db.lastId ≤ db.lastUsed :=
  ((db.lastUsed_le_iff _).mp le_rfl).1

theorem id_le_lastUsed (db : Database) {row : KeyRow} (h : row ∈ db.rows) :
    row.id ≤ db.lastUsed :=
  ((db.lastUsed_le_iff _).mp le_rfl).2 row h

theorem nextId?_eq_some {db : Database} {id : Int} : db.nextId? = some id ↔
    db.lastUsed < 9223372036854775807 ∧ id = db.lastUsed + 1 := by
  change (if db.lastUsed < 9223372036854775807 then some (db.lastUsed + 1) else none) = some id ↔ _
  split <;> simp_all [eq_comm]

def append (db : Database) (keys : List AttestationKey) : Database :=
  { db with
    rows := db.rows ++ KeyRow.numbered db.lastUsed keys
    lastId := db.lastUsed + keys.length }

theorem lastUsed_append (db : Database) (keys : List AttestationKey) :
    (db.append keys).lastUsed = db.lastUsed + keys.length := by
  apply le_antisymm
  · refine (lastUsed_le_iff _ _).mpr ⟨le_rfl, ?_⟩
    intro row hrow
    rcases List.mem_append.mp hrow with hrow | hrow
    · have := db.id_le_lastUsed hrow
      omega
    · exact (KeyRow.numbered_bounds _ keys row hrow).2
  · exact lastId_le_lastUsed (db.append keys)

theorem append_append (db : Database) (keys more : List AttestationKey) :
    (db.append keys).append more = db.append (keys ++ more) := by
  rw [append, lastUsed_append]
  simp [append, KeyRow.numbered_append, add_assoc]

/-- Whether keys can go in together: there are ids for all of them, and no blob is stored already or
twice among them. -/
structure Accepts (db : Database) (keys : List AttestationKey) : Prop where
  ids : db.lastUsed + keys.length ≤ 9223372036854775807
  fresh : ∀ key ∈ keys, ∀ row ∈ db.rows, row.keyBlob ≠ .blob key.keyBlob
  distinct : (keys.map (·.keyBlob)).Nodup

/-- Keys can go in together if they can one after another. -/
theorem accepts_cons {db : Database} {key : AttestationKey} {keys : List AttestationKey} :
    db.Accepts (key :: keys) ↔ db.Accepts [key] ∧ (db.append [key]).Accepts keys := by
  have hids : (db.append [key]).lastUsed = db.lastUsed + 1 := db.lastUsed_append [key]
  have hrows : (db.append [key]).rows = db.rows ++ [KeyRow.ofKey (db.lastUsed + 1) key] := rfl
  constructor
  · rintro ⟨hroom, hfresh, hdistinct⟩
    rw [List.length_cons] at hroom
    rw [List.forall_mem_cons] at hfresh
    rw [List.map_cons, List.nodup_cons] at hdistinct
    refine ⟨⟨?_, by simpa using hfresh.1, by simp⟩, ⟨by rw [hids]; omega, ?_, hdistinct.2⟩⟩
    · rw [List.length_singleton]
      omega
    · intro other hother row hrow hblob
      rw [hrows, List.mem_append, List.mem_singleton] at hrow
      rcases hrow with hold | rfl
      · exact hfresh.2 other hother row hold hblob
      · exact hdistinct.1 (List.mem_map.mpr ⟨other, hother, (Cell.blob.inj hblob).symm⟩)
  · rintro ⟨hkey, hroom, hfresh, hdistinct⟩
    rw [hids] at hroom
    rw [hrows] at hfresh
    refine ⟨?_, ?_, ?_⟩
    · rw [List.length_cons]
      omega
    · refine List.forall_mem_cons.mpr ⟨hkey.fresh key (List.mem_singleton_self key), ?_⟩
      intro other hother row hrow
      exact hfresh other hother row (List.mem_append_left _ hrow)
    · rw [List.map_cons, List.nodup_cons]
      refine ⟨?_, hdistinct⟩
      intro hmem
      obtain ⟨other, hother, hsame⟩ := List.mem_map.mp hmem
      refine hfresh other hother _ (List.mem_append_right _ (List.mem_singleton_self _)) ?_
      exact congrArg Cell.blob hsame.symm

theorem insert_eq_ok {db db' : Database} {key : AttestationKey} :
    db.insert key = .ok db' ↔ db.Accepts [key] ∧ db' = db.append [key] := by
  have haccepts : db.Accepts [key] ↔ db.lastUsed < 9223372036854775807 ∧
      ¬ (db.rows.any (·.keyBlob = .blob key.keyBlob)) = true := by
    constructor
    · rintro ⟨hroom, hfresh, -⟩
      rw [List.length_singleton] at hroom
      exact ⟨by omega, by simpa using hfresh⟩
    · rintro ⟨hroom, hfresh⟩
      exact ⟨by rw [List.length_singleton]; omega, by simpa using hfresh, by simp⟩
  rw [haccepts]
  unfold insert
  cases hid : db.nextId? with
  | none =>
      have hfull : ¬ db.lastUsed < 9223372036854775807 := by
        intro hroom
        cases hid.symm.trans (nextId?_eq_some.mpr ⟨hroom, rfl⟩)
      simp [hfull]
  | some id =>
      obtain ⟨hroom, rfl⟩ := nextId?_eq_some.mp hid
      by_cases hany : db.rows.any (·.keyBlob = .blob key.keyBlob) = true
      · simp [hany]
      · simp only [hany, Bool.false_eq_true, ite_false, hroom, not_false_eq_true, true_and,
          Except.ok.injEq, eq_comm]
        rfl

/-- A batch that is not empty goes in as a whole, under the ids that follow. -/
theorem insertAll_eq_ok {db db' : Database} {keys : List AttestationKey} (hne : keys ≠ []) :
    db.insertAll keys = .ok db' ↔ db.Accepts keys ∧ db' = db.append keys := by
  induction keys generalizing db with
  | nil => exact absurd rfl hne
  | cons key keys ih =>
      have hstep : db.insertAll (key :: keys) = .ok db' ↔
          db.Accepts [key] ∧ (db.append [key]).insertAll keys = .ok db' := by
        refine bind_eq_ok.trans ?_
        simp only [insert_eq_ok, and_assoc, exists_and_left, exists_eq_left]
        rfl
      by_cases hkeys : keys = []
      · subst hkeys
        rw [hstep]
        exact and_congr_right fun _ =>
          ⟨fun h => (Except.ok.inj h).symm, fun h => congrArg Except.ok h.symm⟩
      · have hcons : db.Accepts (key :: keys) ↔ db.Accepts [key] ∧ (db.append [key]).Accepts keys :=
          accepts_cons
        rw [hstep, ih hkeys, append_append, hcons, and_assoc]
        rfl

end Database

/-! ## Batches -/

namespace Store

/-- The store with rows for more keys. No keys leave it as it is. -/
def add (s : Store) (keys : List AttestationKey) : Store :=
  if keys = [] then s else { s with db := s.db.append keys }

@[simp] theorem add_nil (s : Store) : s.add [] = s := rfl

theorem add_of_ne_nil (s : Store) {keys : List AttestationKey} (h : keys ≠ []) :
    s.add keys = { s with db := s.db.append keys } := by
  rw [add, if_neg h]

@[simp] theorem add_poisoned (s : Store) (keys : List AttestationKey) :
    (s.add keys).poisoned = s.poisoned := by
  unfold add
  split <;> rfl

@[simp] theorem add_window (s : Store) (keys : List AttestationKey) :
    (s.add keys).db.window = s.db.window := by
  unfold add
  split <;> rfl

theorem add_rows (s : Store) (keys : List AttestationKey) :
    (s.add keys).db.rows = s.db.rows ++ KeyRow.numbered s.db.lastUsed keys := by
  by_cases hkeys : keys = []
  · subst hkeys
    rw [add_nil, KeyRow.numbered, List.append_nil]
  · rw [add_of_ne_nil s hkeys]
    rfl

theorem add_add (s : Store) (keys more : List AttestationKey) :
    (s.add keys).add more = s.add (keys ++ more) := by
  by_cases hkeys : keys = []
  · subst hkeys
    rw [add_nil, List.nil_append]
  · by_cases hmore : more = []
    · subst hmore
      rw [add_nil, List.append_nil]
    · rw [s.add_of_ne_nil hkeys, add_of_ne_nil _ hmore, Database.append_append,
        s.add_of_ne_nil (List.append_ne_nil_of_left_ne_nil hkeys more)]

/-- The ways in which an insertion can go. Only in the last does it change the store. -/
inductive Inserting (s : Store) (batch : List AttestationKey) : Outcome Unit → Prop where
  | nothing (hnil : batch = []) : Inserting s batch (s.answer ())
  | invalid (e : StoreError) (hv : firstInvalid? batch = some e) : Inserting s batch (s.refuse e)
  | poisoned (hv : firstInvalid? batch = none) (hp : s.poisoned = true) :
      Inserting s batch (s.refuse .lockPoisoned)
  | rejected (e : StoreError) (hv : firstInvalid? batch = none) (hp : s.poisoned = false)
      (hi : s.db.insertAll batch = .error e) : Inserting s batch (s.refuse e)
  | inserted (hne : batch ≠ []) (hv : firstInvalid? batch = none) (hp : s.poisoned = false)
      (hi : s.db.insertAll batch = .ok (s.db.append batch)) :
      Inserting s batch ⟨.ok (), s.add batch, [.keysInserted batch.length]⟩

theorem insert_inserting (s : Store) (batch : List AttestationKey) :
    s.Inserting batch (s.insert batch) := by
  unfold insert
  split
  · rename_i hnil
    exact .nothing hnil
  · rename_i hne
    split
    · rename_i e hv
      exact .invalid e hv
    · rename_i hv
      split
      · rename_i hp
        exact .poisoned hv hp
      · rename_i hp
        rw [Bool.not_eq_true] at hp
        split
        · rename_i e hi
          exact .rejected e hv hp hi
        · rename_i db hi
          obtain ⟨-, rfl⟩ := (Database.insertAll_eq_ok hne).mp hi
          rw [← s.add_of_ne_nil hne]
          exact .inserted hne hv hp hi

theorem insert_eq_ok {s : Store} {batch : List AttestationKey}
    (h : (s.insert batch).result = .ok ()) : (s.insert batch).store = s.add batch := by
  have hi := s.insert_inserting batch
  generalize s.insert batch = outcome at h hi ⊢
  cases hi with
  | nothing hnil =>
      subst hnil
      rfl
  | inserted => rfl
  | _ => cases h

theorem insert_refused {s : Store} {batch : List AttestationKey} {e : StoreError}
    (h : (s.insert batch).result = .error e) : (s.insert batch).store = s := by
  have hi := s.insert_inserting batch
  generalize s.insert batch = outcome at h hi ⊢
  cases hi with
  | inserted => cases h
  | _ => rfl

theorem firstInvalid?_eq_none {batch : List AttestationKey} : firstInvalid? batch = none ↔
    ∀ key ∈ batch, ∃ chain, CertificateChain.ofBytes key.chain = .ok chain := by
  refine List.findSome?_eq_none_iff.trans (forall₂_congr ?_)
  intro key hkey
  cases CertificateChain.ofBytes key.chain <;> simp

end Store

/-! ## Accepted chains -/

namespace CertificateChain

theorem issuedAt_of_ofBytes {encoded : Bytes} {chain : CertificateChain}
    (h : ofBytes encoded = .ok chain) : Certificate.issuedAt encoded = .ok chain.leaf.notBefore :=
  Certificate.issuedAt_of_readChain (ofBytes_eq_ok.mp h)

end CertificateChain

/-- The encoding of one certificate that names and signs itself, valid from 2024 through 2033. -/
def Bytes.selfSigned : Bytes :=
  [0x30, 0x81, 0xa6, 0x30, 0x5a, 0x02, 0x01, 0x01, 0x30, 0x05, 0x06, 0x03, 0x2b, 0x65, 0x70,
   0x30, 0x00, 0x30, 0x1e, 0x17, 0x0d, 0x32, 0x34, 0x30, 0x31, 0x30, 0x31, 0x30, 0x30, 0x30,
   0x30, 0x30, 0x30, 0x5a, 0x17, 0x0d, 0x33, 0x34, 0x30, 0x31, 0x30, 0x31, 0x30, 0x30, 0x30,
   0x30, 0x30, 0x30, 0x5a, 0x30, 0x00, 0x30, 0x2a, 0x30, 0x05, 0x06, 0x03, 0x2b, 0x65, 0x70,
   0x03, 0x21, 0x00, 0x42, 0x8c, 0xb8, 0xb0, 0xf0, 0x11, 0xa3, 0x97, 0x52, 0x7a, 0x9c, 0x7a,
   0x65, 0x3f, 0x2d, 0xc1, 0x65, 0xd5, 0xda, 0x9c, 0x46, 0xe5, 0xe5, 0x86, 0x58, 0xbb, 0x18,
   0x74, 0xa4, 0x90, 0x57, 0xe0, 0x30, 0x05, 0x06, 0x03, 0x2b, 0x65, 0x70, 0x03, 0x41, 0x00,
   0x1d, 0xa9, 0xaa, 0x98, 0x7d, 0xc2, 0x54, 0x09, 0xe2, 0x15, 0x00, 0xe3, 0x00, 0x24, 0x7b,
   0x00, 0x64, 0xa3, 0x33, 0x37, 0x2e, 0x96, 0x8a, 0xa6, 0x9d, 0xad, 0x6f, 0x3b, 0xc8, 0x84,
   0xc5, 0x97, 0xdc, 0xc2, 0x70, 0x99, 0x13, 0x9d, 0xa2, 0xa7, 0x94, 0xea, 0xb3, 0xfd, 0xe1,
   0x85, 0xb3, 0x61, 0x5c, 0xa7, 0xd3, 0xbe, 0x1e, 0xf5, 0x8a, 0xd5, 0x88, 0x43, 0xa0, 0x41,
   0x09, 0xac, 0x3e, 0x0d]

/-- The like of another key, valid from 2025. -/
def Bytes.selfSignedLater : Bytes :=
  [0x30, 0x81, 0xa6, 0x30, 0x5a, 0x02, 0x01, 0x01, 0x30, 0x05, 0x06, 0x03, 0x2b, 0x65, 0x70,
   0x30, 0x00, 0x30, 0x1e, 0x17, 0x0d, 0x32, 0x35, 0x30, 0x31, 0x30, 0x31, 0x30, 0x30, 0x30,
   0x30, 0x30, 0x30, 0x5a, 0x17, 0x0d, 0x33, 0x34, 0x30, 0x31, 0x30, 0x31, 0x30, 0x30, 0x30,
   0x30, 0x30, 0x30, 0x5a, 0x30, 0x00, 0x30, 0x2a, 0x30, 0x05, 0x06, 0x03, 0x2b, 0x65, 0x70,
   0x03, 0x21, 0x00, 0xfd, 0x17, 0x24, 0x38, 0x5a, 0xa0, 0xc7, 0x5b, 0x64, 0xfb, 0x78, 0xcd,
   0x60, 0x2f, 0xa1, 0xd9, 0x91, 0xfd, 0xeb, 0xf7, 0x6b, 0x13, 0xc5, 0x8e, 0xd7, 0x02, 0xea,
   0xc8, 0x35, 0xe9, 0xf6, 0x18, 0x30, 0x05, 0x06, 0x03, 0x2b, 0x65, 0x70, 0x03, 0x41, 0x00,
   0xec, 0x56, 0x55, 0x88, 0xb7, 0xf3, 0x64, 0x03, 0x49, 0x26, 0xcb, 0xbc, 0x5b, 0x42, 0x52,
   0x89, 0x57, 0xaf, 0xc9, 0x33, 0xf5, 0x92, 0x34, 0xfd, 0xd5, 0x47, 0x07, 0x23, 0x8f, 0xec,
   0xea, 0x46, 0x75, 0x6e, 0x92, 0xa1, 0xe0, 0x3a, 0x7f, 0x7c, 0x20, 0x07, 0x37, 0xc6, 0xb6,
   0xae, 0xa5, 0xb1, 0xf2, 0xb5, 0xd4, 0x85, 0xa9, 0x3f, 0x30, 0x1d, 0xf4, 0xd5, 0x5e, 0xa0,
   0x84, 0xe9, 0xf5, 0x07]

namespace CertificateChain

/-- The key that the certificate is for and the instants at which it begins and ends. -/
theorem ofBytes_selfSigned :
    ∃ chain, ofBytes Bytes.selfSigned = .ok chain ∧
      chain.leaf.publicKey = (Bytes.selfSigned.drop 63).take 32 ∧
      chain.leaf.notBefore = ⟨1704067200000000000, 0, by decide, by decide⟩ ∧
      chain.leaf.notAfter = ⟨2019686400000000000, 0, by decide, by decide⟩ := by
  have h : (ofBytes Bytes.selfSigned).toOption.map
      (fun chain => (chain.leaf.publicKey, chain.leaf.notBefore, chain.leaf.notAfter)) =
        some ((Bytes.selfSigned.drop 63).take 32,
          ⟨1704067200000000000, 0, by decide, by decide⟩,
          ⟨2019686400000000000, 0, by decide, by decide⟩) := by
    decide +kernel
  obtain ⟨chain, hchain, hfound⟩ := toOption_map_eq_some.mp h
  simp only [Prod.mk.injEq] at hfound
  exact ⟨chain, hchain, hfound⟩

theorem ofBytes_selfSignedLater :
    ∃ chain, ofBytes Bytes.selfSignedLater = .ok chain ∧
      chain.leaf.publicKey = (Bytes.selfSignedLater.drop 63).take 32 ∧
      chain.leaf.notBefore = ⟨1735689600000000000, 0, by decide, by decide⟩ := by
  have h : (ofBytes Bytes.selfSignedLater).toOption.map
      (fun chain => (chain.leaf.publicKey, chain.leaf.notBefore)) =
        some ((Bytes.selfSignedLater.drop 63).take 32,
          ⟨1735689600000000000, 0, by decide, by decide⟩) := by
    decide +kernel
  obtain ⟨chain, hchain, hfound⟩ := toOption_map_eq_some.mp h
  simp only [Prod.mk.injEq] at hfound
  exact ⟨chain, hchain, hfound⟩

end CertificateChain

end KeyPool
