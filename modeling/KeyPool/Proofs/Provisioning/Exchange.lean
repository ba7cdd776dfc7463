import KeyPool.Proofs.Store.Rows
import KeyPool.Provisioning.Provision

/-! What a certified batch says of the calls that were made for it: the keys of the component, its
request, and the chains that the server answered with. -/

namespace KeyPool

/-! ## Certified keys -/

/-- The record of a key that a chain certifies: the chain validates, its leaf is for the key, and
the record expires with the leaf. -/
def FreshKey.Certified (key : FreshKey) (component : String) (encoded : Bytes)
    (record : AttestationKey) : Prop :=
  ∃ chain, CertificateChain.ofBytes encoded = .ok chain ∧ chain.leaf.publicKey = key.publicKey ∧
    record = ⟨none, key.keyBlob, component, key.publicKey, encoded, chain.leaf.notAfter, none⟩

namespace ResponseFault

theorem certify_eq_ok {component : String} {position : Nat} {key : FreshKey} {encoded : Bytes}
    {record : AttestationKey} :
    certify component position key encoded = .ok record ↔
      key.Certified component encoded record := by
  unfold certify FreshKey.Certified
  cases CertificateChain.ofBytes encoded with
  | error e => simp
  | ok chain =>
      by_cases hkey : chain.leaf.publicKey = key.publicKey
      · simp [hkey, eq_comm]
      · simp [hkey]

theorem certifyFrom_eq_ok {component : String} {position : Nat} {pairs : List (FreshKey × Bytes)}
    {records : List AttestationKey} : certifyFrom component position pairs = .ok records ↔
      List.Forall₂ (fun pair record => pair.1.Certified component pair.2 record) pairs records := by
  induction pairs generalizing position records with
  | nil => simp [certifyFrom, eq_comm]
  | cons pair rest ih =>
      obtain ⟨key, encoded⟩ := pair
      rw [certifyFrom]
      cases hcertify : certify component position key encoded with
      | error e =>
          have hnot (record : AttestationKey) : ¬ key.Certified component encoded record := by
            intro h
            cases hcertify.symm.trans (certify_eq_ok.mpr h)
          simp [List.forall₂_cons_left_iff, hnot]
      | ok record =>
          have honly (other : AttestationKey) :
              key.Certified component encoded other ↔ other = record := by
            rw [← certify_eq_ok, hcertify, Except.ok.injEq, eq_comm]
          simp only [map_eq_ok, ih, List.forall₂_cons_left_iff, honly]
          constructor
          · rintro ⟨others, hothers, rfl⟩
            exact ⟨record, others, rfl, hothers, rfl⟩
          · rintro ⟨_, others, rfl, hothers, rfl⟩
            exact ⟨others, hothers, rfl⟩

theorem certifyAll_eq_ok {component : String} {keys : List FreshKey} {chains : List Bytes}
    {records : List AttestationKey} : certifyAll component keys chains = .ok records ↔
      chains.length = keys.length ∧
        List.Forall₂ (fun pair record => pair.1.Certified component pair.2 record)
          (keys.zip chains) records := by
  unfold certifyAll
  by_cases hlength : chains.length = keys.length
  · simp [hlength, certifyFrom_eq_ok]
  · simp [hlength]

end ResponseFault

/-! ## Exchanges -/

variable {σ : Type}

/-- Keys that a component makes one after another, and the world outside before and after. -/
inductive Component.Makes (component : Component σ) : σ → List FreshKey → σ → Prop
  | none (w : σ) : Makes component w [] w
  | next {w w' w'' : σ} {key : FreshKey} {keys : List FreshKey}
      (hkey : component.newKey w = (.ok key, w')) (hkeys : Makes component w' keys w'') :
      Makes component w (key :: keys) w''

/-- A batch that was requested for a component and answered with chains that certify all of it. -/
structure Exchange (component : String) where
  keys : List FreshKey
  csr : Bytes
  chains : List Bytes
  records : List AttestationKey
  certified : ResponseFault.certifyAll component keys chains = .ok records

namespace Exchange

/-- The calls of a batch: each key is made, they are put into one request, and the request is sent
with the challenge of the service. -/
def Between {component : Component σ} (server : Server σ) (geek : Geek) (w w' : σ)
    (x : Exchange component.name) : Prop :=
  ∃ made signed, component.Makes w x.keys made ∧
    component.signRequest geek x.keys made = (.ok x.csr, signed) ∧
    server.certify x.csr geek.challenge signed = (.ok x.chains, w')

variable {component : String} (x : Exchange component)

theorem length_records : x.records.length = x.keys.length := by
  obtain ⟨hlength, hall⟩ := ResponseFault.certifyAll_eq_ok.mp x.certified
  rw [← hall.length_eq, List.length_zip, hlength, min_self]

theorem exists_of_mem_records {record : AttestationKey} (h : record ∈ x.records) :
    ∃ key ∈ x.keys, ∃ encoded ∈ x.chains, key.Certified component encoded record := by
  obtain ⟨-, hall⟩ := ResponseFault.certifyAll_eq_ok.mp x.certified
  obtain ⟨⟨key, encoded⟩, hpair, hcertified⟩ := exists_of_mem_forall₂ hall h
  obtain ⟨hkey, hencoded⟩ := List.of_mem_zip hpair
  exact ⟨key, hkey, encoded, hencoded, hcertified⟩

end Exchange

end KeyPool
