import KeyPool.Proofs.Provisioning.Filling

/-! Which answers certify a batch. The chains of an answer are matched with the keys of its request
position by position: each validates and certifies the key at its place, and there are no more and no
fewer of them. So an answer for distinct keys is spoiled by any change of its order or length. -/

namespace KeyPool

/-! ## Chains for keys -/

def FreshKey.IsCertifiedBy (key : FreshKey) (encoded : Bytes) : Prop :=
  ∃ chain, CertificateChain.ofBytes encoded = .ok chain ∧ chain.leaf.publicKey = key.publicKey

namespace FreshKey

variable {key : FreshKey} {encoded : Bytes}

theorem isCertifiedBy_iff (component : String) :
    key.IsCertifiedBy encoded ↔ ∃ record, key.Certified component encoded record := by
  constructor
  · rintro ⟨chain, hchain, hkey⟩
    exact ⟨_, chain, hchain, hkey, rfl⟩
  · rintro ⟨_, chain, hchain, hkey, -⟩
    exact ⟨chain, hchain, hkey⟩

/-- A chain is for one public key at most. -/
theorem IsCertifiedBy.publicKey_eq {other : FreshKey} (h : key.IsCertifiedBy encoded)
    (h' : other.IsCertifiedBy encoded) : key.publicKey = other.publicKey := by
  obtain ⟨chain, hchain, hkey⟩ := h
  obtain ⟨_, hsame, hother⟩ := h'
  cases hchain.symm.trans hsame
  rw [← hkey, hother]

end FreshKey

/-- What is told of a chain that is not one for a key: of its validity before its leaf. -/
inductive ChainFault (position : Nat) (key : FreshKey) (encoded : Bytes) : ResponseFault → Prop where
  | chain (e : ChainError) (he : CertificateChain.ofBytes encoded = .error e) :
      ChainFault position key encoded (.chain position e)
  | publicKey (chain : CertificateChain) (hchain : CertificateChain.ofBytes encoded = .ok chain)
      (hkey : chain.leaf.publicKey ≠ key.publicKey) :
      ChainFault position key encoded (.publicKey position)

theorem ChainFault.not_certified {position : Nat} {key : FreshKey} {encoded : Bytes}
    {fault : ResponseFault} (h : ChainFault position key encoded fault) :
    ¬ key.IsCertifiedBy encoded := by
  rintro ⟨chain, hchain, hkey⟩
  cases h with
  | chain e he => cases hchain.symm.trans he
  | publicKey other hother hne =>
      cases hchain.symm.trans hother
      exact hne hkey

/-! ## Answers -/

namespace ResponseFault

variable {component : String} {position : Nat} {key : FreshKey} {encoded : Bytes}
  {keys : List FreshKey} {chains : List Bytes} {fault : ResponseFault}

theorem certify_eq_error :
    certify component position key encoded = .error fault ↔ ChainFault position key encoded fault := by
  unfold certify
  constructor
  · intro h
    cases hchain : CertificateChain.ofBytes encoded with
    | error e =>
        rw [hchain] at h
        cases h
        exact .chain e hchain
    | ok chain =>
        rw [hchain] at h
        by_cases hkey : chain.leaf.publicKey = key.publicKey
        · simp [hkey] at h
        · simp only [hkey, ite_false] at h
          cases h
          exact .publicKey chain hchain hkey
  · intro h
    cases h with
    | chain e he => rw [he]
    | publicKey chain hchain hkey =>
        rw [hchain]
        exact if_neg hkey

theorem certifyFrom_eq_error {pairs : List (FreshKey × Bytes)}
    (h : certifyFrom component position pairs = .error fault) :
    ∃ i, ∃ hi : i < pairs.length, (∀ j (hj : j < i), pairs[j].1.IsCertifiedBy pairs[j].2) ∧
      ChainFault (position + i) pairs[i].1 pairs[i].2 fault := by
  induction pairs generalizing position with
  | nil => cases h
  | cons pair rest ih =>
      obtain ⟨key, encoded⟩ := pair
      rw [certifyFrom] at h
      cases hcertify : certify component position key encoded with
      | error e =>
          rw [hcertify] at h
          cases h
          exact ⟨0, by simp, by simp, certify_eq_error.mp hcertify⟩
      | ok record =>
          rw [hcertify] at h
          obtain ⟨i, hi, hbefore, hfault⟩ := ih (map_eq_error.mp h)
          refine ⟨i + 1, by simpa using hi, ?_, ?_⟩
          · intro j hj
            cases j with
            | zero => exact (key.isCertifiedBy_iff component).mpr ⟨record, certify_eq_ok.mp hcertify⟩
            | succ j => exact hbefore j (by omega)
          · rw [Nat.add_right_comm] at hfault
            exact hfault

/-- A batch is certified exactly by chains that are each one for the key at its place. -/
theorem certifyAll_iff : (∃ records, certifyAll component keys chains = .ok records) ↔
    List.Forall₂ FreshKey.IsCertifiedBy keys chains := by
  have hall : (∃ records, List.Forall₂
      (fun (pair : FreshKey × Bytes) record => pair.1.Certified component pair.2 record)
        (keys.zip chains) records) ↔ ∀ pair ∈ keys.zip chains, pair.1.IsCertifiedBy pair.2 := by
    generalize keys.zip chains = pairs
    induction pairs with
    | nil => simp
    | cons pair rest ih =>
        rw [List.forall_mem_cons, pair.1.isCertifiedBy_iff component, ← ih]
        constructor
        · rintro ⟨_, h⟩
          cases h with
          | cons hfirst hrest => exact ⟨⟨_, hfirst⟩, _, hrest⟩
        · rintro ⟨⟨_, hfirst⟩, _, hrest⟩
          exact ⟨_, .cons hfirst hrest⟩
  rw [List.forall₂_iff_zip]
  simp only [certifyAll_eq_ok, exists_and_left, hall]
  exact ⟨fun h => ⟨h.1.symm, fun hpair => h.2 _ hpair⟩, fun h => ⟨h.1.symm, fun _ hpair => h.2 hpair⟩⟩

theorem certifyAll_miscounted (h : chains.length ≠ keys.length) :
    certifyAll component keys chains = .error (.count keys.length chains.length) :=
  if_pos h

/-- Where the number is right, the least position is told at which a chain is not one for its key. -/
theorem certifyAll_mismatched (hlength : chains.length = keys.length)
    (h : certifyAll component keys chains = .error fault) :
    ∃ i, ∃ (hk : i < keys.length) (hc : i < chains.length),
      IsLeast {j | ∃ (hk : j < keys.length) (hc : j < chains.length),
        ¬ keys[j].IsCertifiedBy chains[j]} i ∧ ChainFault i keys[i] chains[i] fault := by
  rw [certifyAll, if_neg (not_not.mpr hlength)] at h
  obtain ⟨i, hi, hbefore, hfault⟩ := certifyFrom_eq_error h
  rw [Nat.zero_add] at hfault
  have hzip (j : Nat) (hj : j < (keys.zip chains).length) :
      ∃ (hk : j < keys.length) (hc : j < chains.length),
        (keys.zip chains)[j] = (keys[j], chains[j]) := by
    rw [List.length_zip] at hj
    exact ⟨by omega, by omega, List.getElem_zip⟩
  obtain ⟨hk, hc, hpair⟩ := hzip i hi
  rw [hpair] at hfault
  refine ⟨i, hk, hc, ⟨⟨hk, hc, hfault.not_certified⟩, ?_⟩, hfault⟩
  rintro j ⟨_, _, hnot⟩
  by_contra hlt
  obtain ⟨_, _, hsame⟩ := hzip j (by omega)
  have hcertified := hbefore j (by omega)
  rw [hsame] at hcertified
  exact hnot hcertified

end ResponseFault

/-! ## Answers in another order -/

section

variable {keys : List FreshKey} {chains shuffled : List Bytes}

theorem nodup_of_certified (hkeys : (keys.map (·.publicKey)).Nodup)
    (h : List.Forall₂ FreshKey.IsCertifiedBy keys chains) : chains.Nodup := by
  induction h with
  | nil => exact .nil
  | cons hfirst hrest ih =>
      rename_i key encoded keys chains
      rw [List.map_cons, List.nodup_cons] at hkeys
      refine List.nodup_cons.mpr ⟨?_, ih hkeys.2⟩
      intro hmem
      obtain ⟨other, hother, hsame⟩ := exists_of_mem_forall₂ hrest hmem
      exact hkeys.1 (List.mem_map.mpr ⟨other, hother, hsame.publicKey_eq hfirst⟩)

/-- Chains that certify distinct keys do so in one order alone. -/
theorem eq_of_certified_of_perm (hkeys : (keys.map (·.publicKey)).Nodup)
    (h : List.Forall₂ FreshKey.IsCertifiedBy keys chains)
    (hperm : shuffled.Perm chains) (hshuffled : List.Forall₂ FreshKey.IsCertifiedBy keys shuffled) :
    shuffled = chains := by
  induction h generalizing shuffled with
  | nil => exact hperm.eq_nil
  | cons hfirst hrest ih =>
      rename_i key encoded keys chains
      rw [List.map_cons, List.nodup_cons] at hkeys
      cases hshuffled with
      | cons hother hothers =>
          rename_i other others
          -- a chain from further back would certify two keys
          have hsame : other = encoded := by
            rcases List.mem_cons.mp (hperm.subset List.mem_cons_self) with hsame | hmem
            · exact hsame
            · obtain ⟨later, hlater, hcertified⟩ := exists_of_mem_forall₂ hrest hmem
              exact absurd (List.mem_map.mpr ⟨later, hlater, hcertified.publicKey_eq hother⟩) hkeys.1
          subst hsame
          rw [ih hkeys.2 hperm.cons_inv hothers]

end

/-! ## Batches -/

variable {σ : Type}

/-- What comes of the chains that a server answers a request for keys with. They are taken if there are
as many as keys, and each is one for the key at its place. A wrong number of them is told whatever they
are, and otherwise the least position at which a chain is not one for the key. Chains that were taken
for distinct keys are not taken in any other order, nor any chains in part or with others behind them. -/
structure MatchingSpec (component : String) (keys : List FreshKey) : Prop where
  accepted_iff : ∀ chains, (∃ records, ResponseFault.certifyAll component keys chains = .ok records) ↔
    chains.length = keys.length ∧
      ∀ i (hk : i < keys.length) (hc : i < chains.length), keys[i].IsCertifiedBy chains[i]
  recorded : ∀ chains records, ResponseFault.certifyAll component keys chains = .ok records →
    records.length = keys.length ∧
      ∀ i (hk : i < keys.length) (hc : i < chains.length) (hr : i < records.length),
        keys[i].Certified component chains[i] records[i]
  miscounted : ∀ chains, chains.length ≠ keys.length →
    ResponseFault.certifyAll component keys chains = .error (.count keys.length chains.length)
  mismatched : ∀ chains fault, chains.length = keys.length →
    ResponseFault.certifyAll component keys chains = .error fault →
      ∃ i, ∃ (hk : i < keys.length) (hc : i < chains.length),
        IsLeast {j | ∃ (hk : j < keys.length) (hc : j < chains.length),
          ¬ keys[j].IsCertifiedBy chains[j]} i ∧ ChainFault i keys[i] chains[i] fault
  reordered : (keys.map (·.publicKey)).Nodup →
    ∀ chains records, ResponseFault.certifyAll component keys chains = .ok records →
      chains.Nodup ∧ ∀ shuffled : List Bytes, shuffled.Perm chains → shuffled ≠ chains →
        ∃ fault, ResponseFault.certifyAll component keys shuffled = .error fault
  resized : ∀ chains records, ResponseFault.certifyAll component keys chains = .ok records →
    (∀ n, n < chains.length →
      ResponseFault.certifyAll component keys (chains.take n) = .error (.count keys.length n)) ∧
      ∀ more, more ≠ [] → ResponseFault.certifyAll component keys (chains ++ more) =
        .error (.count keys.length (chains.length + more.length))

theorem ResponseFault.certifyAll_matching (component : String) (keys : List FreshKey) :
    MatchingSpec component keys := by
  have hlength {chains : List Bytes} {records : List AttestationKey}
      (h : certifyAll component keys chains = .ok records) : chains.length = keys.length :=
    (certifyAll_eq_ok.mp h).1
  refine ⟨?_, ?_, fun _ => certifyAll_miscounted, fun _ _ => certifyAll_mismatched, ?_, ?_⟩
  · intro chains
    rw [certifyAll_iff, List.forall₂_iff_get, eq_comm]
    rfl
  · intro chains records h
    obtain ⟨hcount, hall⟩ := certifyAll_eq_ok.mp h
    obtain ⟨hsame, heach⟩ := List.forall₂_iff_get.mp hall
    rw [List.length_zip, hcount, min_self] at hsame
    refine ⟨hsame.symm, ?_⟩
    intro i hk hc hr
    have hcertified := heach i (by rw [List.length_zip]; omega) hr
    simpa using hcertified
  · intro hdistinct chains records h
    have hcertified := certifyAll_iff.mp ⟨records, h⟩
    refine ⟨nodup_of_certified hdistinct hcertified, ?_⟩
    intro shuffled hperm hne
    cases hanswer : certifyAll component keys shuffled with
    | error fault => exact ⟨fault, rfl⟩
    | ok found =>
        have hshuffled := certifyAll_iff.mp ⟨found, hanswer⟩
        exact absurd (eq_of_certified_of_perm hdistinct hcertified hperm hshuffled) hne
  · intro chains records h
    refine ⟨?_, ?_⟩
    · intro n hn
      have htake : (chains.take n).length = n := List.length_take_of_le hn.le
      rw [certifyAll_miscounted (by rw [htake, ← hlength h]; omega), htake]
    · intro more hmore
      have hpositive := List.length_pos_of_ne_nil hmore
      rw [certifyAll_miscounted (by rw [List.length_append, ← hlength h]; omega),
        List.length_append]

namespace Provision

variable {component : Component σ} {server : Server σ} {geek : Geek} {p : Progress σ}
  {keys : List FreshKey} {made signed last : σ}

/-- Keys that a component makes are made by an attempt, which counts them. -/
theorem generateKeys_of_makes {w : σ} (h : component.Makes w keys made) (hw : p.outside = w) :
    ∃ attempt, generateKeys component keys.length p =
      (.ok keys, { p with outside := made, attempt }) := by
  induction h generalizing p with
  | none w =>
      subst hw
      exact ⟨p.attempt, rfl⟩
  | next hkey hkeys ih =>
      subst hw
      obtain ⟨attempt, hrest⟩ := @ih { p with
        outside := _, attempt := p.attempt.countGenerated } rfl
      refine ⟨attempt, ?_⟩
      refine Call.bind_eq.mpr (.inr ⟨_, _, call_eq.mpr ⟨_, hkey, rfl⟩, ?_⟩)
      rw [tally_bind]
      exact Call.bind_pure_eq.mpr ⟨_, hrest, rfl⟩

theorem requestBatch_answered {csr : Bytes} {chains : List Bytes}
    (hroom : Batch.isHoldable keys.length = true) (hkeys : component.Makes p.outside keys made)
    (hcsr : component.signRequest geek keys made = (.ok csr, signed))
    (hchains : server.certify csr geek.challenge signed = (.ok chains, last)) :
    ∃ attempt, requestBatch component server geek keys.length p =
      ((ResponseFault.certifyAll component.name keys chains).mapError
        fun fault => .failed (.malformedResponse fault), { p with outside := last, attempt }) := by
  obtain ⟨attempt, hmade⟩ := generateKeys_of_makes hkeys rfl
  refine ⟨attempt, ?_⟩
  unfold requestBatch
  rw [hroom, needRoom_bind]
  refine Call.bind_eq.mpr (.inr ⟨_, _, hmade, ?_⟩)
  refine Call.bind_eq.mpr (.inr ⟨_, _, call_eq.mpr ⟨_, hcsr, rfl⟩, ?_⟩)
  refine Call.bind_eq.mpr (.inr ⟨_, _, call_eq.mpr ⟨_, hchains, rfl⟩, ?_⟩)
  cases ResponseFault.certifyAll component.name keys chains <;> rfl

end Provision

/-- A batch whose request is answered comes to records exactly if the chains match its keys position by
position; otherwise the first thing is told that is wrong with them. -/
theorem matching_spec {component : Component σ} {server : Server σ} {geek : Geek} {p : Progress σ}
    {keys : List FreshKey} {csr : Bytes} {chains : List Bytes} {made signed last : σ}
    (hroom : Batch.isHoldable keys.length = true) (hkeys : component.Makes p.outside keys made)
    (hcsr : component.signRequest geek keys made = (.ok csr, signed))
    (hchains : server.certify csr geek.challenge signed = (.ok chains, last)) :
    (∃ attempt, Provision.requestBatch component server geek keys.length p =
      ((ResponseFault.certifyAll component.name keys chains).mapError
        fun fault => .failed (.malformedResponse fault), { p with outside := last, attempt })) ∧
      MatchingSpec component.name keys :=
  ⟨Provision.requestBatch_answered hroom hkeys hcsr hchains,
    ResponseFault.certifyAll_matching component.name keys⟩

/-! ## Two keys -/

/-- A component with a supply of keys, which it gives one after the other. -/
def Component.supplied : Component (List FreshKey) where
  name := "hal"
  batchSize := pure 2
  newKey := do
    match ← get with
    | [] => throw (.failed (.keyGeneration ""))
    | key :: rest =>
        set rest
        return key
  signRequest _ _ := pure []

def Server.answeringWith (chains : List Bytes) : Server (List FreshKey) where
  greet := throw (.failed (.network ""))
  certify _ _ := pure chains

def FreshKey.earlier : FreshKey := ⟨[1], (Bytes.selfSigned.drop 63).take 32⟩

def FreshKey.later : FreshKey := ⟨[2], (Bytes.selfSignedLater.drop 63).take 32⟩

/-- A request for two keys, whose answer is some chains. -/
def Provision.pair (chains : List Bytes) :
    Except Stop (List AttestationKey) × Progress (List FreshKey) :=
  requestBatch .supplied (.answeringWith chains) ⟨[], [], none, none, none⟩ 2
    ⟨.empty, [.earlier, .later], .ofComponent .manual "hal", []⟩

/-- The chains of two keys are taken in the order of the keys, and refused the other way round. -/
theorem matching_spec_pair :
    (∃ first second, (Provision.pair [.selfSigned, .selfSignedLater]).1 = .ok [first, second] ∧
      FreshKey.earlier.Certified "hal" .selfSigned first ∧
      FreshKey.later.Certified "hal" .selfSignedLater second) ∧
    (Provision.pair [.selfSignedLater, .selfSigned]).1 =
      .error (.failed (.malformedResponse (.publicKey 0))) := by
  have hmatching (chains : List Bytes) := @matching_spec _ .supplied (.answeringWith chains)
    ⟨[], [], none, none, none⟩ ⟨.empty, [.earlier, .later], .ofComponent .manual "hal", []⟩
    [.earlier, .later] [] chains [] [] [] rfl (.next rfl (.next rfl (.none []))) rfl rfl
  have hpair (chains : List Bytes) : (Provision.pair chains).1 =
      (ResponseFault.certifyAll "hal" [.earlier, .later] chains).mapError
        fun fault => .failed (.malformedResponse fault) := by
    obtain ⟨⟨_, hbatch⟩, -⟩ := hmatching chains
    exact congrArg Prod.fst hbatch
  have hspec : MatchingSpec "hal" [.earlier, .later] := (hmatching []).2
  obtain ⟨chain, hchain, hkey, -⟩ := CertificateChain.ofBytes_selfSigned
  obtain ⟨other, hother, hlater, -⟩ := CertificateChain.ofBytes_selfSignedLater
  obtain ⟨records, hrecords⟩ : ∃ records, ResponseFault.certifyAll "hal" [.earlier, .later]
      [.selfSigned, .selfSignedLater] = .ok records :=
    ResponseFault.certifyAll_iff.mpr (.cons ⟨chain, hchain, hkey⟩ (.cons ⟨other, hother, hlater⟩ .nil))
  have hdistinct : FreshKey.earlier.publicKey ≠ FreshKey.later.publicKey := by decide
  refine ⟨?_, ?_⟩
  · obtain ⟨hlength, hcertified⟩ := hspec.recorded _ _ hrecords
    obtain ⟨first, second, rfl⟩ := List.length_eq_two.mp hlength
    refine ⟨first, second, by rw [hpair, hrecords]; rfl, ?_, ?_⟩
    · exact hcertified 0 (by simp) (by simp) (by simp)
    · exact hcertified 1 (by simp) (by simp) (by simp)
  · obtain ⟨fault, hfault⟩ := (hspec.reordered (by simpa using hdistinct) _ _ hrecords).2
      [.selfSignedLater, .selfSigned] (.swap ..) (by decide)
    obtain ⟨i, hk, hc, hleast, hwrong⟩ := hspec.mismatched _ fault rfl hfault
    have hfirst : ¬ FreshKey.earlier.IsCertifiedBy .selfSignedLater := fun h =>
      hdistinct (h.publicKey_eq ⟨other, hother, hlater⟩)
    obtain rfl : i = 0 := Nat.le_zero.mp (hleast.2 ⟨by simp, by simp, hfirst⟩)
    rw [hpair, hfault]
    cases hwrong with
    | chain e he => cases hother.symm.trans he
    | publicKey => rfl

end KeyPool
