import KeyPool.Proofs.Store.Skipping

/-! What came in can be judged. A purge reads nothing of a chain but its leaf, and on octets that split
into certificates this agrees with the reading of the whole. The chain of every row was read as a whole
when its key came in. So no key goes because its chain cannot be read, and those that go are those whose
leaf became valid in the window. Nor does a chain keep a window from being processed. -/

namespace KeyPool

namespace KeyRow

variable {row : KeyRow} {chain : CertificateChain} {window : BadWindow}

/-- The chain of a row, validated as it is when a key comes in. -/
def chain? (row : KeyRow) : Option CertificateChain :=
  row.chain.toBlob?.bind fun encoded => (CertificateChain.ofBytes encoded).toOption

def isIssuedWithin (window : BadWindow) (row : KeyRow) : Bool :=
  row.chain?.any fun chain => window.contains chain.leaf.info.notBefore

theorem chain?_eq_some : row.chain? = some chain ↔
    ∃ encoded, row.chain = .blob encoded ∧ CertificateChain.ofBytes encoded = .ok chain := by
  simp only [chain?, Option.bind_eq_some_iff, Cell.toBlob?_eq_some, toOption_eq_some]

/-- Where a chain is valid, the reading of its leaf alone finds the same leaf. -/
theorem issuedAt_of_chain? (h : row.chain? = some chain) :
    row.issuedAt = .ok chain.leaf.info.notBefore := by
  obtain ⟨encoded, hcell, hchain⟩ := chain?_eq_some.mp h
  rw [issuedAt, hcell]
  exact CertificateChain.issuedAt_of_ofBytes hchain

theorem outlives_of_chain? (h : row.chain? = some chain) :
    Store.outlives window row = !row.isIssuedWithin window := by
  rw [Store.outlives, issuedAt_of_chain? h, isIssuedWithin, h]
  rfl

theorem undecodable?_of_chain? (h : row.chain? = some chain) : Store.undecodable? row = none := by
  rw [Store.undecodable?, issuedAt_of_chain? h]

end KeyRow

/-! ## Over a run -/

namespace Database

variable {db db' : Database}

def Admitted (db : Database) : Prop := ∀ row ∈ db.rows, ∃ chain, row.chain? = some chain

/-- Keys come in only with valid chains, and no operation touches the chain of a row. -/
theorem Admitted.change (h : db.Admitted) {op : StoreOperation} (hc : db.Change op db') :
    db'.Admitted := by
  intro row hrow
  cases hc with
  | none => exact h row hrow
  | insert keys hne hv =>
      rcases List.mem_append.mp hrow with hold | hnew
      · exact h row hold
      · obtain ⟨key, hkey, id, rfl⟩ := KeyRow.exists_key_of_mem_numbered hnew
        obtain ⟨chain, hchain⟩ := Store.firstInvalid?_eq_none.mp hv key hkey
        exact ⟨chain, KeyRow.chain?_eq_some.mpr ⟨key.chain, rfl, hchain⟩⟩
  | assign component now client irpc =>
      obtain ⟨old, hold, rfl⟩ := List.mem_map.mp hrow
      obtain ⟨chain, hchain⟩ := h old hold
      refine ⟨chain, ?_⟩
      split <;> exact hchain
  | clear => cases hrow
  | expire cutoff => exact h row (List.mem_filter.mp hrow).1
  | purge window => exact h row (List.mem_filter.mp hrow).1

theorem admitted_after (calls : List StoreCall) : (empty.after calls).Admitted := by
  refine after_invariant (fun call _ db hdb => hdb.change (call.next_change db)) ?_
  intro row hrow
  cases hrow

end Database

/-! ## Purges -/

namespace Store

variable {s : Store}

/-- Where every chain is valid, a window is processed unless it is inverted, the handle is poisoned, or
the recorded window cannot be read or agrees with it. -/
theorem purge_processed_iff (h : s.db.Admitted) {window : BadWindow} :
    (∃ deleted version, (s.purge window).result = .ok (.purged deleted version)) ↔
      window.start ≤ window.stop ∧ s.poisoned = false ∧
        ∃ recorded, s.db.recordedWindow = .ok recorded ∧
          ∀ record ∈ recorded, ¬ (record.window.start.toMillis = window.start.toMillis ∧
            record.window.stop.toMillis = window.stop.toMillis) := by
  constructor
  · rintro ⟨deleted, version, hresult⟩
    have hp := s.purge_purging window
    generalize s.purge window = outcome at hp hresult
    cases hp with
    | purged recorded ho hsound hr hm =>
        refine ⟨of_decide_eq_true ho, hsound, recorded, hr, ?_⟩
        rintro record rfl
        simpa [← sameMillis_iff] using hm
    | _ => cases hresult
  · rintro ⟨hle, hsound, recorded, hr, hother⟩
    have hchains : ∀ row ∈ s.db.rows, ∃ octets, row.chain = .blob octets := by
      intro row hrow
      obtain ⟨chain, hchain⟩ := h row hrow
      obtain ⟨octets, hblob, -⟩ := KeyRow.chain?_eq_some.mp hchain
      exact ⟨octets, hblob⟩
    rw [purge_eq_applyWindow hle hsound hr hother, applyWindow, checkChains_eq_ok.mpr hchains]
    exact ⟨_, _, rfl⟩

/-- What a purge does to a store in which every chain is valid, beside what it does to any store. Of
every row the leaf alone says what the whole chain says, and no chain is reported that could not be
read. A window that is processed takes the keys that were issued in it, and the others stay in their
order; any other takes none. -/
structure AdmissionSpec (s : Store) (window : BadWindow) : Prop where
  purge : s.PurgeSpec window
  agrees : ∀ row ∈ s.db.rows, ∃ chain, row.chain? = some chain ∧
    row.issuedAt = .ok chain.leaf.info.notBefore
  readable : ∀ id e, StoreEvent.undecodableChain id e ∉ (s.purge window).events
  processed_iff : (∃ deleted version, (s.purge window).result = .ok (.purged deleted version)) ↔
    window.start ≤ window.stop ∧ s.poisoned = false ∧
      ∃ recorded, s.db.recordedWindow = .ok recorded ∧
        ∀ record ∈ recorded, ¬ (record.window.start.toMillis = window.start.toMillis ∧
          record.window.stop.toMillis = window.stop.toMillis)
  purged : ∀ deleted version, (s.purge window).result = .ok (.purged deleted version) →
    (s.purge window).store.db.rows = s.db.rows.filter (fun row => !row.isIssuedWithin window) ∧
      deleted = s.db.rows.countP (·.isIssuedWithin window)
  unpurged : (∀ deleted version, (s.purge window).result ≠ .ok (.purged deleted version)) →
    (s.purge window).store = s

theorem purge_admitted (h : s.db.Admitted) (window : BadWindow) : s.AdmissionSpec window := by
  have houtlives : s.db.rows.filter (outlives window) =
      s.db.rows.filter (fun row => !row.isIssuedWithin window) := by
    refine List.filter_congr ?_
    intro row hrow
    obtain ⟨chain, hchain⟩ := h row hrow
    exact KeyRow.outlives_of_chain? hchain
  have hreadable : s.db.rows.filterMap undecodable? = [] := by
    refine List.filterMap_eq_nil_iff.mpr ?_
    intro row hrow
    obtain ⟨chain, hchain⟩ := h row hrow
    exact KeyRow.undecodable?_of_chain? hchain
  have hp := s.purge_purging window
  refine ⟨s.purge_spec window, ?_, ?_, purge_processed_iff h, ?_, ?_⟩
  · intro row hrow
    obtain ⟨chain, hchain⟩ := h row hrow
    exact ⟨chain, hchain, KeyRow.issuedAt_of_chain? hchain⟩
  · intro id e hmem
    generalize s.purge window = outcome at hp hmem
    cases hp with
    | purged recorded => simp [hreadable] at hmem
    | _ => cases hmem
  · intro deleted version hresult
    generalize s.purge window = outcome at hp hresult ⊢
    cases hp with
    | purged recorded =>
        cases hresult
        refine ⟨houtlives, ?_⟩
        rw [houtlives, length_sub_length_filter]
        simp only [Bool.not_not]
    | _ => cases hresult
  · intro hnot
    generalize s.purge window = outcome at hp hnot ⊢
    cases hp with
    | purged recorded => exact absurd rfl (hnot _ _)
    | _ => rfl

end Store

/-- Reading a leaf alone agrees with reading a whole chain, so over every run a window that is processed
takes exactly the keys whose chain, as it was validated, has a leaf that became valid in it. -/
theorem admission_spec :
    (∀ encoded certificates, Certificate.readChain encoded = .ok certificates →
      ∃ leaf issuers, certificates = leaf :: issuers ∧
        Certificate.issuedAt encoded = .ok leaf.info.notBefore) ∧
      ∀ calls poisoned window,
        Store.AdmissionSpec ⟨Database.empty.after calls, poisoned⟩ window := by
  constructor
  · intro encoded certificates hread
    obtain ⟨⟨hne, -⟩, -⟩ := Certificate.readChain_eq_ok.mp hread
    obtain ⟨leaf, issuers, rfl⟩ := List.exists_cons_of_ne_nil hne
    exact ⟨leaf, issuers, rfl, Certificate.issuedAt_of_readChain hread⟩
  · intro calls poisoned window
    exact Store.purge_admitted (Database.admitted_after calls) window

def issuedYearLater : AttestationKey := ⟨none, [2], "hal", [], .selfSignedLater, .epoch, none⟩

def twoIssued : List StoreCall := [⟨.insert [issuedAtNewYear, issuedYearLater], false⟩]

theorem after_twoIssued : Database.empty.after twoIssued =
    Database.empty.append [issuedAtNewYear, issuedYearLater] := by
  obtain ⟨chain, hchain, -⟩ := CertificateChain.ofBytes_selfSigned
  obtain ⟨other, hother, -⟩ := CertificateChain.ofBytes_selfSignedLater
  have hvalid : Store.firstInvalid? [issuedAtNewYear, issuedYearLater] = none := by
    refine Store.firstInvalid?_eq_none.mpr ?_
    simp only [List.forall_mem_cons, List.not_mem_nil, IsEmpty.forall_iff, implies_true, and_true]
    exact ⟨⟨chain, hchain⟩, other, hother⟩
  rw [twoIssued, Database.after_cons, StoreCall.next,
    StoreCall.perform_insert (List.cons_ne_nil _ _) hvalid rfl]
  rfl

/-- Of two keys that came in, the first hour of 2024 takes the one and leaves the other. -/
theorem admission_spec_twoIssued :
    Store.AdmissionSpec ⟨Database.empty.after twoIssued, false⟩ (firstHour 0) ∧
      (Store.purge ⟨Database.empty.after twoIssued, false⟩ (firstHour 0)).result =
        .ok (.purged 1 1) ∧
      (Store.purge ⟨Database.empty.after twoIssued, false⟩ (firstHour 0)).store.db.rows =
        [.ofKey 2 issuedYearLater] := by
  obtain ⟨chain, hchain, -, hfrom, -⟩ := CertificateChain.ofBytes_selfSigned
  obtain ⟨other, hother, -, hlater⟩ := CertificateChain.ofBytes_selfSignedLater
  have hin : (KeyRow.ofKey 1 issuedAtNewYear).isIssuedWithin (firstHour 0) = true := by
    rw [KeyRow.isIssuedWithin, KeyRow.chain?_eq_some.mpr ⟨_, rfl, hchain⟩, Option.any_some]
    change (firstHour 0).contains chain.leaf.notBefore = true
    rw [hfrom]
    decide
  have hout : (KeyRow.ofKey 2 issuedYearLater).isIssuedWithin (firstHour 0) = false := by
    rw [KeyRow.isIssuedWithin, KeyRow.chain?_eq_some.mpr ⟨_, rfl, hother⟩, Option.any_some]
    change (firstHour 0).contains other.leaf.notBefore = false
    rw [hlater]
    decide
  have hspec := admission_spec.2 twoIssued false (firstHour 0)
  rw [after_twoIssued] at hspec ⊢
  have hrows : (Database.empty.append [issuedAtNewYear, issuedYearLater]).rows =
      [.ofKey 1 issuedAtNewYear, .ofKey 2 issuedYearLater] := rfl
  obtain ⟨deleted, version, hresult, rfl, -⟩ := hspec.purge.purged (by decide) rfl none rfl
    (by simp) (by simp [hrows, KeyRow.ofKey]) (by decide)
  obtain ⟨hkept, hdeleted⟩ := hspec.purged _ _ hresult
  rw [hrows, List.countP_cons_of_pos hin, List.countP_cons_of_neg (by simp [hout])] at hdeleted
  rw [hrows, List.filter_cons_of_neg (by simp [hin]), List.filter_cons_of_pos (by simp [hout])]
    at hkept
  refine ⟨hspec, ?_, hkept⟩
  rw [hresult, hdeleted]
  rfl

end KeyPool
