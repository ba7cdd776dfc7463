import KeyPool.Proofs.Provisioning.Cycling
import KeyPool.Proofs.Provisioning.Filling
import KeyPool.Proofs.Store.Expiry
import KeyPool.Proofs.Store.Refusal
import KeyPool.Proofs.Store.Skipping

/-! What a cycle touches. It drops rows for their certificates and for their age, and adds rows that
are unbound and have ids that were not given before. All others it leaves as they are, wherever it
stops. -/

namespace KeyPool

variable {σ : Type}

/-! ## Rows that go for a bad window -/

def Store.processes (s : Store) (window : BadWindow) : Bool :=
  match (s.purge window).result with
  | .ok (.purged _ _) => true
  | _ => false

/-- Whether a row goes for the bad window of a service. -/
def Geek.condemns (geek : Geek) (s : Store) (row : KeyRow) : Bool :=
  geek.badWindow.any fun window => s.processes window && !Store.outlives window row

namespace Store

variable {s : Store} {window : BadWindow}

theorem purge_unprocessed (h : s.processes window = false) :
    (s.purge window).store = s ∧ ∀ outcome, (s.purge window).result = .ok outcome →
      outcome = .alreadyProcessed := by
  unfold processes at h
  have hp := s.purge_purging window
  generalize s.purge window = outcome at h hp ⊢
  cases hp with
  | purged => cases h
  | repeated => exact ⟨rfl, fun outcome hok => (Except.ok.inj hok).symm⟩
  | _ => exact ⟨rfl, fun outcome hok => nomatch hok⟩

theorem purge_processed (h : s.processes window = true) :
    ∃ version, (s.purge window).result =
        .ok (.purged (s.db.rows.countP fun row => !outlives window row) version) ∧
      (s.purge window).store = { s with db := { s.db with
        rows := s.db.rows.filter (outlives window)
        window := some (.ofRecord ⟨window, version⟩) } } := by
  unfold processes at h
  have hp := s.purge_purging window
  generalize s.purge window = outcome at h hp ⊢
  cases hp with
  | purged recorded =>
      refine ⟨_, ?_, rfl⟩
      rw [length_sub_length_filter]
  | _ => cases h

end Store

namespace Geek

variable {geek : Geek} {s : Store}

/-- A row is condemned by a window that is newly processed, where it was issued in it or does not say
when it was issued. -/
theorem condemns_iff {row : KeyRow} : geek.condemns s row = true ↔
    ∃ window, geek.badWindow = some window ∧ s.processes window = true ∧
      ∀ issued, row.issuedAt = .ok issued → window.start ≤ issued ∧ issued ≤ window.stop := by
  unfold condemns
  rw [Option.any_eq_true]
  simp only [Bool.and_eq_true, Bool.not_eq_true', ← Bool.not_eq_true, Store.outlives_iff, not_exists,
    not_and, Classical.not_imp, not_not]

/-- What is left after the bad window of a service was dealt with. -/
structure Purges (geek : Geek) (s : Store) (o : Reported Nat) : Prop where
  rows : o.store.db.rows = s.db.rows.filter (!geek.condemns s ·)
  counted : ∀ n, o.result = .ok n → n = s.db.rows.countP (geek.condemns s)
  window : o.store.db.window = s.db.window ∨ ∃ window version, geek.badWindow = some window ∧
    s.processes window = true ∧ o.store.db.window = some (.ofRecord ⟨window, version⟩)
  lastId : o.store.db.lastId = s.db.lastId
  updatesIgnored : o.store.db.updatesIgnored = s.db.updatesIgnored
  poisoned : o.store.poisoned = s.poisoned

theorem purges_nothing {o : Reported Nat} (hnone : ∀ window ∈ geek.badWindow, s.processes window = false)
    (hstore : o.store = s) (hzero : ∀ n, o.result = .ok n → n = 0) : geek.Purges s o := by
  have hspared : geek.condemns s = fun _ => false := by
    funext row
    rw [← Bool.not_eq_true, condemns_iff]
    rintro ⟨window, hw, hprocessed, -⟩
    rw [hnone window hw] at hprocessed
    cases hprocessed
  refine ⟨?_, ?_, .inl ?_, ?_, ?_, ?_⟩
  · simp [hspared, hstore]
  · intro n hn
    simp [hspared, hzero n hn]
  all_goals rw [hstore]

theorem purge_purges (geek : Geek) (s : Store) : geek.Purges s (geek.purge s) := by
  unfold purge
  split
  · rename_i hw
    refine purges_nothing ?_ rfl fun n hn => (Except.ok.inj hn).symm
    simp [hw]
  rename_i window hw
  cases hprocessed : s.processes window with
  | false =>
      obtain ⟨hstore, hanswer⟩ := Store.purge_unprocessed hprocessed
      have hnone : ∀ window ∈ geek.badWindow, s.processes window = false := by simpa [hw]
      cases hresult : (s.purge window).result with
      | error e =>
          simp only [Store.Outcome.report, hresult, Except.mapError]
          refine purges_nothing hnone hstore ?_
          intro n hn
          cases hn
      | ok outcome =>
          obtain rfl := hanswer outcome hresult
          simp only [Store.Outcome.report, hresult, Except.mapError]
          exact purges_nothing hnone hstore fun n hn => (Except.ok.inj hn).symm
  | true =>
      obtain ⟨version, hresult, hstore⟩ := Store.purge_processed hprocessed
      have hcondemned : geek.condemns s = fun row => !Store.outlives window row := by
        funext row
        simp [condemns, hw, hprocessed]
      simp only [Store.Outcome.report, hresult, Except.mapError, hstore]
      refine ⟨?_, ?_, .inr ⟨window, version, hw, hprocessed, rfl⟩, rfl, rfl, rfl⟩
      · simp only [hcondemned, Bool.not_not]
      · intro n hn
        rw [hcondemned]
        exact (Except.ok.inj hn).symm

end Geek

/-! ## Rows that come -/

section

variable {component : Component σ} {server : Server σ} {geek : Geek}

/-- An attempt changes the store by keys that it adds, which are unbound keys of the component. It
counts them also where it fails. -/
theorem Provision.run_adds {policy : Policy} {now : Timestamp} {p p' : Progress σ}
    {result : Except Stop Nat} (h : run policy now component server geek p = (result, p')) :
    ∃ keys, p'.store = p.store.add keys ∧
      (∀ key ∈ keys, key.component = component.name ∧ key.assignment = none) ∧
        (∀ n, result = .ok n → n = keys.length) ∧
          ∃ made, p.attempt.Counts made keys.length p'.attempt := by
  obtain ⟨q, hfill, rfl⟩ := run_eq_iff.mp h
  rcases fillPool_cases hfill with
    ⟨hstore, hcounts, calls, hends⟩ | ⟨free, reported, q', hstore, hcounts, hstart, hbatches⟩
  · refine ⟨[], hstore, fun _ hkey => absurd hkey List.not_mem_nil, ?_,
      0, hcounts.generated, hcounts.stored⟩
    rintro n rfl
    generalize q.outside = last at hends
    cases hends with
    | full hfree hfull => rfl
  · obtain ⟨xs, made, calls, hdone⟩ := storeBatches_committed hbatches
    have hall := hcounts.trans hdone.counted
    rw [Nat.zero_add (Exchange.gained xs).length] at hall
    refine ⟨Exchange.gained xs, hdone.stored.trans (by rw [hstore]),
      fun key hkey => Exchange.unbound_of_mem_gained hkey, ?_, _, hall.generated, hall.stored⟩
    rintro n rfl
    obtain ⟨w, stop?, -, -, hresult⟩ := hdone.ended
    cases stop? with
    | none => exact Except.ok.inj hresult
    | some stop => cases hresult

variable {cause : AttemptCause} {clock : Nat → Timestamp} {reading : Nat}
  {components : List (Component σ)} {s s' : CycleState σ} {result : Except Stop (List ComponentReport)}

theorem Touring.adds (h : Touring server geek cause clock reading components s result s') :
    s'.policy = s.policy ∧ ∃ keys, s'.store = s.store.add keys ∧ ∀ key ∈ keys,
      key.assignment = none ∧ ∃ component ∈ components, key.component = component.name := by
  have hown {component : Component σ} {rest : List (Component σ)} {key : AttestationKey}
      (hkey : key.component = component.name ∧ key.assignment = none) :
      key.assignment = none ∧ ∃ c ∈ component :: rest, key.component = c.name :=
    ⟨hkey.2, component, List.mem_cons_self, hkey.1⟩
  induction h with
  | done => exact ⟨rfl, [], rfl, fun _ hkey => absurd hkey List.not_mem_nil⟩
  | crashed hrun =>
      obtain ⟨keys, hstore, hkeys, -⟩ := Provision.run_adds hrun
      exact ⟨rfl, keys, hstore, fun key hkey => hown (hkeys key hkey)⟩
  | aborted hrun =>
      obtain ⟨keys, hstore, hkeys, -⟩ := Provision.run_adds hrun
      exact ⟨rfl, keys, hstore, fun key hkey => hown (hkeys key hkey)⟩
  | next hrun hstore hrest ih =>
      obtain ⟨keys, hadded, hkeys, -⟩ := Provision.run_adds hrun
      obtain ⟨hpolicy, more, hmore, hothers⟩ := ih
      refine ⟨hpolicy, keys ++ more, ?_, ?_⟩
      · rw [hmore, ← Store.add_add]
        exact congrArg (Store.add · more) hadded
      · intro key hkey
        rcases List.mem_append.mp hkey with hfirst | hlater
        · exact hown (hkeys key hfirst)
        · obtain ⟨hfree, c, hc, hname⟩ := hothers key hlater
          exact ⟨hfree, c, List.mem_cons_of_mem _ hc, hname⟩

theorem Touring.names {reports : List ComponentReport}
    (h : Touring server geek cause clock reading components s result s') (hok : result = .ok reports) :
    reports.map (·.component) = components.map (·.name) := by
  induction h generalizing reports with
  | done =>
      cases hok
      rfl
  | crashed hrun => cases hok
  | aborted hrun hstore => cases hok
  | next hrun hstore hrest ih =>
      obtain ⟨rest, hrest, rfl⟩ := map_eq_ok.mp hok
      simp [ih hrest]

end

/-! ## Whole cycles -/

/-- What a cycle that was not turned off has touched. What is left of the old rows is as it was, and a
row that is gone was condemned or ended before the cutoff of the cycle. A new row is unbound and
belongs to a component. New ids come in order after all that were given and all that are left, and so
after all that there were where no row has an id that was not given. Another window is recorded only
where it was processed. -/
structure Touched (registry : Registry σ) (clock : Nat → Timestamp) (geek : Geek)
    (s s' : CycleState σ) (keep : KeyRow → Bool) (added : List KeyRow) : Prop where
  rows : s'.store.db.rows = s.store.db.rows.filter keep ++ added
  gone : ∀ row ∈ s.store.db.rows, keep row = false → geek.condemns s.store row = true ∨
    ∃ cutoff, (clock 0).move (s.policy.following geek).lookahead = .ok cutoff ∧
      row.expiration.isBelow cutoff.toMillis = true
  new : ∀ row ∈ added, row.IsUnbound ∧
    ∃ component ∈ registry.components, row.component = .text component.name
  ids : added.Pairwise (fun a b => a.id < b.id) ∧ ∀ row ∈ added, s.store.db.lastId < row.id ∧
    (∀ old ∈ s.store.db.rows, keep old = true → old.id < row.id) ∧
      ((∀ old ∈ s.store.db.rows, old.id ≤ s.store.db.lastId) →
        ∀ old ∈ s.store.db.rows, old.id < row.id)
  window : s'.store.db.window = s.store.db.window ∨ ∃ window version,
    geek.badWindow = some window ∧ s.store.processes window = true ∧
      s'.store.db.window = some (.ofRecord ⟨window, version⟩)
  policy : s'.policy = s.policy.following geek

/-- What a cycle touches, by its greeting and wherever it stops: nothing without an answer of the
service, and the key table alone where it is turned off. A cycle that comes to its end has dropped all
the rows that it may drop, and says how many each of its two deletions took, of which the first leaves
the second the fewer. A row is condemned where the bad window of the service is newly processed and the
row was issued in it, or does not say when. -/
structure FrameSpec (registry : Registry σ) (server : Server σ) (clock : Nat → Timestamp)
    (cause : AttemptCause) (s : CycleState σ) : Prop where
  unanswered : ∀ stop w, server.greet s.outside = (.error stop, w) → ∃ s',
    Cycle.run registry server clock cause s = (.error stop, s') ∧ s'.store = s.store ∧
      s'.policy = s.policy ∧ s'.outside = w
  disabled : ∀ geek w, server.greet s.outside = (.ok geek, w) → geek.isDisabled = true →
    ∃ result s', Cycle.run registry server clock cause s = (result, s') ∧ s'.policy = s.policy ∧
      s'.outside = w ∧ ((∃ deleted, s.store.clear.result = .ok deleted ∧
          result = .ok ⟨true, 0, 0, []⟩ ∧
            s'.store = { s.store with db := { s.store.db with rows := [] } }) ∨
        ∃ e, s.store.clear.result = .error e ∧ result = .error (.failed (.store e)) ∧
          s'.store = s.store)
  touched : ∀ geek w, server.greet s.outside = (.ok geek, w) → geek.isDisabled = false →
    ∃ result s' keep added, Cycle.run registry server clock cause s = (result, s') ∧
      Touched registry clock geek s s' keep added
  finished : ∀ geek w report s', server.greet s.outside = (.ok geek, w) → geek.isDisabled = false →
    Cycle.run registry server clock cause s = (.ok report, s') → ∃ cutoff added,
      (clock 0).move (s.policy.following geek).lookahead = .ok cutoff ∧
        Touched registry clock geek s s' (fun row =>
          !geek.condemns s.store row && !row.expiration.isBelow cutoff.toMillis) added ∧
        report.disabled = false ∧
        report.badDeleted = s.store.db.rows.countP (geek.condemns s.store) ∧
        report.expiringDeleted = s.store.db.rows.countP (fun row =>
          !geek.condemns s.store row && row.expiration.isBelow cutoff.toMillis) ∧
        report.components.map (·.component) = registry.names
  condemned : ∀ (geek : Geek) row, geek.condemns s.store row = true ↔
    ∃ window, geek.badWindow = some window ∧ s.store.processes window = true ∧
      ∀ issued, row.issuedAt = .ok issued → window.start ≤ issued ∧ issued ≤ window.stop

section

variable {registry : Registry σ} {server : Server σ} {clock : Nat → Timestamp} {cause : AttemptCause}
  {geek : Geek} {w : σ} {s s' : CycleState σ} {keep : KeyRow → Bool}

/-- What is touched shows in the store and the policy alone. -/
theorem Touched.congr {s₁ s₂ : CycleState σ} {added : List KeyRow}
    (h : Touched registry clock geek s s₁ keep added) (hstore : s₂.store = s₁.store)
    (hpolicy : s₂.policy = s₁.policy) : Touched registry clock geek s s₂ keep added := by
  refine ⟨?_, h.gone, h.new, h.ids, ?_, hpolicy.trans h.policy⟩
  · rw [hstore]
    exact h.rows
  · rw [hstore]
    exact h.window

theorem CycleState.purged_touched : Touched registry clock geek s (s.purged cause geek w)
    (!geek.condemns s.store ·) [] := by
  have hp := geek.purge_purges s.store
  refine ⟨?_, ?_, ?_, ?_, hp.window, rfl⟩
  · rw [List.append_nil]
    exact hp.rows
  · intro row hrow hgone
    exact .inl (by simpa using hgone)
  · intro row hrow
    cases hrow
  · exact ⟨.nil, fun row hrow => absurd hrow List.not_mem_nil⟩

theorem CycleState.cleaned_touched {cutoff : Timestamp}
    (hclock : (clock 0).move (s.policy.following geek).lookahead = .ok cutoff)
    (hpoisoned : s.store.poisoned = false) :
    Touched registry clock geek s (s.cleaned cause geek w cutoff)
      (fun row => !geek.condemns s.store row && !row.expiration.isBelow cutoff.toMillis) [] ∧
      (s.cleaned cause geek w cutoff).store.db.lastId = s.store.db.lastId := by
  have hp := geek.purge_purges s.store
  have hstore : (s.cleaned cause geek w cutoff).store =
      ((geek.purge s.store).store.expire cutoff).store := rfl
  rw [(Store.expire_eq (hp.poisoned.trans hpoisoned)).2] at hstore
  refine ⟨⟨?_, ?_, ?_, ?_, ?_, rfl⟩, ?_⟩
  · rw [List.append_nil, hstore]
    simp only [hp.rows, List.filter_filter, Bool.and_comm]
  · intro row hrow hgone
    rw [Bool.and_eq_false_iff, Bool.not_eq_false', Bool.not_eq_false'] at hgone
    exact hgone.imp_right fun hbelow => ⟨cutoff, hclock, hbelow⟩
  · intro row hrow
    cases hrow
  · exact ⟨.nil, fun row hrow => absurd hrow List.not_mem_nil⟩
  · rw [hstore]
    exact hp.window
  · rw [hstore]
    exact hp.lastId

/-- To go through components adds rows and touches no other. -/
theorem Touched.touring {s₁ : CycleState σ} {reports : Except Stop (List ComponentReport)}
    (h : Touched registry clock geek s s₁ keep []) (hlast : s₁.store.db.lastId = s.store.db.lastId)
    (htour : Touring server geek cause clock 1 registry.components s₁ reports s') :
    ∃ added, Touched registry clock geek s s' keep added := by
  obtain ⟨hpolicy, keys, hstore, hkeys⟩ := htour.adds
  have hbounds : ∀ row ∈ KeyRow.numbered s₁.store.db.lastUsed keys,
      s.store.db.lastId < row.id := by
    intro row hrow
    calc
      s.store.db.lastId = s₁.store.db.lastId := hlast.symm
      _ ≤ s₁.store.db.lastUsed := s₁.store.db.lastId_le_lastUsed
      _ < row.id := (KeyRow.numbered_bounds _ keys row hrow).1
  have hrows := h.rows
  rw [List.append_nil] at hrows
  refine ⟨KeyRow.numbered s₁.store.db.lastUsed keys, ?_, h.gone, ?_,
    ⟨KeyRow.numbered_ascending _ keys, ?_⟩, ?_, hpolicy.trans h.policy⟩
  · rw [hstore, Store.add_rows, hrows]
  · intro row hrow
    obtain ⟨key, hkey, id, rfl⟩ := KeyRow.exists_key_of_mem_numbered hrow
    obtain ⟨hfree, component, hcomponent, hname⟩ := hkeys key hkey
    exact ⟨KeyRow.ofKey_unbound hfree, component, hcomponent, congrArg Cell.text hname⟩
  · intro row hrow
    refine ⟨hbounds row hrow, ?_, fun hgiven old hold => (hgiven old hold).trans_lt (hbounds row hrow)⟩
    intro old hold hkept
    have hleft : old ∈ s₁.store.db.rows := by
      rw [hrows]
      exact List.mem_filter.mpr ⟨hold, hkept⟩
    calc
      old.id ≤ s₁.store.db.lastUsed := s₁.store.db.id_le_lastUsed hleft
      _ < row.id := (KeyRow.numbered_bounds _ keys row hrow).1
  · rw [hstore, Store.add_window]
    exact h.window

theorem Cleaning.poisoned_eq {bad expiring : Nat} {cutoff : Timestamp}
    (h : Cleaning server clock s geek w bad cutoff expiring) : s.store.poisoned = false := by
  rw [← (geek.purge_purges s.store).poisoned, ← Bool.not_eq_true]
  intro hpoisoned
  have hexpired := h.expired
  simp [Store.expire, hpoisoned, Store.refuse] at hexpired

theorem Cycling.touched {result : Except Stop CycleReport}
    (h : Cycling registry server clock cause s result s')
    (hgreet : server.greet s.outside = (.ok geek, w)) (hon : geek.isDisabled = false) :
    ∃ keep added, Touched registry clock geek s s' keep added := by
  cases h with
  | crashed hgreet' => cases hgreet.symm.trans hgreet'
  | unanswered hgreet' => cases hgreet.symm.trans hgreet'
  | kept hgreet' hoff hclear =>
      cases hgreet.symm.trans hgreet'
      cases hon.symm.trans hoff
  | emptied hgreet' hoff hclear =>
      cases hgreet.symm.trans hgreet'
      cases hon.symm.trans hoff
  | unpurged hgreet' hon' hpurge =>
      cases hgreet.symm.trans hgreet'
      exact ⟨_, [], CycleState.purged_touched⟩
  | unclocked hgreet' hon' hpurge hclock =>
      cases hgreet.symm.trans hgreet'
      exact ⟨_, [], CycleState.purged_touched⟩
  | unexpired hgreet' hon' hpurge hclock hexpire =>
      cases hgreet.symm.trans hgreet'
      have hpurged : Touched registry clock geek s (s.purged cause geek w) _ [] :=
        CycleState.purged_touched
      exact ⟨_, [], hpurged.congr (Store.expire_refused hexpire) rfl⟩
  | stopped hclean htour =>
      cases hgreet.symm.trans hclean.answered
      obtain ⟨hcleaned, hlast⟩ := CycleState.cleaned_touched hclean.clocked hclean.poisoned_eq
      exact ⟨_, hcleaned.touring hlast htour⟩
  | finished hclean htour =>
      cases hgreet.symm.trans hclean.answered
      obtain ⟨hcleaned, hlast⟩ := CycleState.cleaned_touched hclean.clocked hclean.poisoned_eq
      obtain ⟨added, htouched⟩ := hcleaned.touring hlast htour
      exact ⟨_, added, htouched.congr rfl rfl⟩

theorem Cycling.finished_eq {report : CycleReport}
    (h : Cycling registry server clock cause s (.ok report) s')
    (hgreet : server.greet s.outside = (.ok geek, w)) (hon : geek.isDisabled = false) :
    ∃ cutoff added, (clock 0).move (s.policy.following geek).lookahead = .ok cutoff ∧
      Touched registry clock geek s s' (fun row =>
        !geek.condemns s.store row && !row.expiration.isBelow cutoff.toMillis) added ∧
      report.disabled = false ∧
      report.badDeleted = s.store.db.rows.countP (geek.condemns s.store) ∧
      report.expiringDeleted = s.store.db.rows.countP (fun row =>
        !geek.condemns s.store row && row.expiration.isBelow cutoff.toMillis) ∧
      report.components.map (·.component) = registry.names := by
  cases h with
  | emptied hgreet' hoff hclear =>
      cases hgreet.symm.trans hgreet'
      cases hon.symm.trans hoff
  | finished hclean htour =>
      rename_i geek' w' bad cutoff expiring reports s₁
      cases hgreet.symm.trans hclean.answered
      have hp := geek.purge_purges s.store
      have hexpired := (Store.expire_eq (t := cutoff) (hp.poisoned.trans hclean.poisoned_eq)).1
      obtain ⟨hcleaned, hlast⟩ := CycleState.cleaned_touched hclean.clocked hclean.poisoned_eq
      obtain ⟨added, htouched⟩ := hcleaned.touring hlast htour
      refine ⟨cutoff, added, hclean.clocked, htouched.congr rfl rfl, rfl, hp.counted bad hclean.purged,
        ?_, htour.names rfl⟩
      have hcount := Except.ok.inj (hclean.expired.symm.trans hexpired)
      rw [hp.rows, List.countP_filter] at hcount
      simpa only [Bool.and_comm] using hcount

end

/-- Wherever a cycle stops, it has touched only what it may. -/
theorem frame_spec (registry : Registry σ) (server : Server σ) (clock : Nat → Timestamp)
    (cause : AttemptCause) (s : CycleState σ) : FrameSpec registry server clock cause s := by
  refine ⟨?_, ?_, ?_, ?_, fun geek row => Geek.condemns_iff⟩
  · intro stop w hgreet
    cases stop with
    | failed e => exact ⟨_, Cycling.execution (.unanswered hgreet), rfl, rfl, rfl⟩
    | crashed why => exact ⟨_, Cycling.execution (.crashed hgreet), rfl, rfl, rfl⟩
  · intro geek w hgreet hoff
    cases hclear : s.store.clear.result with
    | error e =>
        exact ⟨_, _, Cycling.execution (.kept hgreet hoff hclear), rfl, rfl,
          .inr ⟨e, rfl, rfl, Store.clear_refused hclear⟩⟩
    | ok deleted =>
        exact ⟨_, _, Cycling.execution (.emptied hgreet hoff hclear), rfl, rfl,
          .inl ⟨deleted, rfl, rfl, Store.clear_eq_ok hclear⟩⟩
  · intro geek w hgreet hon
    cases hrun : Cycle.run registry server clock cause s with
    | mk result s' =>
        obtain ⟨keep, added, htouched⟩ := (Cycle.run_cycling hrun).touched hgreet hon
        exact ⟨result, s', keep, added, rfl, htouched⟩
  · intro geek w report s' hgreet hon hrun
    exact (Cycle.run_cycling hrun).finished_eq hgreet hon

/-- A row whose chain has no octets, which ends on the fifth day of 1970. -/
def KeyRow.chainless : KeyRow :=
  .ofKey 1 ⟨none, [1], "hal", [], [],
    ⟨345600000000000, 0, by decide, Timestamp.epoch.offset_bounds⟩, none⟩

/-- Three days after the first instant of 1970. -/
def thirdDay : Timestamp := ⟨259200000000000, 0, by decide, Timestamp.epoch.offset_bounds⟩

/-- A store with a row whose id it does not know to have given. -/
def misnumbered : Store := ⟨{ Database.empty with rows := [.ofKey 5 (.ending .epoch)] }, false⟩

def Server.askingOne : Server Unit :=
  { Server.oneChain with greet := pure ⟨[], [], none, some 1, none⟩ }

/-- A key that was issued in the bad window and ends before the cutoff is counted for the window only.
Where no window is declared, a chain that cannot be read is left alone. An id that was not given is no
bound for a new one, once its row is gone. -/
theorem frame_exceptions :
    (∃ report s', Cycle.run .empty (.declaring (some (firstHour 0))) (fun _ => .epoch) .scheduled
        ⟨oneEnding, (), .default, []⟩ = (.ok report, s') ∧ report.disabled = false ∧
      Timestamp.epoch.move Policy.default.lookahead = .ok thirdDay ∧
      oneEnding.db.rows.countP (·.expiration.isBelow thirdDay.toMillis) = 1 ∧
      report.badDeleted = 1 ∧ report.expiringDeleted = 0) ∧
    (∃ report s', Cycle.run .empty (.declaring none) (fun _ => .epoch) .scheduled
        ⟨⟨{ Database.empty with rows := [.chainless], lastId := 1 }, false⟩, (), .default, []⟩ =
          (.ok report, s') ∧ report.disabled = false ∧ (∃ e, KeyRow.chainless.issuedAt = .error e) ∧
      s'.store.db.rows = [.chainless]) ∧
    ∃ report s', Cycle.run ⟨[.oneKey]⟩ .askingOne (fun _ => .epoch) .scheduled
        ⟨misnumbered, (), .default, []⟩ = (.ok report, s') ∧ report.disabled = false ∧
      s'.store.db.rows.map (·.id) = [1] := by
  rw [oneEnding_eq]
  have hoverlap : Cleaning (.declaring (some (firstHour 0))) (fun _ => .epoch)
      ⟨⟨Database.empty.append [.ending .epoch], false⟩, (), .default, []⟩
      ⟨[], [], some (firstHour 0), none, none⟩ () 1 thirdDay 0 :=
    ⟨rfl, rfl, by decide +kernel, rfl, by decide +kernel⟩
  have hspared : Cleaning (.declaring none) (fun _ => .epoch)
      ⟨⟨{ Database.empty with rows := [.chainless], lastId := 1 }, false⟩, (), .default, []⟩
      ⟨[], [], none, none, none⟩ () 0 thirdDay 0 :=
    ⟨rfl, rfl, rfl, rfl, rfl⟩
  refine ⟨⟨_, _, Cycling.execution (.finished hoverlap .done), rfl, rfl, rfl, rfl, rfl⟩,
    ⟨_, _, Cycling.execution (.finished hspared .done), rfl, ⟨_, rfl⟩, rfl⟩, ?_⟩
  have hfound : (Cycle.run ⟨[.oneKey]⟩ .askingOne (fun _ => .epoch) .scheduled
      ⟨misnumbered, (), .default, []⟩).1.toOption.map (·.disabled) = some false ∧
    (Cycle.run ⟨[.oneKey]⟩ .askingOne (fun _ => .epoch) .scheduled
      ⟨misnumbered, (), .default, []⟩).2.store.db.rows.map (·.id) = [1] := by
    decide +kernel
  obtain ⟨hreport, hids⟩ := hfound
  obtain ⟨report, hrun, hon⟩ := toOption_map_eq_some.mp hreport
  exact ⟨report, _, Prod.ext hrun rfl, hon, hids⟩

end KeyPool
