import KeyPool.Proofs.Provisioning.Course
import KeyPool.Proofs.Provisioning.Frame

/-! A cycle that succeeds leaves nothing to do for the next one: the bad window is recorded, the policy
is the one that the service asks for, and each pool has the keys that the policy wants. As long as no
key comes near its end, a further cycle that is greeted alike calls no component and changes
nothing. -/

namespace KeyPool

variable {σ : Type}

/-! ## The policy and the bad window -/

namespace Policy

variable (policy : Policy) (geek : Geek)

theorem following_following : (policy.following geek).following geek = policy.following geek := by
  unfold following followServer
  cases geek.extraKeys <;> cases geek.timeToRefresh <;> simp only [Option.getD_none, Option.getD_some]
  all_goals split <;> simp_all

theorem following_maxBatchSize : (policy.following geek).maxBatchSize = policy.maxBatchSize := by
  unfold following followServer
  split
  · rfl
  · split <;> rfl

end Policy

/-- Whether the bad window of a service is the one that a store recorded last. -/
def Store.Remembers (s : Store) (geek : Geek) : Prop :=
  ∀ window ∈ geek.badWindow, window.isOrdered = true ∧ ∃ record,
    s.db.recordedWindow = .ok (some record) ∧ Store.sameMillis record.window window = true

namespace Geek

variable {geek : Geek} {s : Store}

/-- A bad window that is recorded already does no more. -/
theorem purge_remembered (h : s.Remembers geek) (hp : s.poisoned = false) :
    (geek.purge s).result = .ok 0 ∧ (geek.purge s).store = s := by
  unfold purge
  cases hw : geek.badWindow with
  | none => simp
  | some window =>
      obtain ⟨ho, record, hrecord, hsame⟩ := h window hw
      obtain ⟨hstart, hstop⟩ := Store.sameMillis_iff.mp hsame
      have hrepeated : s.purge window = s.answer .alreadyProcessed :=
        (Store.purge_spec s window).repeated (of_decide_eq_true ho) hp record hrecord hstart hstop
      simp [hrepeated, Store.answer, Store.Outcome.report, Except.mapError]

/-- After a bad window was dealt with it is recorded, if milliseconds can show it. -/
theorem remembers_of_purge {bad : Nat} (h : (geek.purge s).result = .ok bad)
    (hshown : ∀ window ∈ geek.badWindow, ∀ t ∈ [window.start, window.stop],
      Timestamp.minClock ≤ t.instant ∧ t.instant ≤ Timestamp.maxClock) :
    (geek.purge s).store.Remembers geek := by
  intro window hw
  have hshown := hshown window hw
  have hp := s.purge_purging window
  have ho : window.isOrdered = true := by
    by_contra hinverted
    have hrefused := (Store.purge_spec s window).inverted (by simpa [BadWindow.isOrdered] using hinverted)
    simp [purge, Option.mem_def.mp hw, hrefused, Store.refuse, Store.Outcome.report,
      Except.mapError] at h
  simp only [purge, Option.mem_def.mp hw] at h ⊢
  generalize s.purge window = outcome at h hp ⊢
  cases hp with
  | repeated record hr hm => exact ⟨ho, record, hr, hm⟩
  | purged recorded =>
      obtain ⟨start, hstart⟩ := Timestamp.exists_ofMillis?_toMillis (hshown window.start (by simp))
      obtain ⟨stop, hstop⟩ := Timestamp.exists_ofMillis?_toMillis (hshown window.stop (by simp))
      have hrecord := WindowRow.toRecord_ofRecord ⟨window, recorded.elim 1 (·.version + 1)⟩ hstart
        hstop ho
      have hfirst := Timestamp.toMillis_ofMillis? hstart
      have hlast := Timestamp.toMillis_ofMillis? hstop
      exact ⟨ho, _, congrArg (Except.map some) hrecord, Store.sameMillis_iff.mpr ⟨hfirst, hlast⟩⟩
  | _ => cases h

end Geek

/-! ## Pools that are filled -/

/-- The rows that can be handed out for a component at some millisecond. -/
def Store.live (s : Store) (component : String) (millis : Int) : Nat :=
  s.db.rows.countP fun row => row.isFree component && row.expiration.isAtLeast millis

namespace Store

variable {s : Store} {component : String}

theorem countFree_live (hp : s.poisoned = false) (component : String) (now : Timestamp) :
    (s.countFree component now).result = .ok (s.live component now.toMillis) :=
  countFree_eq_ok.mpr ⟨hp, rfl⟩

theorem live_eq_of_countFree {now : Timestamp} {free : Nat}
    (h : (s.countFree component now).result = .ok free) : s.live component now.toMillis = free :=
  (countFree_eq_ok.mp h).2

end Store

theorem Cell.isAtLeast_of_not_isBelow {c : Cell} {bound millis other : Int} (hle : millis ≤ bound)
    (hbelow : c.isBelow bound = false) (h : c.isAtLeast other = true) :
    c.isAtLeast millis = true := by
  cases c <;> simp_all [isBelow, isAtLeast]
  omega

theorem KeyRow.live_ofKey {id : Int} {key : AttestationKey} {bound millis : Int}
    (hunbound : key.assignment = none) (hle : millis ≤ bound)
    (hbelow : (ofKey id key).expiration.isBelow bound = false) :
    ((ofKey id key).isFree key.component && (ofKey id key).expiration.isAtLeast millis) = true := by
  have hfree : (ofKey id key).isFree key.component = true := by
    simp [isFree, ofKey, hunbound, Cell.ofInteger?]
  have hlive : (ofKey id key).expiration.isAtLeast millis = true := by
    simp only [ofKey, Cell.isBelow, Cell.isAtLeast, decide_eq_false_iff_not, decide_eq_true_eq]
      at hbelow ⊢
    omega
  rw [hfree, hlive, Bool.and_self]

namespace Provision

variable {policy : Policy} {now : Timestamp} {component : Component σ} {server : Server σ}
  {geek : Geek} {p p' : Progress σ}

/-- An attempt that succeeds brings the keys of its component up to the policy, and there they stay,
whatever else comes in, as long as no row comes to its end. -/
theorem run_live {n : Nat} (hrun : run policy now component server geek p = (.ok n, p'))
    (hcap : policy.maxBatchSize ≠ some 0) {more : List AttestationKey} {bound millis : Int}
    (hlast : ∀ row ∈ (p'.store.add more).db.rows, row.expiration.isBelow bound = false)
    (hle : millis ≤ bound) : policy.extraKeys ≤ (p'.store.add more).live component.name millis := by
  obtain ⟨free, hfilled⟩ := run_filled policy now component server geek p hrun
  obtain ⟨keys, hstore, hkeys, hn, -⟩ := run_adds hrun
  have hlength : keys.length = policy.extraKeys - free := by
    rw [← hn n rfl, hfilled.stored, Policy.due, if_neg hcap]
  have hrows : (p'.store.add more).db.rows = p.store.db.rows ++
      KeyRow.numbered p.store.db.lastUsed keys ++ KeyRow.numbered p'.store.db.lastUsed more := by
    rw [Store.add_rows, hstore, Store.add_rows]
  have hold : free ≤ p.store.db.rows.countP
      fun row => row.isFree component.name && row.expiration.isAtLeast millis := by
    rw [← Store.live_eq_of_countFree hfilled.counted]
    apply List.countP_mono_left
    intro row hrow hfree
    rw [Bool.and_eq_true] at hfree ⊢
    have hbelow := hlast row (by rw [hrows]; simp [hrow])
    exact ⟨hfree.1, Cell.isAtLeast_of_not_isBelow hle hbelow hfree.2⟩
  have hnew : (KeyRow.numbered p.store.db.lastUsed keys).countP
      (fun row => row.isFree component.name && row.expiration.isAtLeast millis) = keys.length := by
    rw [← KeyRow.length_numbered p.store.db.lastUsed keys, List.countP_eq_length]
    intro row hrow
    have hbelow := hlast row (by rw [hrows]; simp [hrow])
    obtain ⟨key, hkey, id, rfl⟩ := KeyRow.exists_key_of_mem_numbered hrow
    rw [← (hkeys key hkey).1]
    exact KeyRow.live_ofKey (hkeys key hkey).2 hle hbelow
  unfold Store.live
  rw [hrows, List.countP_append, List.countP_append, hnew]
  omega

/-- An attempt for a pool that is full makes no call and leaves the store as it is. -/
theorem run_full (hp : p.store.poisoned = false)
    (hfull : policy.extraKeys ≤ p.store.live component.name now.toMillis) :
    ∃ p', run policy now component server geek p = (.ok 0, p') ∧ p'.store = p.store ∧
      p'.outside = p.outside := by
  have hcount := Store.countFree_live hp component.name now
  have hlong {free : Nat} (h : (p.store.countFree component.name now).result = .ok free) :
      policy.extraKeys ≤ free := by
    rwa [← Store.live_eq_of_countFree h]
  cases hfill : fillPool policy now component server geek p with
  | mk result q =>
      rcases fillPool_cases hfill with
        ⟨hstore, -, calls, hends⟩ | ⟨free, reported, q', -, -, hstart, -⟩
      · have hends : result = .ok 0 ∧ q.outside = p.outside := by
          generalize q.outside = last at hends ⊢
          cases hends with
          | uncounted he => cases hcount.symm.trans he
          | full hfree _ => exact ⟨rfl, rfl⟩
          | unasked hfree hshort _ => exact absurd (hlong hfree) (Nat.not_le.mpr hshort)
          | sizeless hfree hshort _ => exact absurd (hlong hfree) (Nat.not_le.mpr hshort)
          | unlisted hfree hshort _ _ _ => exact absurd (hlong hfree) (Nat.not_le.mpr hshort)
        obtain ⟨rfl, hout⟩ := hends
        exact ⟨_, run_eq_iff.mpr ⟨q, hfill, rfl⟩, hstore, hout⟩
      · exact absurd (hlong hstart.counted) (Nat.not_le.mpr hstart.short)

end Provision

section

variable {server : Server σ} {geek : Geek} {cause : AttemptCause} {clock : Nat → Timestamp}
  {reading : Nat} {components : List (Component σ)} {s s' : CycleState σ}

/-- Components that are all gone through with success leave full pools behind. -/
theorem Touring.live {result : Except Stop (List ComponentReport)} {reports : List ComponentReport}
    (h : Touring server geek cause clock reading components s result s') (hok : result = .ok reports)
    (hcap : s.policy.maxBatchSize ≠ some 0) (hsuccess : ∀ r ∈ reports, r.failed = false)
    {bound : Int} (hlast : ∀ row ∈ s'.store.db.rows, row.expiration.isBelow bound = false) :
    ∀ component ∈ components, ∀ millis ≤ bound,
      s.policy.extraKeys ≤ s'.store.live component.name millis := by
  induction h generalizing reports with
  | done => simp
  | crashed => cases hok
  | aborted => cases hok
  | next hrun hstore hrest ih =>
      rename_i reading component rest s s' outcome p _
      obtain ⟨reports, rfl, rfl⟩ := map_eq_ok.mp hok
      rw [List.forall_mem_cons] at hsuccess
      obtain ⟨n, rfl⟩ : ∃ n, outcome = .ok n := by
        cases outcome with
        | ok n => exact ⟨n, rfl⟩
        | error e => cases hsuccess.1
      obtain ⟨-, more, hmore, -⟩ := hrest.adds
      intro c hc millis hle
      rcases List.mem_cons.mp hc with rfl | hc
      · rw [hmore] at hlast ⊢
        exact Provision.run_live hrun hcap hlast hle
      · exact ih rfl hcap hsuccess.2 hlast c hc millis hle

theorem Touring.full (hp : s.store.poisoned = false)
    (hfull : ∀ component ∈ components, ∀ n,
      s.policy.extraKeys ≤ s.store.live component.name (clock n).toMillis) :
    ∃ s', Touring server geek cause clock reading components s
        (.ok (components.map fun c => ⟨c.name, .ok 0⟩)) s' ∧
      s'.store = s.store ∧ s'.policy = s.policy ∧ s'.outside = s.outside := by
  induction components generalizing reading s with
  | nil => exact ⟨s, .done, rfl, rfl, rfl⟩
  | cons component rest ih =>
      rw [List.forall_mem_cons] at hfull
      obtain ⟨p, hrun, hstore, hout⟩ :
          ∃ p, Cycle.attempt server geek cause (clock reading) component s = (.ok 0, p) ∧
            p.store = s.store ∧ p.outside = s.outside :=
        Provision.run_full hp (hfull.1 reading)
      have hp' : p.store.poisoned = false := by rw [hstore, hp]
      have hfull' : ∀ c ∈ rest, ∀ n, s.policy.extraKeys ≤ p.store.live c.name (clock n).toMillis := by
        rw [hstore]
        exact hfull.2
      obtain ⟨s', htour, hsame, hpolicy, hlast⟩ :=
        @ih (reading + 1) ((s.tried p).told [.attemptFinished p.attempt]) hp' hfull'
      have hsound : ∀ e, (Except.ok 0 : Except ProvisioningError Nat) = .error e →
          e.isStore = false := fun e he => nomatch he
      exact ⟨s', .next hrun hsound htour, hsame.trans hstore, hpolicy, hlast.trans hout⟩

end

/-! ## Cycles -/

theorem Cell.isBelow_eq_false_iff {c : Cell} {bound : Int} :
    c.isBelow bound = false ↔ ∀ millis, c = .integer millis → bound ≤ millis := by
  cases c <;> simp [isBelow]

theorem Policy.lookahead_nonneg (policy : Policy) : 0 ≤ policy.lookahead.nanos := by
  unfold lookahead horizon Span.ofSeconds Span.nanosPerSecond
  dsimp only
  omega

theorem Timestamp.le_of_move {t u : Timestamp} {span : Span} (h : t.move span = .ok u)
    (hspan : 0 ≤ span.nanos) : t ≤ u := by
  unfold move add? ofClock? at h
  split at h
  · rename_i found hfound
    split at hfound
    · split at hfound
      · cases h
        cases hfound
        change t.instant ≤ _
        unfold instant
        dsimp only
        omega
      · cases hfound
    · cases hfound
  · cases h

def CycleReport.idle (names : List String) : CycleReport :=
  ⟨false, 0, 0, names.map fun name => ⟨name, .ok 0⟩⟩

/-- What a store and a policy are like that leave a cycle nothing to do, which is greeted with `geek`
and drops the keys that end before `cutoff`. -/
structure Settled (s : Store) (policy : Policy) (geek : Geek) (names : List String)
    (clock : Nat → Timestamp) (cutoff : Timestamp) : Prop where
  usable : s.poisoned = false
  followed : policy.following geek = policy
  remembered : s.Remembers geek
  clocked : (clock 0).move policy.lookahead = .ok cutoff
  lasting : ∀ row ∈ s.db.rows, row.expiration.isBelow cutoff.toMillis = false
  full : ∀ name ∈ names, ∀ n, policy.extraKeys ≤ s.live name (clock n).toMillis

def Registry.recorded (registry : Registry σ) : Registry (σ × List CallRecord) :=
  ⟨registry.components.map Component.recorded⟩

theorem Registry.names_recorded (registry : Registry σ) : registry.recorded.names = registry.names := by
  simp only [names, recorded, List.map_map]
  rfl

def CycleState.noting (s : CycleState σ) (log : List CallRecord) : CycleState (σ × List CallRecord) :=
  ⟨s.store, (s.outside, log), s.policy, s.events⟩

section

variable {registry : Registry σ} {server : Server σ} {clock : Nat → Timestamp} {cause : AttemptCause}
  {geek : Geek} {w : σ} {s s' : CycleState σ}

/-- Where everything is settled, a cycle greets the service and does no more. -/
theorem Settled.cycling {cutoff : Timestamp}
    (h : Settled s.store s.policy geek registry.names clock cutoff)
    (hgreet : server.greet s.outside = (.ok geek, w)) (hon : geek.isDisabled = false) :
    ∃ s', Cycling registry server clock cause s (.ok (.idle registry.names)) s' ∧
      s'.store = s.store ∧ s'.policy = s.policy ∧ s'.outside = w := by
  obtain ⟨hpurge, hkept⟩ := Geek.purge_remembered h.remembered h.usable
  have hnone : s.store.db.rows.countP (·.expiration.isBelow cutoff.toMillis) = 0 := by
    rw [List.countP_eq_zero]
    intro row hrow
    simp [h.lasting row hrow]
  have hall : (s.store.db.rows.filter fun row => !row.expiration.isBelow cutoff.toMillis) =
      s.store.db.rows := by
    rw [List.filter_eq_self]
    intro row hrow
    simp [h.lasting row hrow]
  obtain ⟨hexpire, hleft⟩ := Store.expire_eq (t := cutoff) h.usable
  rw [hnone] at hexpire
  rw [hall] at hleft
  have hclean : Cleaning server clock s geek w 0 cutoff 0 := by
    refine ⟨hgreet, hon, hpurge, ?_, ?_⟩
    · rw [h.followed, h.clocked]
    · rw [hkept, hexpire]
  have hstore : (s.cleaned cause geek w cutoff).store = s.store := by
    change ((geek.purge s.store).store.expire cutoff).store = s.store
    rw [hkept, hleft]
  have hpolicy : (s.cleaned cause geek w cutoff).policy = s.policy := h.followed
  obtain ⟨s', htour, hsame, hpolicy', hout⟩ :
      ∃ s', Touring server geek cause clock 1 registry.components (s.cleaned cause geek w cutoff)
          (.ok (registry.components.map fun c => ⟨c.name, .ok 0⟩)) s' ∧
        s'.store = (s.cleaned cause geek w cutoff).store ∧
        s'.policy = (s.cleaned cause geek w cutoff).policy ∧
        s'.outside = (s.cleaned cause geek w cutoff).outside := by
    apply Touring.full
    · rw [hstore, h.usable]
    · intro component hc n
      rw [hstore, hpolicy]
      exact h.full component.name (List.mem_map_of_mem hc) n
  have hreport : CycleReport.idle registry.names =
      ⟨false, 0, 0, registry.components.map fun c => ⟨c.name, .ok 0⟩⟩ := by
    simp only [CycleReport.idle, Registry.names, List.map_map]
    rfl
  rw [hreport]
  exact ⟨_, .finished hclean htour, hsame.trans hstore, hpolicy'.trans hpolicy, hout⟩

/-- A cycle that succeeds settles everything, if the bad window of the service can be recorded and no
key ends before the cutoff of the cycle to come. -/
theorem Cycling.settles {report : CycleReport} {later : Nat → Timestamp} {cutoff : Timestamp}
    (h : Cycling registry server clock cause s (.ok report) s')
    (hgreet : server.greet s.outside = (.ok geek, w)) (hcap : s.policy.maxBatchSize ≠ some 0)
    (hon : report.disabled = false) (hsuccess : report.isSuccess = true)
    (hshown : ∀ window ∈ geek.badWindow, ∀ t ∈ [window.start, window.stop],
      Timestamp.minClock ≤ t.instant ∧ t.instant ≤ Timestamp.maxClock)
    (hclock : (later 0).move s'.policy.lookahead = .ok cutoff) (hlater : ∀ n, later n ≤ cutoff)
    (hlast : ∀ row ∈ s'.store.db.rows, row.expiration.isBelow cutoff.toMillis = false) :
    geek.isDisabled = false ∧ Settled s'.store s'.policy geek registry.names later cutoff := by
  cases h with
  | emptied => cases hon
  | finished hclean htour =>
      rename_i geek' w' bad first expiring reports s'
      cases hgreet.symm.trans hclean.answered
      obtain ⟨hpolicy, keys, hstore, -⟩ := htour.adds
      have hpolicy : s'.policy = s.policy.following geek := hpolicy
      have hp := geek.purge_purges s.store
      have hleft := (Store.expire_eq (t := first) (hp.poisoned.trans hclean.poisoned_eq)).2
      have hstore : s'.store = ((geek.purge s.store).store.expire first).store.add keys := hstore
      have hwindow : s'.store.db.recordedWindow = (geek.purge s.store).store.db.recordedWindow := by
        unfold Database.recordedWindow
        rw [hstore, Store.add_window, hleft]
      refine ⟨hclean.enabled, ?_, ?_, ?_, hclock, hlast, ?_⟩
      · change s'.store.poisoned = false
        rw [hstore, Store.add_poisoned, hleft]
        exact hp.poisoned.trans hclean.poisoned_eq
      · change s'.policy.following geek = s'.policy
        rw [hpolicy, Policy.following_following]
      · intro window hw
        change _ ∧ ∃ record, s'.store.db.recordedWindow = _ ∧ _
        rw [hwindow]
        exact Geek.remembers_of_purge hclean.purged hshown window hw
      · intro name hname n
        obtain ⟨component, hc, rfl⟩ := List.mem_map.mp hname
        have hgood : ∀ r ∈ reports, r.failed = false := by
          simpa [CycleReport.isSuccess, CycleReport.failures] using hsuccess
        have hcap' : (s.policy.following geek).maxBatchSize ≠ some 0 := by
          rwa [Policy.following_maxBatchSize]
        change s'.policy.extraKeys ≤ _
        rw [hpolicy]
        exact htour.live rfl hcap' hgood hlast component hc _ (Timestamp.toMillis_mono (hlater n))

/-- A cycle that finds nothing to do reports so for every component and leaves the store and the policy
as they are. Its only call is the one that greets the service. -/
structure IdleSpec (registry : Registry σ) (server : Server σ) (clock : Nat → Timestamp)
    (cause : AttemptCause) (s : CycleState σ) (w : σ) : Prop where
  run : ∃ s', Cycle.run registry server clock cause s = (.ok (.idle registry.names), s') ∧
    s'.store = s.store ∧ s'.policy = s.policy ∧ s'.outside = w
  calls : ∀ log, ∃ s', Cycle.run registry.recorded server.recorded clock cause (s.noting log) =
      (.ok (.idle registry.names), s') ∧
    s'.store = s.store ∧ s'.policy = s.policy ∧ s'.outside = (w, log ++ [.greet])

theorem Settled.idle {cutoff : Timestamp}
    (h : Settled s.store s.policy geek registry.names clock cutoff)
    (hgreet : server.greet s.outside = (.ok geek, w)) (hon : geek.isDisabled = false) :
    IdleSpec registry server clock cause s w := by
  constructor
  · obtain ⟨s', hcycle, hkept⟩ := h.cycling hgreet hon
    exact ⟨s', hcycle.execution, hkept⟩
  · intro log
    have hnoted : server.recorded.greet (s.noting log).outside = (.ok geek, w, log ++ [.greet]) :=
      Call.recorded_eq.mpr ⟨hgreet, rfl⟩
    rw [← registry.names_recorded] at h ⊢
    obtain ⟨s', hcycle, hkept⟩ := Settled.cycling (s := s.noting log) h hnoted hon
    exact ⟨s', hcycle.execution, hkept⟩

/-- After a cycle that succeeds, one that is greeted alike is idle, provided that nothing else was done
in between and that no key ends before its cutoff, which its clock does not pass while it runs. -/
theorem settling_spec {later : Nat → Timestamp} {again : AttemptCause} {s₁ s₂ : CycleState σ} {w' : σ}
    {report : CycleReport} {cutoff : Timestamp}
    (hcap : s.policy.maxBatchSize ≠ some 0) (hgreet : server.greet s.outside = (.ok geek, w))
    (hrun : Cycle.run registry server clock cause s = (.ok report, s₁))
    (hon : report.disabled = false) (hsuccess : report.isSuccess = true)
    (hstore : s₂.store = s₁.store) (hpolicy : s₂.policy = s₁.policy)
    (hagain : server.greet s₂.outside = (.ok geek, w'))
    (hshown : ∀ window ∈ geek.badWindow, ∀ t ∈ [window.start, window.stop],
      Timestamp.minClock ≤ t.instant ∧ t.instant ≤ Timestamp.maxClock)
    (hclock : (later 0).move s₂.policy.lookahead = .ok cutoff)
    (hlater : ∀ n, later n = later 0 ∨ later n ≤ cutoff)
    (hlast : ∀ row ∈ s₂.store.db.rows, ∀ millis, row.expiration = .integer millis →
      cutoff.toMillis ≤ millis) :
    IdleSpec registry server later again s₂ w' := by
  have hfirst : later 0 ≤ cutoff := Timestamp.le_of_move hclock (Policy.lookahead_nonneg _)
  have hbefore : ∀ n, later n ≤ cutoff := by
    intro n
    rcases hlater n with hstands | hmoves
    · rw [hstands]
      exact hfirst
    · exact hmoves
  have hlasting : ∀ row ∈ s₂.store.db.rows, row.expiration.isBelow cutoff.toMillis = false :=
    fun row hrow => Cell.isBelow_eq_false_iff.mpr (hlast row hrow)
  rw [hpolicy] at hclock
  rw [hstore] at hlasting
  obtain ⟨henabled, hsettled⟩ :=
    (Cycle.run_cycling hrun).settles hgreet hcap hon hsuccess hshown hclock hbefore hlasting
  rw [← hstore, ← hpolicy] at hsettled
  exact hsettled.idle hagain henabled

end

/-- A service that asks for one key, certifies it, and calls the first three days of 1970 bad. -/
def Server.wary : Server Unit :=
  { Server.oneChain with greet := pure ⟨[], [], some ⟨.epoch, thirdDay⟩, some 1, none⟩ }

/-- A cycle in which a component gets its only key. -/
def CycleState.first : Except Stop CycleReport × CycleState Unit :=
  Cycle.run ⟨[.oneKey]⟩ .wary (fun _ => .epoch) .scheduled ⟨.empty, (), .default, []⟩

/-- The first cycle brings in a key and records a bad window, the second does nothing. -/
theorem settling_spec_one :
    (∃ report, CycleState.first.1 = .ok report ∧ report.stored = 1) ∧
      CycleState.first.2.store.db.window.isSome = true ∧
      IdleSpec ⟨[.oneKey]⟩ .wary (fun _ => .epoch) .scheduled CycleState.first.2 () := by
  have hfound : CycleState.first.1.toOption.map
        (fun report => (report.stored, report.disabled, report.isSuccess)) = some (1, false, true) ∧
      CycleState.first.2.store.db.window.isSome = true ∧
      (CycleState.first.2.store.db.rows.all fun row =>
        !row.expiration.isBelow thirdDay.toMillis) = true ∧
      Timestamp.epoch.move CycleState.first.2.policy.lookahead = .ok thirdDay := by
    decide +kernel
  obtain ⟨hreport, hwindow, hrows, hclock⟩ := hfound
  obtain ⟨report, hfirst, hreport⟩ := toOption_map_eq_some.mp hreport
  simp only [Prod.mk.injEq] at hreport
  obtain ⟨hstored, hon, hsuccess⟩ := hreport
  have hrun : Cycle.run ⟨[.oneKey]⟩ .wary (fun _ => .epoch) .scheduled
      ⟨.empty, (), .default, []⟩ = (.ok report, CycleState.first.2) := Prod.ext hfirst rfl
  refine ⟨⟨report, hfirst, hstored⟩, hwindow, ?_⟩
  refine settling_spec (by decide) rfl hrun hon hsuccess rfl rfl rfl ?_ hclock
    (fun _ => .inl rfl) ?_
  · intro window hw
    cases hw
    decide
  · intro row hrow
    have hlasting := List.all_eq_true.mp hrows row hrow
    exact Cell.isBelow_eq_false_iff.mp (by simpa using hlasting)

end KeyPool
