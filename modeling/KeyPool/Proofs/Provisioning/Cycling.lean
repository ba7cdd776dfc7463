import KeyPool.Proofs.Provisioning.Batching
import KeyPool.Proofs.Provisioning.Mirror

/-! How a whole cycle goes, whatever the store holds and the partners do. It may stop at each of its
stages. Once it has come to the components it goes through them in order, and passes over those that
fail unless it is the store that fails them. -/

namespace KeyPool

variable {σ : Type}

def Policy.following (policy : Policy) (geek : Geek) : Policy :=
  policy.followServer geek.extraKeys geek.timeToRefresh

/-! ## Stages of a cycle -/

namespace CycleState

def told (s : CycleState σ) (events : List Event) : CycleState σ :=
  { s with events := s.events ++ events }

theorem told_told (s : CycleState σ) (events more : List Event) :
    (s.told events).told more = s.told (events ++ more) := by
  simp only [told, List.append_assoc]

def used {α : Type} (s : CycleState σ) (o : Reported α) : CycleState σ :=
  { s with store := o.store, events := s.events ++ o.events }

def tried (s : CycleState σ) (p : Progress σ) : CycleState σ :=
  ⟨p.store, p.outside, s.policy, p.events⟩

def greeted (s : CycleState σ) (cause : AttemptCause) (geek : Geek) (w : σ) : CycleState σ :=
  ⟨s.store, w, s.policy.following geek, s.events ++ [.attemptFinished (.start cause none)]⟩

def purged (s : CycleState σ) (cause : AttemptCause) (geek : Geek) (w : σ) : CycleState σ :=
  (s.greeted cause geek w).used (geek.purge s.store)

def cleaned (s : CycleState σ) (cause : AttemptCause) (geek : Geek) (w : σ) (cutoff : Timestamp) :
    CycleState σ :=
  (s.purged cause geek w).used ((geek.purge s.store).store.expire cutoff).report

end CycleState

/-- What is said of a component that failed in an attempt that is over. -/
def ComponentReport.remark (r : ComponentReport) : List Event :=
  match r.outcome with
  | .ok _ => []
  | .error e => [.provisioningFailed r.component e]

namespace Cycle

def attempt (server : Server σ) (geek : Geek) (cause : AttemptCause) (now : Timestamp)
    (component : Component σ) (s : CycleState σ) : Except Stop Nat × Progress σ :=
  Provision.run s.policy now component server geek
    ⟨s.store, s.outside, .ofComponent cause component.name, s.events⟩

end Cycle

/-! ## One component after another -/

/-- The ways in which components are gone through, for the first of which the clock is read `reading`
times before: the reports on them, if none of them stops the cycle, and what they leave. -/
inductive Touring (server : Server σ) (geek : Geek) (cause : AttemptCause) (clock : Nat → Timestamp) :
    Nat → List (Component σ) → CycleState σ → Except Stop (List ComponentReport) → CycleState σ →
      Prop where
  | done {reading : Nat} {s : CycleState σ} : Touring server geek cause clock reading [] s (.ok []) s
  | crashed {reading : Nat} {component : Component σ} {rest : List (Component σ)} {s : CycleState σ}
      {why : Crash} {p : Progress σ}
      (hrun : Cycle.attempt server geek cause (clock reading) component s = (.error (.crashed why), p)) :
      Touring server geek cause clock reading (component :: rest) s (.error (.crashed why)) (s.tried p)
  | aborted {reading : Nat} {component : Component σ} {rest : List (Component σ)} {s : CycleState σ}
      {e : ProvisioningError} {p : Progress σ}
      (hrun : Cycle.attempt server geek cause (clock reading) component s = (.error (.failed e), p))
      (hstore : e.isStore = true) :
      Touring server geek cause clock reading (component :: rest) s (.error (.failed e))
        ((s.tried p).told [.attemptFinished p.attempt])
  | next {reading : Nat} {component : Component σ} {rest : List (Component σ)} {s s' : CycleState σ}
      {outcome : Except ProvisioningError Nat} {p : Progress σ}
      {reports : Except Stop (List ComponentReport)}
      (hrun : Cycle.attempt server geek cause (clock reading) component s =
        (outcome.mapError .failed, p))
      (hstore : ∀ e, outcome = .error e → e.isStore = false)
      (hrest : Touring server geek cause clock (reading + 1) rest
        ((s.tried p).told
          (.attemptFinished p.attempt :: (ComponentReport.mk component.name outcome).remark))
        reports s') :
      Touring server geek cause clock reading (component :: rest) s
        (reports.map (⟨component.name, outcome⟩ :: ·)) s'

namespace Cycle

variable {server : Server σ} {geek : Geek} {cause : AttemptCause} {now : Timestamp}
  {component : Component σ} {s s' : CycleState σ}

theorem emit_bind {α : Type} (event : Event) (f : Unit → Cycle σ α) (s : CycleState σ) :
    (emit event >>= f) s = f () (s.told [event]) := rfl

theorem onStore_eq {α : Type} {operation : Store → Reported α} {result : Except Stop α} :
    onStore operation s = (result, s') ↔
      (operation s.store).result.mapError .failed = result ∧ s.used (operation s.store) = s' :=
  Prod.mk.injEq _ _ _ _ ▸ Iff.rfl

/-- The ways in which one component can be provisioned. A failure is a result, a crash is not. -/
theorem provisionComponent_cases {result : Except Stop (Except ProvisioningError Nat)}
    (h : provisionComponent server geek cause now component s = (result, s')) :
    (∃ why p, attempt server geek cause now component s = (.error (.crashed why), p) ∧
        result = .error (.crashed why) ∧ s' = s.tried p) ∨
      ∃ outcome p, attempt server geek cause now component s =
          (Except.mapError .failed outcome, p) ∧
        result = .ok outcome ∧ s' = (s.tried p).told [.attemptFinished p.attempt] := by
  cases hrun : attempt server geek cause now component s with
  | mk found p =>
      rw [provisionComponent_eq server geek cause now component s hrun] at h
      cases found with
      | ok n =>
          cases h
          exact .inr ⟨.ok n, p, rfl, rfl, rfl⟩
      | error stop =>
          cases stop with
          | failed e =>
              cases h
              exact .inr ⟨.error e, p, rfl, rfl, rfl⟩
          | crashed why =>
              cases h
              exact .inl ⟨why, p, rfl, rfl, rfl⟩

theorem provisionAll_touring {clock : Nat → Timestamp} {reading : Nat}
    {components : List (Component σ)} {result : Except Stop (List ComponentReport)}
    (h : provisionAll server geek cause clock reading components s = (result, s')) :
    Touring server geek cause clock reading components s result s' := by
  induction components generalizing reading s result with
  | nil =>
      cases h
      exact .done
  | cons component rest ih =>
      rw [provisionAll] at h
      rcases Call.bind_eq.mp h with ⟨stop, hone, rfl⟩ | ⟨outcome, q, hone, h⟩
      · rcases provisionComponent_cases hone with ⟨why, p, hrun, hstop, rfl⟩ | ⟨_, p, -, hok, -⟩
        · cases hstop
          exact .crashed hrun
        · cases hok
      rcases provisionComponent_cases hone with ⟨why, p, -, hstop, -⟩ | ⟨outcome', p, hrun, hok, rfl⟩
      · cases hstop
      cases hok
      cases outcome with
      | ok n =>
          obtain ⟨reports, hrest, rfl⟩ := Call.bind_pure_eq.mp h
          refine .next hrun ?_ (ih hrest)
          intro e he
          cases he
      | error e =>
          cases hstore : e.isStore with
          | true =>
              simp only [hstore, ite_true] at h
              cases h
              exact .aborted hrun hstore
          | false =>
              simp only [hstore, Bool.false_eq_true, ite_false] at h
              rw [emit_bind] at h
              obtain ⟨reports, hrest, rfl⟩ := Call.bind_pure_eq.mp h
              rw [CycleState.told_told] at hrest
              refine .next hrun ?_ (ih hrest)
              intro e' he
              cases he
              exact hstore

end Cycle

/-- Every way of `Touring` is the one in which the components are gone through. -/
theorem Touring.execution {server : Server σ} {geek : Geek} {cause : AttemptCause}
    {clock : Nat → Timestamp} {reading : Nat} {components : List (Component σ)} {s s' : CycleState σ}
    {result : Except Stop (List ComponentReport)}
    (h : Touring server geek cause clock reading components s result s') :
    Cycle.provisionAll server geek cause clock reading components s = (result, s') := by
  induction h with
  | done => rfl
  | crashed hrun =>
      exact Call.bind_eq.mpr (.inl ⟨_, Cycle.provisionComponent_eq _ _ _ _ _ _ hrun, rfl⟩)
  | aborted hrun hstore =>
      refine Call.bind_eq.mpr (.inr ⟨_, _, Cycle.provisionComponent_eq _ _ _ _ _ _ hrun, ?_⟩)
      simp only [hstore, ite_true]
      rfl
  | next hrun hstore hrest ih =>
      rename_i reading component rest s s' outcome p reports
      cases outcome with
      | ok n =>
          refine Call.bind_eq.mpr (.inr ⟨_, _, Cycle.provisionComponent_eq _ _ _ _ _ _ hrun, ?_⟩)
          exact Call.bind_pure_eq.mpr ⟨_, ih, rfl⟩
      | error e =>
          refine Call.bind_eq.mpr (.inr ⟨_, _, Cycle.provisionComponent_eq _ _ _ _ _ _ hrun, ?_⟩)
          simp only [hstore e rfl, Bool.false_eq_true, ite_false]
          change (Cycle.provisionAll server geek cause clock (reading + 1) rest >>= fun reports =>
            pure (⟨component.name, .error e⟩ :: reports))
              (((s.tried p).told [.attemptFinished p.attempt]).told
                [.provisioningFailed component.name e]) = _
          rw [CycleState.told_told]
          exact Call.bind_pure_eq.mpr ⟨_, ih, rfl⟩

/-! ## Whole cycles -/

/-- A cycle comes to the components: the service has answered `geek` and does not turn provisioning
off, its bad window took `bad` keys, and `expiring` keys ended before the cutoff. -/
structure Cleaning (server : Server σ) (clock : Nat → Timestamp) (s : CycleState σ) (geek : Geek)
    (w : σ) (bad : Nat) (cutoff : Timestamp) (expiring : Nat) : Prop where
  answered : server.greet s.outside = (.ok geek, w)
  enabled : geek.isDisabled = false
  purged : (geek.purge s.store).result = .ok bad
  clocked : (clock 0).move (s.policy.following geek).lookahead = .ok cutoff
  expired : ((geek.purge s.store).store.expire cutoff).result = .ok expiring

/-- The ways in which a cycle can go: its answer, and what it leaves. -/
inductive Cycling (registry : Registry σ) (server : Server σ) (clock : Nat → Timestamp)
    (cause : AttemptCause) (s : CycleState σ) : Except Stop CycleReport → CycleState σ → Prop where
  | crashed {why : Crash} {w : σ} (hgreet : server.greet s.outside = (.error (.crashed why), w)) :
      Cycling registry server clock cause s (.error (.crashed why)) { s with outside := w }
  | unanswered {e : ProvisioningError} {w : σ}
      (hgreet : server.greet s.outside = (.error (.failed e), w)) :
      Cycling registry server clock cause s (.error (.failed e))
        (CycleState.told { s with outside := w }
          [.attemptFinished ((Attempt.start cause none).withStatus (.failed e.kind))])
  | kept {geek : Geek} {w : σ} {e : StoreError}
      (hgreet : server.greet s.outside = (.ok geek, w)) (hoff : geek.isDisabled = true)
      (hclear : s.store.clear.result = .error e) :
      Cycling registry server clock cause s (.error (.failed (.store e)))
        (CycleState.used { s with outside := w } s.store.clear.report)
  | emptied {geek : Geek} {w : σ} {deleted : Nat}
      (hgreet : server.greet s.outside = (.ok geek, w)) (hoff : geek.isDisabled = true)
      (hclear : s.store.clear.result = .ok deleted) :
      Cycling registry server clock cause s (.ok ⟨true, 0, 0, []⟩)
        ((CycleState.used { s with outside := w } s.store.clear.report).told
          [.poolCleared deleted, .attemptFinished ((Attempt.start cause none).withStatus .disabled)])
  | unpurged {geek : Geek} {w : σ} {e : ProvisioningError}
      (hgreet : server.greet s.outside = (.ok geek, w)) (hon : geek.isDisabled = false)
      (hpurge : (geek.purge s.store).result = .error e) :
      Cycling registry server clock cause s (.error (.failed e)) (s.purged cause geek w)
  | unclocked {geek : Geek} {w : σ} {bad : Nat} {why : Crash}
      (hgreet : server.greet s.outside = (.ok geek, w)) (hon : geek.isDisabled = false)
      (hpurge : (geek.purge s.store).result = .ok bad)
      (hclock : (clock 0).move (s.policy.following geek).lookahead = .error why) :
      Cycling registry server clock cause s (.error (.crashed why)) (s.purged cause geek w)
  | unexpired {geek : Geek} {w : σ} {bad : Nat} {cutoff : Timestamp} {e : StoreError}
      (hgreet : server.greet s.outside = (.ok geek, w)) (hon : geek.isDisabled = false)
      (hpurge : (geek.purge s.store).result = .ok bad)
      (hclock : (clock 0).move (s.policy.following geek).lookahead = .ok cutoff)
      (hexpire : ((geek.purge s.store).store.expire cutoff).result = .error e) :
      Cycling registry server clock cause s (.error (.failed (.store e)))
        (s.cleaned cause geek w cutoff)
  | stopped {geek : Geek} {w : σ} {bad : Nat} {cutoff : Timestamp} {expiring : Nat} {stop : Stop}
      {s' : CycleState σ} (hclean : Cleaning server clock s geek w bad cutoff expiring)
      (htour : Touring server geek cause clock 1 registry.components (s.cleaned cause geek w cutoff)
        (.error stop) s') :
      Cycling registry server clock cause s (.error stop) s'
  | finished {geek : Geek} {w : σ} {bad : Nat} {cutoff : Timestamp} {expiring : Nat}
      {reports : List ComponentReport} {s' : CycleState σ}
      (hclean : Cleaning server clock s geek w bad cutoff expiring)
      (htour : Touring server geek cause clock 1 registry.components (s.cleaned cause geek w cutoff)
        (.ok reports) s') :
      Cycling registry server clock cause s (.ok ⟨false, bad, expiring, reports⟩)
        (s'.told [.cycleComplete bad expiring (CycleReport.mk false bad expiring reports).stored
          (CycleReport.mk false bad expiring reports).failures.length])

namespace Cycle

variable {server : Server σ} {geek : Geek} {cause : AttemptCause} {s s' : CycleState σ}

theorem attemptCall_eq {α : Type} {c : Call σ α}
    {result : Except Stop (Except ProvisioningError α)} :
    attemptCall c s = (result, s') ↔
      ∃ found w, c s.outside = (found, w) ∧ Stop.caught found = result ∧ { s with outside := w } = s' := by
  change (Stop.caught (c s.outside).1, { s with outside := (c s.outside).2 }) = (result, s') ↔ _
  rw [Prod.mk.injEq]
  constructor
  · rintro ⟨hresult, hs⟩
    exact ⟨_, _, rfl, hresult, hs⟩
  · rintro ⟨found, w, hc, hresult, hs⟩
    rw [hc]
    exact ⟨hresult, hs⟩

theorem onStore_report_ok {α : Type} {operation : Store → Store.Outcome α} {a : α}
    (h : (operation s.store).result = .ok a) :
    onStore (fun s => (operation s).report) s = (.ok a, s.used (operation s.store).report) := by
  refine onStore_eq.mpr ⟨?_, rfl⟩
  rw [Store.Outcome.report, h]
  rfl

theorem onStore_report_error {α : Type} {operation : Store → Store.Outcome α} {e : StoreError}
    (h : (operation s.store).result = .error e) : onStore (fun s => (operation s).report) s =
      (.error (.failed (.store e)), s.used (operation s.store).report) := by
  refine onStore_eq.mpr ⟨?_, rfl⟩
  rw [Store.Outcome.report, h]
  rfl

theorem onStore_report_cases {α : Type} {operation : Store → Store.Outcome α} {result : Except Stop α}
    (h : onStore (fun s => (operation s).report) s = (result, s')) :
    s' = s.used (operation s.store).report ∧
      ((∃ a, (operation s.store).result = .ok a ∧ result = .ok a) ∨
        ∃ e, (operation s.store).result = .error e ∧ result = .error (.failed (.store e))) := by
  cases hresult : (operation s.store).result with
  | ok a =>
      cases (onStore_report_ok hresult).symm.trans h
      exact ⟨rfl, .inl ⟨a, rfl, rfl⟩⟩
  | error e =>
      cases (onStore_report_error hresult).symm.trans h
      exact ⟨rfl, .inr ⟨e, rfl, rfl⟩⟩

theorem finish_bind {α : Type} (attempt : Attempt) (f : Unit → Cycle σ α) (s : CycleState σ) :
    (finish attempt >>= f) s = f () (s.told [.attemptFinished attempt]) := rfl

theorem ofExcept_eq {α : Type} {e result : Except Stop α} :
    ofExcept e s = (result, s') ↔ e = result ∧ s = s' :=
  Prod.mk.injEq _ _ _ _ ▸ Iff.rfl

variable {registry : Registry σ} {clock : Nat → Timestamp} {result : Except Stop CycleReport}

theorem disable_cycling {w : σ} (hgreet : server.greet s.outside = (.ok geek, w))
    (hoff : geek.isDisabled = true)
    (h : disable (.start cause none) { s with outside := w } = (result, s')) :
    Cycling registry server clock cause s result s' := by
  rcases Call.bind_eq.mp h with ⟨stop, hclear, rfl⟩ | ⟨deleted, q, hclear, h⟩
  · obtain ⟨rfl, ⟨n, -, hstop⟩ | ⟨e, he, hstop⟩⟩ := onStore_report_cases hclear
    · cases hstop
    · cases hstop
      exact .kept hgreet hoff he
  · obtain ⟨rfl, ⟨n, hn, hok⟩ | ⟨e, -, hok⟩⟩ := onStore_report_cases hclear
    · rw [emit_bind, finish_bind, CycleState.told_told] at h
      cases hok
      cases h
      exact .emptied hgreet hoff hn
    · cases hok

def complete (registry : Registry σ) (server : Server σ) (clock : Nat → Timestamp)
    (cause : AttemptCause) (geek : Geek) (bad expiring : Nat) : Cycle σ CycleReport := do
  let components ← provisionAll server geek cause clock 1 registry.components
  let report : CycleReport := ⟨false, bad, expiring, components⟩
  emit (.cycleComplete bad expiring report.stored report.failures.length)
  return report

/-- What is left of a cycle that was greeted and goes on. -/
def proceed (registry : Registry σ) (server : Server σ) (clock : Nat → Timestamp)
    (cause : AttemptCause) (geek : Geek) : Cycle σ CycleReport := do
  let bad ← onStore geek.purge
  let cutoff ← ofExcept (cutoff (clock 0) (← get).policy)
  let expiring ← onStore fun s => (s.expire cutoff).report
  complete registry server clock cause geek bad expiring

theorem run_eq_crashed {w : σ} {why : Crash}
    (hgreet : server.greet s.outside = (.error (.crashed why), w)) :
    run registry server clock cause s = (.error (.crashed why), { s with outside := w }) :=
  Call.bind_eq.mpr (.inl ⟨_, attemptCall_eq.mpr ⟨_, w, hgreet, rfl, rfl⟩, rfl⟩)

theorem run_eq_unanswered {w : σ} {e : ProvisioningError}
    (hgreet : server.greet s.outside = (.error (.failed e), w)) :
    run registry server clock cause s = (.error (.failed e), CycleState.told { s with outside := w }
      [.attemptFinished ((Attempt.start cause none).withStatus (.failed e.kind))]) :=
  Call.bind_eq.mpr (.inr ⟨_, _, attemptCall_eq.mpr ⟨_, w, hgreet, rfl, rfl⟩, rfl⟩)

theorem run_eq_proceed {w : σ} (hgreet : server.greet s.outside = (.ok geek, w))
    (hon : geek.isDisabled = false) : run registry server clock cause s =
      proceed registry server clock cause geek (s.greeted cause geek w) := by
  cases hproceed : proceed registry server clock cause geek (s.greeted cause geek w) with
  | mk result s' =>
      unfold run
      refine Call.bind_eq.mpr (.inr ⟨_, _, attemptCall_eq.mpr ⟨_, w, hgreet, rfl, rfl⟩, ?_⟩)
      simp only [hon, Bool.false_eq_true, ite_false]
      exact hproceed

theorem run_eq_disable {w : σ} (hgreet : server.greet s.outside = (.ok geek, w))
    (hoff : geek.isDisabled = true) : run registry server clock cause s =
      disable (.start cause none) { s with outside := w } := by
  cases hdisable : disable (.start cause none) { s with outside := w } with
  | mk result s' =>
      unfold run
      refine Call.bind_eq.mpr (.inr ⟨_, _, attemptCall_eq.mpr ⟨_, w, hgreet, rfl, rfl⟩, ?_⟩)
      simp only [hoff, ite_true]
      exact hdisable

theorem proceed_cycling {w : σ} (hgreet : server.greet s.outside = (.ok geek, w))
    (hon : geek.isDisabled = false)
    (h : proceed registry server clock cause geek (s.greeted cause geek w) = (result, s')) :
    Cycling registry server clock cause s result s' := by
  rcases Call.bind_eq.mp h with ⟨stop, hcall, rfl⟩ | ⟨bad, q, hcall, h⟩
  · obtain ⟨hpurge, rfl⟩ := onStore_eq.mp hcall
    obtain ⟨e, he, rfl⟩ := mapError_eq_error.mp hpurge
    exact .unpurged hgreet hon he
  obtain ⟨hpurge, rfl⟩ := onStore_eq.mp hcall
  rw [mapError_eq_ok] at hpurge
  rw [get_bind] at h
  rcases Call.bind_eq.mp h with ⟨stop, hcall, rfl⟩ | ⟨limit, q, hcall, h⟩
  · obtain ⟨hclock, rfl⟩ := ofExcept_eq.mp hcall
    obtain ⟨why, hwhy, rfl⟩ := mapError_eq_error.mp hclock
    exact .unclocked hgreet hon hpurge hwhy
  obtain ⟨hclock, rfl⟩ := ofExcept_eq.mp hcall
  rw [cutoff, mapError_eq_ok] at hclock
  rcases Call.bind_eq.mp h with ⟨stop, hexpire, rfl⟩ | ⟨expiring, q, hexpire, h⟩
  · obtain ⟨rfl, ⟨n, -, hstop⟩ | ⟨e, he, hstop⟩⟩ := onStore_report_cases hexpire
    · cases hstop
    · cases hstop
      exact .unexpired hgreet hon hpurge hclock he
  obtain ⟨rfl, ⟨n, hn, hok⟩ | ⟨e, -, hok⟩⟩ := onStore_report_cases hexpire
  · cases hok
    have hclean : Cleaning server clock s geek w bad limit expiring :=
      ⟨hgreet, hon, hpurge, hclock, hn⟩
    rcases Call.bind_eq.mp h with ⟨stop, htour, rfl⟩ | ⟨reports, q, htour, h⟩
    · exact .stopped hclean (provisionAll_touring htour)
    · rw [emit_bind] at h
      cases h
      exact .finished hclean (provisionAll_touring htour)
  · cases hok

/-- Whatever the store holds and the partners do, a cycle goes in one of the ways. -/
theorem run_cycling (h : run registry server clock cause s = (result, s')) :
    Cycling registry server clock cause s result s' := by
  cases hgreet : server.greet s.outside with
  | mk answer w =>
      cases answer with
      | ok geek =>
          cases hoff : geek.isDisabled with
          | true => exact disable_cycling hgreet hoff (run_eq_disable hgreet hoff ▸ h)
          | false => exact proceed_cycling hgreet hoff (run_eq_proceed hgreet hoff ▸ h)
      | error stop =>
          cases stop with
          | failed e =>
              cases (run_eq_unanswered hgreet).symm.trans h
              exact .unanswered hgreet
          | crashed why =>
              cases (run_eq_crashed hgreet).symm.trans h
              exact .crashed hgreet

end Cycle

section

variable {registry : Registry σ} {server : Server σ} {clock : Nat → Timestamp} {cause : AttemptCause}
  {s s' : CycleState σ} {result : Except Stop CycleReport}

theorem Cleaning.proceed_eq {geek : Geek} {w : σ} {bad expiring : Nat} {cutoff : Timestamp}
    (h : Cleaning server clock s geek w bad cutoff expiring) :
    Cycle.proceed registry server clock cause geek (s.greeted cause geek w) =
      Cycle.complete registry server clock cause geek bad expiring (s.cleaned cause geek w cutoff) := by
  refine Call.bind_eq.mpr (.inr ⟨_, _, Cycle.onStore_eq.mpr ⟨mapError_eq_ok.mpr h.purged, rfl⟩, ?_⟩)
  rw [Cycle.get_bind]
  refine Call.bind_eq.mpr (.inr ⟨_, _, Cycle.ofExcept_eq.mpr ⟨mapError_eq_ok.mpr h.clocked, rfl⟩, ?_⟩)
  exact Call.bind_eq.mpr (.inr ⟨_, _, Cycle.onStore_report_ok h.expired, rfl⟩)

/-- Every way of `Cycling` is the one in which a cycle runs. -/
theorem Cycling.execution (h : Cycling registry server clock cause s result s') :
    Cycle.run registry server clock cause s = (result, s') := by
  cases h with
  | crashed hgreet => exact Cycle.run_eq_crashed hgreet
  | unanswered hgreet => exact Cycle.run_eq_unanswered hgreet
  | kept hgreet hoff hclear =>
      rw [Cycle.run_eq_disable hgreet hoff]
      exact Call.bind_eq.mpr (.inl ⟨_, Cycle.onStore_report_error hclear, rfl⟩)
  | emptied hgreet hoff hclear =>
      rw [Cycle.run_eq_disable hgreet hoff]
      refine Call.bind_eq.mpr (.inr ⟨_, _, Cycle.onStore_report_ok hclear, ?_⟩)
      rw [Cycle.emit_bind, Cycle.finish_bind, CycleState.told_told]
      rfl
  | unpurged hgreet hon hpurge =>
      rw [Cycle.run_eq_proceed hgreet hon]
      refine Call.bind_eq.mpr (.inl ⟨_, Cycle.onStore_eq.mpr ⟨?_, rfl⟩, rfl⟩)
      exact mapError_eq_error.mpr ⟨_, hpurge, rfl⟩
  | unclocked hgreet hon hpurge hclock =>
      rw [Cycle.run_eq_proceed hgreet hon]
      refine Call.bind_eq.mpr (.inr ⟨_, _, Cycle.onStore_eq.mpr ⟨mapError_eq_ok.mpr hpurge, rfl⟩, ?_⟩)
      rw [Cycle.get_bind]
      refine Call.bind_eq.mpr (.inl ⟨_, Cycle.ofExcept_eq.mpr ⟨?_, rfl⟩, rfl⟩)
      exact mapError_eq_error.mpr ⟨_, hclock, rfl⟩
  | unexpired hgreet hon hpurge hclock hexpire =>
      rw [Cycle.run_eq_proceed hgreet hon]
      refine Call.bind_eq.mpr (.inr ⟨_, _, Cycle.onStore_eq.mpr ⟨mapError_eq_ok.mpr hpurge, rfl⟩, ?_⟩)
      rw [Cycle.get_bind]
      refine Call.bind_eq.mpr (.inr ⟨_, _, Cycle.ofExcept_eq.mpr ⟨mapError_eq_ok.mpr hclock, rfl⟩, ?_⟩)
      exact Call.bind_eq.mpr (.inl ⟨_, Cycle.onStore_report_error hexpire, rfl⟩)
  | stopped hclean htour =>
      rw [Cycle.run_eq_proceed hclean.answered hclean.enabled, hclean.proceed_eq]
      exact Call.bind_eq.mpr (.inl ⟨_, htour.execution, rfl⟩)
  | finished hclean htour =>
      rw [Cycle.run_eq_proceed hclean.answered hclean.enabled, hclean.proceed_eq]
      exact Call.bind_eq.mpr (.inr ⟨_, _, htour.execution, rfl⟩)

end

/-- A service that greets with a bad window or none, and certifies nothing. -/
def Server.declaring (window : Option BadWindow) : Server Unit where
  greet := pure ⟨[], [], window, none, none⟩
  certify _ _ := pure []

end KeyPool
