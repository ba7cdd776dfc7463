import KeyPool.Proofs.Provisioning.Accounting

/-! What a cycle reports of its attempts. There is one in which the service is greeted, and one for each
component whose provisioning is started. However the cycle goes, each is said to be over exactly once,
unless the service turns provisioning off and the store cannot be emptied. -/

namespace KeyPool

variable {σ : Type}

namespace Event

def finished (events : List Event) : List Event :=
  events.filter (·.describe.message = "provisioning attempt finished")

theorem attempt?_eq_some {event : Event} {attempt : Attempt} :
    event.attempt? = some attempt ↔ event = .attemptFinished attempt := by
  cases event <;> simp [attempt?]

theorem message_eq_finished (event : Event) :
    event.describe.message = "provisioning attempt finished" ↔ event.attempt? ≠ none := by
  cases event with
  | store event => cases event <;> simp [describe, StoreEvent.describe, attempt?]
  | _ => simp [describe, attempt?]

theorem finished_eq (events : List Event) :
    finished events = (attempts events).map .attemptFinished := by
  induction events with
  | nil => rfl
  | cons event events ih =>
      have hmessage := event.message_eq_finished
      unfold finished attempts at ih ⊢
      cases hattempt : event.attempt? with
      | none =>
          rw [List.filterMap_cons_none hattempt, ← ih, List.filter_cons_of_neg]
          simpa [hattempt] using hmessage
      | some attempt =>
          rw [List.filterMap_cons_some hattempt, List.map_cons, ← ih, List.filter_cons_of_pos,
            attempt?_eq_some.mp hattempt]
          simpa [hattempt] using hmessage

end Event

/-! ## Attempts for components -/

/-- An attempt for a component, as it was at its end, and what came of it. -/
structure Trial (σ : Type) where
  component : Component σ
  result : Except Stop Nat
  attempt : Attempt

/-- The attempts that are started for components, for the first of which the clock is read `reading`
times before. Each goes on from what is there after the one before it. One that crashes or that the
store fails is the last. -/
inductive Trying (server : Server σ) (geek : Geek) (cause : AttemptCause) (clock : Nat → Timestamp) :
    Nat → List (Component σ) → CycleState σ → List (Trial σ) → Prop where
  | done {reading : Nat} {s : CycleState σ} : Trying server geek cause clock reading [] s []
  | crashed {reading : Nat} {component : Component σ} {rest : List (Component σ)} {s : CycleState σ}
      {why : Crash} {p : Progress σ}
      (hrun : Cycle.attempt server geek cause (clock reading) component s = (.error (.crashed why), p)) :
      Trying server geek cause clock reading (component :: rest) s
        [⟨component, .error (.crashed why), p.attempt⟩]
  | aborted {reading : Nat} {component : Component σ} {rest : List (Component σ)} {s : CycleState σ}
      {e : ProvisioningError} {p : Progress σ}
      (hrun : Cycle.attempt server geek cause (clock reading) component s = (.error (.failed e), p))
      (hstore : e.isStore = true) :
      Trying server geek cause clock reading (component :: rest) s
        [⟨component, .error (.failed e), p.attempt⟩]
  | next {reading : Nat} {component : Component σ} {rest : List (Component σ)} {s : CycleState σ}
      {outcome : Except ProvisioningError Nat} {p : Progress σ} {trials : List (Trial σ)}
      (hrun : Cycle.attempt server geek cause (clock reading) component s =
        (outcome.mapError .failed, p))
      (hstore : ∀ e, outcome = .error e → e.isStore = false)
      (hrest : Trying server geek cause clock (reading + 1) rest
        ((s.tried p).told
          (.attemptFinished p.attempt :: (ComponentReport.mk component.name outcome).remark)) trials) :
      Trying server geek cause clock reading (component :: rest) s
        (⟨component, outcome.mapError .failed, p.attempt⟩ :: trials)

/-- The attempt is that of its component, and its status says what came of it. -/
structure Trial.IsOwn (trial : Trial σ) (cause : AttemptCause) : Prop where
  cause : trial.attempt.cause = cause
  component : trial.attempt.component = some trial.component.name
  status : trial.attempt.status = .ofResult trial.result

theorem Cycle.attempt_isOwn {server : Server σ} {geek : Geek} {cause : AttemptCause} {now : Timestamp}
    {component : Component σ} {s : CycleState σ} {result : Except Stop Nat} {p : Progress σ}
    (h : attempt server geek cause now component s = (result, p)) :
    Trial.IsOwn ⟨component, result, p.attempt⟩ cause ∧
      Event.attempts p.events = Event.attempts s.events := by
  have hgoes : Progress.GoesOn ⟨s.store, s.outside, .ofComponent cause component.name, s.events⟩
      (attempt server geek cause now component s).2 := Provision.run_goesOn _
  obtain ⟨q, -, hq⟩ := Provision.run_eq_iff.mp h
  rw [h] at hgoes
  refine ⟨⟨hgoes.cause, hgoes.component, ?_⟩, hgoes.attempts⟩
  rw [← hq]
  rfl

section

variable {server : Server σ} {geek : Geek} {cause : AttemptCause} {clock : Nat → Timestamp}
  {reading : Nat} {components : List (Component σ)} {s s' : CycleState σ} {trials : List (Trial σ)}

theorem Trying.isOwn (h : Trying server geek cause clock reading components s trials) :
    ∀ trial ∈ trials, trial.IsOwn cause := by
  induction h with
  | done => simp
  | crashed hrun => simpa using (Cycle.attempt_isOwn hrun).1
  | aborted hrun hstore => simpa using (Cycle.attempt_isOwn hrun).1
  | next hrun hstore hrest ih =>
      exact List.forall_mem_cons.mpr ⟨(Cycle.attempt_isOwn hrun).1, ih⟩

theorem Trying.among (h : Trying server geek cause clock reading components s trials) :
    trials.map (·.component) <+: components := by
  induction h with
  | done => exact List.nil_prefix
  | crashed hrun => exact List.prefix_append [_] _
  | aborted hrun hstore => exact List.prefix_append [_] _
  | next hrun hstore hrest ih => exact List.prefix_cons_inj _ |>.mpr ih

/-- Unless it crashes, going through components says of all attempts that they are over. -/
theorem Touring.trying {result : Except Stop (List ComponentReport)}
    (h : Touring server geek cause clock reading components s result s')
    (hcrash : ∀ why, result ≠ .error (.crashed why)) : ∃ trials,
      Trying server geek cause clock reading components s trials ∧
        Event.attempts s'.events = Event.attempts s.events ++ trials.map (·.attempt) ∧
        ((∃ reports, result = .ok reports) → trials.map (·.component) = components) := by
  induction h with
  | done => exact ⟨[], .done, (List.append_nil _).symm, fun _ => rfl⟩
  | crashed hrun => exact absurd rfl (hcrash _)
  | aborted hrun hstore =>
      rename_i reading component rest s e p
      have htried : Event.attempts (s.tried p).events = Event.attempts s.events :=
        (Cycle.attempt_isOwn hrun).2
      refine ⟨_, .aborted hrun hstore, ?_, ?_⟩
      · rw [CycleState.attempts_told, htried]
        rfl
      · rintro ⟨reports, hok⟩
        cases hok
  | next hrun hstore hrest ih =>
      rename_i reading component rest s s' outcome p result
      have htried : Event.attempts (s.tried p).events = Event.attempts s.events :=
        (Cycle.attempt_isOwn hrun).2
      have hcalm : ∀ why, result ≠ .error (.crashed why) := by
        rintro why rfl
        exact hcrash why rfl
      obtain ⟨trials, htrying, hattempts, hall⟩ := ih hcalm
      refine ⟨_, .next hrun hstore htrying, ?_, ?_⟩
      · rw [hattempts, CycleState.attempts_told, Event.attempts_finished,
          ComponentReport.attempts_remark, htried, List.append_assoc]
        rfl
      · rintro ⟨reports, hok⟩
        obtain ⟨later, hlater, -⟩ := map_eq_ok.mp hok
        rw [List.map_cons, hall ⟨later, hlater⟩]

end

/-! ## Whole cycles -/

/-- The service turns provisioning off, and the store cannot be emptied. -/
def Server.Thwarted (server : Server σ) (s : CycleState σ) : Prop :=
  ∃ geek w e, server.greet s.outside = (.ok geek, w) ∧ geek.isDisabled = true ∧
    s.store.clear.result = .error e

/-- The attempts that a cycle starts for components. It starts none unless it comes to them. -/
inductive Starting (registry : Registry σ) (server : Server σ) (clock : Nat → Timestamp)
    (cause : AttemptCause) (s : CycleState σ) : List (Trial σ) → Prop where
  | cleaned {geek : Geek} {w : σ} {bad : Nat} {cutoff : Timestamp} {expiring : Nat}
      {trials : List (Trial σ)} (hclean : Cleaning server clock s geek w bad cutoff expiring)
      (htrying : Trying server geek cause clock 1 registry.components
        (s.cleaned cause geek w cutoff) trials) :
      Starting registry server clock cause s trials
  | stopped (hnone : ∀ geek w bad cutoff expiring,
        ¬ Cleaning server clock s geek w bad cutoff expiring) :
      Starting registry server clock cause s []

/-- What a cycle reports of its attempts, where it starts some for components, in order and from the
first on. The attempt in which the service is greeted is over first, and then each of these, once. If
the cycle is thwarted there is only the first, and it is never said to be over. -/
structure Reporting (registry : Registry σ) (server : Server σ) (cause : AttemptCause)
    (s : CycleState σ) (result : Except Stop CycleReport) (s' : CycleState σ)
    (trials : List (Trial σ)) : Prop where
  among : trials.map (·.component) <+: registry.components
  own : ∀ trial ∈ trials, trial.IsOwn cause
  all : ∀ report, result = .ok report → report.disabled = false →
    trials.map (·.component) = registry.components
  told : ¬ server.Thwarted s → ∃ status, Event.finished s'.events = Event.finished s.events ++
    .attemptFinished ((Attempt.start cause none).withStatus status) ::
      trials.map fun trial => .attemptFinished trial.attempt
  dropped : server.Thwarted s → trials = [] ∧ Event.finished s'.events = Event.finished s.events ∧
    ∃ e, result = .error (.failed (.store e))

/-- Up to where a bad window is processed, the only attempt is the one in which it was greeted. -/
theorem CycleState.attempts_purged (s : CycleState σ) (cause : AttemptCause) (geek : Geek) (w : σ) :
    Event.attempts (s.purged cause geek w).events =
      Event.attempts s.events ++ [.start cause none] := by
  change Event.attempts ((s.events ++ [.attemptFinished (.start cause none)]) ++
    (geek.purge s.store).events) = _
  simp only [Event.attempts_append, Geek.attempts_purge, List.append_nil]
  rfl

theorem CycleState.attempts_emptied (s : CycleState σ) (w : σ) :
    Event.attempts (CycleState.used { s with outside := w } s.store.clear.report).events =
      Event.attempts s.events := by
  change Event.attempts (s.events ++ s.store.clear.events.map .store) = _
  rw [Event.attempts_append, Event.attempts_store, List.append_nil]

section

variable {registry : Registry σ} {server : Server σ} {clock : Nat → Timestamp} {cause : AttemptCause}
  {geek : Geek} {s s' : CycleState σ} {result : Except Stop CycleReport} {trials : List (Trial σ)}

/-- A cycle that finds provisioning turned off does not come to the components. -/
theorem Starting.of_disabled {w : σ} (hgreet : server.greet s.outside = (.ok geek, w))
    (hoff : geek.isDisabled = true) : Starting registry server clock cause s [] := by
  refine .stopped ?_
  intro geek' w' bad cutoff expiring hclean
  cases hgreet.symm.trans hclean.answered
  cases hoff.symm.trans hclean.enabled

theorem Server.not_thwarted {w : σ} (hgreet : server.greet s.outside = (.ok geek, w))
    (hon : geek.isDisabled = false) : ¬ server.Thwarted s := by
  rintro ⟨geek', w', e, hgreet', hoff, -⟩
  cases hgreet.symm.trans hgreet'
  cases hon.symm.trans hoff

theorem Reporting.of_attempts (status : AttemptStatus) (hthwarted : ¬ server.Thwarted s)
    (hamong : trials.map (·.component) <+: registry.components)
    (hown : ∀ trial ∈ trials, trial.IsOwn cause)
    (hall : ∀ report, result = .ok report → report.disabled = false →
      trials.map (·.component) = registry.components)
    (hattempts : Event.attempts s'.events = Event.attempts s.events ++
      (Attempt.start cause none).withStatus status :: trials.map (·.attempt)) :
    Reporting registry server cause s result s' trials := by
  refine ⟨hamong, hown, hall, fun _ => ⟨status, ?_⟩, fun h => absurd h hthwarted⟩
  rw [Event.finished_eq, Event.finished_eq, hattempts, List.map_append, List.map_cons, List.map_map]
  rfl

/-- A cycle that does not come to the components reports the one attempt that it started. -/
theorem Reporting.of_none (status : AttemptStatus) (hthwarted : ¬ server.Thwarted s)
    (hstop : ∀ report, result = .ok report → report.disabled = true)
    (hattempts : Event.attempts s'.events = Event.attempts s.events ++
      [(Attempt.start cause none).withStatus status]) :
    Reporting registry server cause s result s' [] := by
  refine .of_attempts status hthwarted List.nil_prefix (fun _ h => absurd h List.not_mem_nil) ?_
    hattempts
  intro report hok hon
  cases (hstop report hok).symm.trans hon

/-- The one that cannot empty the store then reports none. -/
theorem Reporting.of_thwarted {w : σ} {e : StoreError}
    (hgreet : server.greet s.outside = (.ok geek, w)) (hoff : geek.isDisabled = true)
    (hclear : s.store.clear.result = .error e) :
    Reporting registry server cause s (.error (.failed (.store e)))
      (CycleState.used { s with outside := w } s.store.clear.report) [] := by
  have hthwarted : server.Thwarted s := ⟨geek, w, e, hgreet, hoff, hclear⟩
  refine ⟨List.nil_prefix, fun _ h => absurd h List.not_mem_nil, ?_, fun h => absurd hthwarted h,
    fun _ => ⟨rfl, ?_, e, rfl⟩⟩
  · intro report hok
    cases hok
  · rw [Event.finished_eq, Event.finished_eq, CycleState.attempts_emptied]

theorem Touring.reporting {w : σ} {bad : Nat} {cutoff : Timestamp} {expiring : Nat}
    {reports : Except Stop (List ComponentReport)} {events : List Event}
    (hclean : Cleaning server clock s geek w bad cutoff expiring)
    (htour : Touring server geek cause clock 1 registry.components (s.cleaned cause geek w cutoff)
      reports s')
    (hcrash : ∀ why, reports ≠ .error (.crashed why)) (hevents : Event.attempts events = [])
    (hresult : ∀ report, result = .ok report → ∃ found, reports = .ok found) : ∃ trials,
      Starting registry server clock cause s trials ∧
        Reporting registry server cause s result (s'.told events) trials := by
  obtain ⟨trials, htrying, hattempts, hall⟩ := htour.trying hcrash
  refine ⟨trials, .cleaned hclean htrying, .of_attempts .unknown
    (Server.not_thwarted hclean.answered hclean.enabled) htrying.among htrying.isOwn
    (fun report hok _ => hall (hresult report hok)) ?_⟩
  rw [CycleState.attempts_told, hevents, List.append_nil, hattempts, CycleState.attempts_cleaned,
    List.append_assoc]
  rfl

/-- Every attempt of a cycle that does not crash is reported once, but for the one exception. -/
theorem reporting_spec (hrun : Cycle.run registry server clock cause s = (result, s'))
    (hcrash : ∀ why, result ≠ .error (.crashed why)) : ∃ trials,
      Starting registry server clock cause s trials ∧
        Reporting registry server cause s result s' trials := by
  have hfailed {e : ProvisioningError} (report : CycleReport)
      (h : Except.error (Stop.failed e) = .ok report) : report.disabled = true := by
    cases h
  cases Cycle.run_cycling hrun with
  | crashed hgreet => exact absurd rfl (hcrash _)
  | unanswered hgreet =>
      refine ⟨[], .stopped ?_, .of_none _ ?_ hfailed (CycleState.attempts_told _ _)⟩
      · intro geek w bad cutoff expiring hclean
        cases hgreet.symm.trans hclean.answered
      · rintro ⟨geek, w, e, hgreet', -⟩
        cases hgreet.symm.trans hgreet'
  | kept hgreet hoff hclear =>
      exact ⟨[], .of_disabled hgreet hoff, .of_thwarted hgreet hoff hclear⟩
  | emptied hgreet hoff hclear =>
      refine ⟨[], .of_disabled hgreet hoff, .of_none .disabled ?_ ?_ ?_⟩
      · rintro ⟨geek', w', e, -, -, hclear'⟩
        cases hclear.symm.trans hclear'
      · intro report hok
        cases hok
        rfl
      · rw [CycleState.attempts_told, CycleState.attempts_emptied]
        rfl
  | unpurged hgreet hon hpurge =>
      refine ⟨[], .stopped ?_, .of_none _ (Server.not_thwarted hgreet hon) hfailed
        (CycleState.attempts_purged _ _ _ _)⟩
      intro geek' w' bad cutoff expiring hclean
      cases hgreet.symm.trans hclean.answered
      cases hpurge.symm.trans hclean.purged
  | unclocked hgreet hon hpurge hclock => exact absurd rfl (hcrash _)
  | unexpired hgreet hon hpurge hclock hexpire =>
      refine ⟨[], .stopped ?_, .of_none _ (Server.not_thwarted hgreet hon) hfailed
        (CycleState.attempts_cleaned _ _ _ _ _)⟩
      intro geek' w' bad cutoff expiring hclean
      cases hgreet.symm.trans hclean.answered
      cases hclock.symm.trans hclean.clocked
      cases hexpire.symm.trans hclean.expired
  | stopped hclean htour =>
      rename_i geek w bad cutoff expiring stop
      have htold : s'.told [] = s' := by
        rw [CycleState.told, List.append_nil]
      rw [← htold]
      refine htour.reporting hclean ?_ rfl ?_
      · intro why hwhy
        cases hwhy
        exact hcrash why rfl
      · intro report hok
        cases hok
  | finished hclean htour =>
      refine htour.reporting hclean ?_ rfl fun _ _ => ⟨_, rfl⟩
      intro why hwhy
      cases hwhy

end

def Server.disabling : Server Unit where
  greet := pure ⟨[], [], none, some 0, none⟩
  certify _ _ := pure []

/-- A cycle whose store is held by a caller that crashed. -/
def CycleState.locked : CycleState Unit := ⟨⟨.empty, true⟩, (), .default, []⟩

/-- The store cannot be emptied, so the one attempt of the cycle is not reported at all. -/
theorem reporting_spec_thwarted : ∃ s', Cycle.run ⟨[]⟩ .disabling (fun _ => .epoch) .scheduled .locked =
      (.error (.failed (.store .lockPoisoned)), s') ∧
    Server.disabling.Thwarted .locked ∧ Event.finished s'.events = [] := by
  have hrun : Cycle.run ⟨[]⟩ .disabling (fun _ => .epoch) .scheduled .locked =
      (.error (.failed (.store .lockPoisoned)), CycleState.locked) := rfl
  have hthwarted : Server.disabling.Thwarted .locked := ⟨_, _, _, rfl, rfl, rfl⟩
  have hfailed : ∀ why, (Except.error (.failed (.store .lockPoisoned)) : Except Stop CycleReport) ≠
      .error (.crashed why) := by
    intro why h
    cases h
  obtain ⟨trials, -, hreporting⟩ := reporting_spec hrun hfailed
  exact ⟨_, hrun, hthwarted, (hreporting.dropped hthwarted).2.1⟩

end KeyPool
