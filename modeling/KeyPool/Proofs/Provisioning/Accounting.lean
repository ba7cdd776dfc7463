import KeyPool.Proofs.Provisioning.Frame

/-! What a cycle accounts for that comes to its end. Its report has all the rows that it dropped. Those
that it added are counted in its attempts, of which the report has only those that succeeded. -/

namespace KeyPool

variable {σ : Type}

/-! ## Attempts that are over -/

namespace Event

def attempt? : Event → Option Attempt
  | .attemptFinished attempt => some attempt
  | _ => none

def attempts (events : List Event) : List Attempt := events.filterMap attempt?

@[simp] theorem attempts_finished (attempt : Attempt) (events : List Event) :
    attempts (.attemptFinished attempt :: events) = attempt :: attempts events := rfl

theorem attempts_other {event : Event} (h : event.attempt? = none) : attempts [event] = [] := by
  rw [attempts, List.filterMap_cons_none h, List.filterMap_nil]

@[simp] theorem attempts_append (events more : List Event) :
    attempts (events ++ more) = attempts events ++ attempts more :=
  List.filterMap_append

@[simp] theorem attempts_store (events : List StoreEvent) : attempts (events.map .store) = [] := by
  simp [attempts, attempt?]

end Event

@[simp] theorem CycleState.attempts_told (s : CycleState σ) (events : List Event) :
    Event.attempts (s.told events).events = Event.attempts s.events ++ Event.attempts events :=
  Event.attempts_append _ _

@[simp] theorem ComponentReport.attempts_remark (r : ComponentReport) : Event.attempts r.remark = [] := by
  unfold remark
  cases r.outcome <;> rfl

theorem Geek.attempts_purge (geek : Geek) (s : Store) : Event.attempts (geek.purge s).events = [] := by
  unfold purge
  split
  · rfl
  · dsimp only
    split
    · exact Event.attempts_store _
    · rw [Event.attempts_append, Store.Outcome.report, Event.attempts_store]
      rfl
    · exact Event.attempts_store _

/-- Up to where a cycle comes to the components, the only attempt is the one in which it was greeted. -/
theorem CycleState.attempts_cleaned (s : CycleState σ) (cause : AttemptCause) (geek : Geek) (w : σ)
    (cutoff : Timestamp) : Event.attempts (s.cleaned cause geek w cutoff).events =
      Event.attempts s.events ++ [.start cause none] := by
  change Event.attempts (((s.events ++ [.attemptFinished (.start cause none)]) ++
    (geek.purge s.store).events) ++ _) = _
  simp only [Event.attempts_append, Geek.attempts_purge, Store.Outcome.report, Event.attempts_store,
    List.append_nil]
  rfl

/-- An attempt goes on as the one that it was, and none is said to be over. -/
structure Progress.GoesOn (p p' : Progress σ) : Prop where
  cause : p'.attempt.cause = p.attempt.cause
  component : p'.attempt.component = p.attempt.component
  attempts : Event.attempts p'.events = Event.attempts p.events

theorem Progress.GoesOn.refl (p : Progress σ) : p.GoesOn p := ⟨rfl, rfl, rfl⟩

theorem Progress.GoesOn.trans {p q r : Progress σ} (h : p.GoesOn q) (h' : q.GoesOn r) : p.GoesOn r :=
  ⟨h'.cause.trans h.cause, h'.component.trans h.component, h'.attempts.trans h.attempts⟩

namespace Provision

variable {α β : Type}

/-- Wherever a course of an attempt starts, the attempt goes on in it. -/
def GoesOn (x : Provision σ α) : Prop := ∀ p : Progress σ, p.GoesOn (x p).2

theorem GoesOn.bind {x : Provision σ α} {f : α → Provision σ β} (hx : GoesOn x)
    (hf : ∀ a, GoesOn (f a)) : GoesOn (x >>= f) := by
  intro p
  change p.GoesOn (ExceptT.bindCont f (x p).1 (x p).2).2
  have hfirst := hx p
  cases (x p).1 with
  | error stop => exact hfirst
  | ok a => exact hfirst.trans (hf a _)

theorem pure_goesOn (a : α) : GoesOn (pure a : Provision σ α) := fun p => .refl p

theorem fail_goesOn (e : ProvisioningError) : GoesOn (fail e : Provision σ α) := fun p => .refl p

theorem needRoom_goesOn (available : Bool) : GoesOn (needRoom available : Provision σ Unit) := by
  cases available <;> exact fun p => .refl p

theorem call_goesOn (c : Call σ α) : GoesOn (call c) := fun _ => ⟨rfl, rfl, rfl⟩

theorem tally_goesOn {count : Attempt → Attempt}
    (hcount : ∀ a, (count a).cause = a.cause ∧ (count a).component = a.component) :
    GoesOn (tally count : Provision σ Unit) :=
  fun p => ⟨(hcount p.attempt).1, (hcount p.attempt).2, rfl⟩

theorem emit_goesOn {event : Event} (hevent : event.attempt? = none) :
    GoesOn (emit event : Provision σ Unit) := by
  intro p
  refine ⟨rfl, rfl, ?_⟩
  change Event.attempts (p.events ++ [event]) = Event.attempts p.events
  rw [Event.attempts_append, Event.attempts_other hevent, List.append_nil]

theorem onStore_goesOn (operation : Store → Store.Outcome α) :
    GoesOn (onStore fun s => (operation s).report : Provision σ α) := by
  intro p
  refine ⟨rfl, rfl, ?_⟩
  change Event.attempts (p.events ++ (operation p.store).events.map .store) = Event.attempts p.events
  rw [Event.attempts_append, Event.attempts_store, List.append_nil]

variable {policy : Policy} {now : Timestamp} {component : Component σ} {server : Server σ} {geek : Geek}

theorem generateKeys_goesOn (n : Nat) : GoesOn (generateKeys component n) := by
  induction n with
  | zero => exact pure_goesOn []
  | succ n ih =>
      refine .bind (call_goesOn _) fun key => .bind (tally_goesOn fun _ => ⟨rfl, rfl⟩) fun _ => ?_
      exact ih.bind fun keys => pure_goesOn (key :: keys)

theorem requestBatch_goesOn (size : Nat) : GoesOn (requestBatch component server geek size) := by
  refine .bind (needRoom_goesOn _) fun _ => .bind (generateKeys_goesOn size) fun keys => ?_
  refine .bind (call_goesOn _) fun csr => .bind (call_goesOn _) fun chains => ?_
  cases ResponseFault.certifyAll component.name keys chains with
  | ok records => exact pure_goesOn records
  | error fault => exact fail_goesOn _

theorem storeBatches_goesOn (batchSize index needed : Nat) :
    GoesOn (storeBatches component server geek batchSize index needed) := by
  -- every round needs fewer keys than the one before it
  induction needed using Nat.strongRecOn generalizing index with
  | ind needed ih =>
      rw [storeBatches]
      by_cases hnone : needed = 0 ∨ batchSize = 0
      · rw [if_pos hnone]
        exact pure_goesOn 0
      · rw [if_neg hnone]
        rw [not_or] at hnone
        refine .bind (requestBatch_goesOn _) fun records => .bind (onStore_goesOn _) fun _ => ?_
        refine .bind (tally_goesOn fun _ => ⟨rfl, rfl⟩) fun _ => .bind (emit_goesOn rfl) fun _ => ?_
        exact (ih _ (by omega) (index + 1)).bind fun n => pure_goesOn (records.length + n)

theorem fillPool_goesOn : GoesOn (fillPool policy now component server geek) := by
  refine .bind (onStore_goesOn _) fun free => .bind (tally_goesOn fun _ => ⟨rfl, rfl⟩) fun _ => ?_
  by_cases hneeded : Batch.shortfall policy.extraKeys free = 0
  · rw [if_pos hneeded]
    exact .bind (emit_goesOn rfl) fun _ => pure_goesOn 0
  · rw [if_neg hneeded]
    refine .bind (call_goesOn _) fun reported => ?_
    by_cases hzero : reported = 0
    · rw [if_pos hzero]
      exact fail_goesOn _
    · rw [if_neg hzero]
      refine .bind (needRoom_goesOn _) fun _ => .bind (emit_goesOn rfl) fun _ => ?_
      exact storeBatches_goesOn _ 0 _

theorem run_goesOn : GoesOn (run policy now component server geek) := by
  intro p
  have hfill : p.GoesOn (fillPool policy now component server geek p).2 := fillPool_goesOn p
  exact ⟨hfill.cause, hfill.component, hfill.attempts⟩

end Provision

/-! ## What comes of each component -/

/-- What comes of a component in a cycle: what is reported of it, its attempt when that is over, and the
keys that it stored. -/
structure Yield where
  report : ComponentReport
  attempt : Attempt
  keys : List AttestationKey

namespace Yield

/-- The keys are unbound keys of the component, and its attempt counts them, modulo `2 ^ 64`. The report
says how many they are where the attempt succeeded. -/
structure IsCounted (y : Yield) (cause : AttemptCause) : Prop where
  own : ∀ key ∈ y.keys, key.component = y.report.component ∧ key.assignment = none
  attempted : y.attempt.cause = cause ∧ y.attempt.component = some y.report.component
  counted : y.attempt.keysStored = y.keys.length % 18446744073709551616
  status : y.attempt.status = .ofResult (y.report.outcome.mapError .failed)
  reported : ∀ n, y.report.outcome = .ok n → n = y.keys.length

/-- The number of the keys that attempts stored before they failed. -/
def unreported (yields : List Yield) : Nat :=
  ((yields.filter (·.report.failed)).map (·.keys.length)).sum

variable {cause : AttemptCause} {yields : List Yield}

theorem IsCounted.stored_eq {y : Yield} (h : y.IsCounted cause) :
    y.report.stored = if y.report.failed then 0 else y.keys.length := by
  have hreported := h.reported
  unfold ComponentReport.stored ComponentReport.failed
  cases houtcome : y.report.outcome with
  | ok n => exact hreported n houtcome
  | error e => rfl

/-- The keys that are stored are those that are reported and those that are not. -/
theorem length_keys (h : ∀ y ∈ yields, y.IsCounted cause) : (yields.flatMap (·.keys)).length =
    (yields.map (·.report.stored)).sum + unreported yields := by
  induction yields with
  | nil => rfl
  | cons y yields ih =>
      have hrest := ih fun z hz => h z (List.mem_cons_of_mem y hz)
      have hfirst := (h y List.mem_cons_self).stored_eq
      unfold unreported at hrest ⊢
      rw [List.flatMap_cons, List.length_append, List.map_cons, List.sum_cons, hrest, hfirst,
        List.filter_cons]
      split
      · rw [List.map_cons, List.sum_cons]
        omega
      · omega

theorem unreported_eq_zero : unreported yields = 0 ↔
    ∀ y ∈ yields, y.report.failed = true → y.keys = [] := by
  simp only [unreported, List.sum_eq_zero_iff_forall_eq_nat, List.forall_mem_map, List.mem_filter,
    List.length_eq_zero_iff, and_imp]

end Yield

theorem CycleReport.stored_eq_sum (report : CycleReport) :
    report.stored = (report.components.map (·.stored)).sum := by
  rw [stored, List.sum_eq_foldl, List.foldl_map]

section

variable {registry : Registry σ} {server : Server σ} {clock : Nat → Timestamp} {cause : AttemptCause}
  {geek : Geek} {s s' : CycleState σ} {report : CycleReport}

theorem Cycle.attempt_counted {component : Component σ} {now : Timestamp} {p : Progress σ}
    {outcome : Except ProvisioningError Nat}
    (h : attempt server geek cause now component s = (outcome.mapError .failed, p)) :
    ∃ keys, p.store = s.store.add keys ∧ Event.attempts p.events = Event.attempts s.events ∧
      Yield.IsCounted ⟨⟨component.name, outcome⟩, p.attempt, keys⟩ cause := by
  obtain ⟨keys, hstore, hown, hreported, made, hcounts⟩ := Provision.run_adds h
  obtain ⟨q, -, hq⟩ := Provision.run_eq_iff.mp h
  have hgoes : Progress.GoesOn ⟨s.store, s.outside, .ofComponent cause component.name, s.events⟩
      (attempt server geek cause now component s).2 := Provision.run_goesOn _
  rw [h] at hgoes
  refine ⟨keys, hstore, hgoes.attempts, hown, ⟨hgoes.cause, hgoes.component⟩, ?_, ?_, ?_⟩
  · simpa [Attempt.ofComponent, Attempt.start] using hcounts.stored (Nat.zero_lt_succ _)
  · rw [← hq]
    rfl
  · rintro n rfl
    exact hreported n rfl

theorem Touring.yields {reading : Nat} {components : List (Component σ)}
    {result : Except Stop (List ComponentReport)} {reports : List ComponentReport}
    (h : Touring server geek cause clock reading components s result s') (hok : result = .ok reports) :
    ∃ yields : List Yield, yields.map (·.report) = reports ∧ (∀ y ∈ yields, y.IsCounted cause) ∧
      s'.store = s.store.add (yields.flatMap (·.keys)) ∧
        Event.attempts s'.events = Event.attempts s.events ++ yields.map (·.attempt) := by
  induction h generalizing reports with
  | done =>
      cases hok
      exact ⟨[], rfl, fun y hy => absurd hy List.not_mem_nil, rfl, (List.append_nil _).symm⟩
  | crashed hrun => cases hok
  | aborted hrun hstore => cases hok
  | next hrun hstore hrest ih =>
      rename_i reading component rest s s' outcome p result
      obtain ⟨reports, hreports, rfl⟩ := map_eq_ok.mp hok
      obtain ⟨keys, hadded, hattempts, hcounted⟩ := Cycle.attempt_counted hrun
      obtain ⟨yields, hyields, hall, hmore, hothers⟩ := ih hreports
      refine ⟨⟨⟨component.name, outcome⟩, p.attempt, keys⟩ :: yields, ?_, ?_, ?_, ?_⟩
      · rw [List.map_cons, hyields]
      · exact List.forall_mem_cons.mpr ⟨hcounted, hall⟩
      · rw [hmore, List.flatMap_cons, ← Store.add_add, ← hadded]
        rfl
      · have htried : Event.attempts (s.tried p).events = Event.attempts s.events := hattempts
        rw [hothers, CycleState.attempts_told, Event.attempts_finished, ComponentReport.attempts_remark,
          htried, List.append_assoc]
        rfl

/-! ## The balance of a cycle -/

/-- What a cycle accounts for that has come to its end, with what came of its components. The attempts
that are said to be over are the one in which the service was greeted and one for each component. The
rows that were not dropped are left, and the keys that were stored are behind them, of which the report
is short of those that failed attempts stored. -/
structure Accounted (registry : Registry σ) (cause : AttemptCause) (s s' : CycleState σ)
    (report : CycleReport) (yields : List Yield) : Prop where
  reported : yields.map (·.report) = report.components
  names : report.components.map (·.component) = registry.names
  counted : ∀ y ∈ yields, y.IsCounted cause
  attempts : Event.attempts s'.events =
    Event.attempts s.events ++ .start cause none :: yields.map (·.attempt)
  rows : ∃ keep last, s'.store.db.rows =
      s.store.db.rows.filter keep ++ KeyRow.numbered last (yields.flatMap (·.keys)) ∧
    s.store.db.rows.countP (fun row => !keep row) = report.badDeleted + report.expiringDeleted
  balance : s'.store.db.rows.length + (report.badDeleted + report.expiringDeleted) =
    s.store.db.rows.length + (report.stored + Yield.unreported yields)
  balanced_iff : s'.store.db.rows.length + (report.badDeleted + report.expiringDeleted) =
      s.store.db.rows.length + report.stored ↔
    ∀ y ∈ yields, y.report.failed = true → y.keys = []

theorem Accounted.of_rows {yields : List Yield} (hreports : yields.map (·.report) = report.components)
    (hnames : report.components.map (·.component) = registry.names)
    (hcounted : ∀ y ∈ yields, y.IsCounted cause)
    (hattempts : Event.attempts s'.events =
      Event.attempts s.events ++ .start cause none :: yields.map (·.attempt))
    (hrows : ∃ keep last, s'.store.db.rows =
        s.store.db.rows.filter keep ++ KeyRow.numbered last (yields.flatMap (·.keys)) ∧
      s.store.db.rows.countP (fun row => !keep row) = report.badDeleted + report.expiringDeleted) :
    Accounted registry cause s s' report yields := by
  have hstored : report.stored = (yields.map (·.report.stored)).sum := by
    rw [report.stored_eq_sum, ← hreports, List.map_map]
    rfl
  have hbalance : s'.store.db.rows.length + (report.badDeleted + report.expiringDeleted) =
      s.store.db.rows.length + (report.stored + Yield.unreported yields) := by
    obtain ⟨keep, last, hrows, hdropped⟩ := hrows
    rw [hrows, List.length_append, KeyRow.length_numbered, Yield.length_keys hcounted, ← hdropped,
      ← length_filter_add_countP keep s.store.db.rows, hstored]
    omega
  refine ⟨hreports, hnames, hcounted, hattempts, hrows, hbalance, ?_⟩
  rw [hbalance, ← Yield.unreported_eq_zero]
  omega

/-- A cycle that comes to its end reports what it dropped, and what its attempts stored that
succeeded. -/
theorem accounting_spec (hrun : Cycle.run registry server clock cause s = (.ok report, s'))
    (hon : report.disabled = false) : ∃ yields, Accounted registry cause s s' report yields := by
  cases Cycle.run_cycling hrun with
  | emptied hgreet hoff hclear => cases hon
  | finished hclean htour =>
      rename_i geek w bad cutoff expiring reports s'
      obtain ⟨limit, -, hlimit, -, -, hbad, hexpiring, hnames⟩ :=
        (Cycling.finished hclean htour).finished_eq hclean.answered hclean.enabled
      obtain rfl : limit = cutoff := Except.ok.inj (hlimit.symm.trans hclean.clocked)
      obtain ⟨yields, hreports, hcounted, hstore, hattempts⟩ := htour.yields rfl
      have hcleaned : Touched registry clock geek s (s.cleaned cause geek w limit) _ [] :=
        (CycleState.cleaned_touched hclean.clocked hclean.poisoned_eq).1
      have hrows := hcleaned.rows
      rw [List.append_nil] at hrows
      -- a row of both kinds is gone before the second deletion, which does not count it
      have hdropped : s.store.db.rows.countP (fun row =>
          !(!geek.condemns s.store row && !row.expiration.isBelow limit.toMillis)) =
            bad + expiring := by
        simp only [Bool.not_and, Bool.not_not, countP_or]
        exact congrArg₂ (· + ·) hbad.symm hexpiring.symm
      refine ⟨yields, .of_rows hreports hnames hcounted ?_
        ⟨_, (s.cleaned cause geek w limit).store.db.lastUsed, ?_, hdropped⟩⟩
      · rw [CycleState.attempts_told, Event.attempts_other rfl, List.append_nil, hattempts,
          CycleState.attempts_cleaned, List.append_assoc]
        rfl
      · change s'.store.db.rows = _
        rw [hstore, Store.add_rows, hrows]

end

/-! ## A component that fails halfway -/

/-- A component that gives its keys new names and takes one for a request. -/
def Component.numbering : Component Nat where
  name := "hal"
  batchSize := pure 1
  newKey := do
    modify (· + 1)
    return ⟨[(← get).toUInt8], (Bytes.selfSigned.drop 63).take 32⟩
  signRequest _ _ := pure []

def Server.certifyingOnce : Server Nat where
  greet := pure ⟨[], [], none, some 2, none⟩
  certify _ _ := do
    if (← get) = 1 then return [.selfSigned]
    else throw (.failed (.network ""))

/-- A cycle in which the only component gets one key of the two. -/
def CycleState.halfway : Except Stop CycleReport × CycleState Nat :=
  Cycle.run ⟨[.numbering]⟩ .certifyingOnce (fun _ => .epoch) .scheduled ⟨.empty, 0, .default, []⟩

theorem CycleState.halfway_eq : ∃ report s', halfway = (.ok report, s') ∧ report.disabled = false ∧
    report.badDeleted = 0 ∧ report.expiringDeleted = 0 ∧ report.stored = 0 ∧
      s'.store.db.rows.length = 1 := by
  have hfound : halfway.1.toOption.map (fun report =>
        (report.disabled, report.badDeleted, report.expiringDeleted, report.stored)) =
          some (false, 0, 0, 0) ∧ halfway.2.store.db.rows.length = 1 := by
    decide +kernel
  obtain ⟨hreport, hrows⟩ := hfound
  obtain ⟨report, hrun, hcounts⟩ := toOption_map_eq_some.mp hreport
  simp only [Prod.mk.injEq] at hcounts
  obtain ⟨hon, hbad, hexpiring, hstored⟩ := hcounts
  exact ⟨report, halfway.2, Prod.ext hrun rfl, hon, hbad, hexpiring, hstored, hrows⟩

/-- The key that is there is in no report, but its attempt has counted it. -/
theorem accounting_spec_halfway : ∃ report s' yields, CycleState.halfway = (.ok report, s') ∧
    Accounted ⟨[.numbering]⟩ .scheduled ⟨.empty, 0, .default, []⟩ s' report yields ∧
      Yield.unreported yields = 1 := by
  obtain ⟨report, s', hrun, hon, hbad, hexpiring, hstored, hrows⟩ := CycleState.halfway_eq
  obtain ⟨yields, haccounted⟩ := accounting_spec hrun hon
  refine ⟨report, s', yields, hrun, haccounted, ?_⟩
  have hbalance := haccounted.balance
  have hempty : Store.empty.db.rows.length = 0 := rfl
  rw [hrows, hbad, hexpiring, hstored, hempty] at hbalance
  omega

/-- A component that fails after its first batch leaves a key behind that the report does not have. -/
theorem accounting_exceptions : ∃ report s', CycleState.halfway = (.ok report, s') ∧
    report.disabled = false ∧
      s'.store.db.rows.length + (report.badDeleted + report.expiringDeleted) ≠
        Store.empty.db.rows.length + report.stored := by
  obtain ⟨report, s', hrun, hon, hbad, hexpiring, hstored, hrows⟩ := CycleState.halfway_eq
  refine ⟨report, s', hrun, hon, ?_⟩
  rw [hrows, hbad, hexpiring, hstored]
  decide

end KeyPool
