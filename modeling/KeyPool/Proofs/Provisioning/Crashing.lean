import KeyPool.Console.Report
import KeyPool.Proofs.Provisioning.Cycling

/-! Where a cycle crashes, and where the command that drops keys does. The horizon up to which keys must
be valid is added to the clock unchecked, so a horizon past the calendar ends both. Beside that only a
batch that no memory holds makes a cycle crash, or a partner that crashes by itself. -/

namespace KeyPool

variable {σ : Type}

/-! ## The horizon -/

namespace Timestamp

theorem add?_eq_none {t : Timestamp} {span : Span} : t.add? span = none ↔
    ¬ (minClock ≤ t.clock + span.nanos ∧ t.clock + span.nanos ≤ maxClock) := by
  unfold add? ofClock?
  split
  · rename_i hshown
    rw [dif_pos t.offset_bounds]
    simp [hshown]
  · rename_i hunshown
    simpa using hunshown

/-- The calendar ends within some seconds of the time that a clock shows, of which no more than
`2 ^ 63 - 1` are counted. -/
def CalendarEndsWithin (t : Timestamp) (seconds : Nat) : Prop :=
  maxClock < t.clock + (min seconds 9223372036854775807 : Nat) * 1000000000

/-- A clock cannot be moved on by a horizon that lies past the calendar, and by every other it can. -/
theorem move_horizon_eq_error {t : Timestamp} {seconds : Nat} {why : Crash} :
    t.move (Policy.horizon seconds) = .error why ↔
      why = .clockOverflow ∧ t.CalendarEndsWithin seconds := by
  have hnone : t.add? (Policy.horizon seconds) = none ↔ t.CalendarEndsWithin seconds := by
    unfold CalendarEndsWithin
    have hspan : (Policy.horizon seconds).nanos =
        (min seconds 9223372036854775807 : Nat) * 1000000000 := rfl
    have hfirst : minClock ≤ t.clock := t.clock_bounds.1
    rw [add?_eq_none, hspan]
    omega
  rw [← hnone, move]
  cases t.add? (Policy.horizon seconds) with
  | none => simp [eq_comm]
  | some later => simp

end Timestamp

/-! ## Attempts -/

def Call.Crashes {α : Type} (c : Call σ α) (why : Crash) : Prop :=
  ∃ w w', c w = (.error (.crashed why), w')

/-- A component, or the service that certifies its keys, crashes by itself. -/
def Component.Crashes (component : Component σ) (server : Server σ) (geek : Geek) (why : Crash) :
    Prop :=
  Call.Crashes component.batchSize why ∨ Call.Crashes component.newKey why ∨
    (∃ keys, Call.Crashes (component.signRequest geek keys) why) ∨
      ∃ csr, Call.Crashes (server.certify csr geek.challenge) why

/-- A batch for which there is no room has more keys than any policy of a device asks for. -/
theorem Batch.large_of_isHoldable {size : Nat} (h : isHoldable size = false) :
    9223372036854775808 ≤ size * 48 := by
  simpa [isHoldable] using h

theorem Batch.large_of_isListable {needed batchSize : Nat} (h : isListable needed batchSize = false) :
    9223372036854775808 ≤ needed * 48 := by
  have hmany : 1152921504606846976 ≤ needed / batchSize := by simpa [isListable] using h
  have hneeded : needed / batchSize ≤ needed := Nat.div_le_self needed batchSize
  omega

section

variable {component : Component σ} {server : Server σ} {geek : Geek} {why : Crash}

/-- A batch crashes where a call does, or where it is too large. -/
theorem Requesting.crash {size made : Nat} {w last : σ} {calls : List CallRecord}
    (h : Requesting component server geek size w made calls (.error (.crashed why)) last) :
    component.Crashes server geek why ∨
      (why = .capacityOverflow ∧ 9223372036854775808 ≤ size * 48) := by
  cases h with
  | tooLarge hroom => exact .inr ⟨rfl, Batch.large_of_isHoldable hroom⟩
  | notMade hroom hkeys hfew hstop => exact .inl (.inr (.inl ⟨_, _, hstop⟩))
  | notSigned hroom hkeys hall hstop => exact .inl (.inr (.inr (.inl ⟨_, _, _, hstop⟩)))
  | notAnswered hroom hkeys hall hcsr hstop => exact .inl (.inr (.inr (.inr ⟨_, _, _, hstop⟩)))

variable {policy : Policy} {now : Timestamp} {p p' : Progress σ}

theorem Provision.run_crash
    (h : run policy now component server geek p = (.error (.crashed why), p')) :
    component.Crashes server geek why ∨
      (why = .capacityOverflow ∧ 9223372036854775808 ≤ policy.extraKeys * 48) := by
  obtain ⟨q, hfill, rfl⟩ := run_eq_iff.mp h
  rcases fillPool_cases hfill with
    ⟨-, -, calls, hends⟩ | ⟨free, reported, q', -, -, hstart, hbatches⟩
  · generalize q.outside = last at hends
    cases hends with
    | unasked hfree hshort hstop => exact .inl (.inl ⟨_, _, hstop⟩)
    | unlisted hfree hshort hreported hne hlong =>
        have hlarge := Batch.large_of_isListable hlong
        exact .inr ⟨rfl, by omega⟩
  · obtain ⟨xs, made, calls, hdone⟩ := storeBatches_committed hbatches
    obtain ⟨w, stop?, -, hend, hresult⟩ := hdone.ended
    generalize hrest : (Batch.sizes (policy.extraKeys - free)
      (Batch.capped reported policy.maxBatchSize)).drop xs.length = rest at hend
    cases hend with
    | finished => cases hresult
    | refused hrequest =>
        cases hresult
        rcases hrequest.crash with hcrash | ⟨hwhy, hlarge⟩
        · exact .inl hcrash
        · have hsize := Batch.le_of_mem_sizes (List.mem_of_mem_drop (hrest ▸ List.mem_cons_self))
          exact .inr ⟨hwhy, by omega⟩
    | rejected hrequest he => cases hresult

end

/-! ## Cycles -/

theorem Touring.crash {server : Server σ} {geek : Geek} {cause : AttemptCause}
    {clock : Nat → Timestamp} {reading : Nat} {components : List (Component σ)} {s s' : CycleState σ}
    {result : Except Stop (List ComponentReport)} {why : Crash}
    (h : Touring server geek cause clock reading components s result s')
    (hwhy : result = .error (.crashed why)) :
    ∃ component ∈ components, component.Crashes server geek why ∨
      (why = .capacityOverflow ∧ 9223372036854775808 ≤ s.policy.extraKeys * 48) := by
  induction h with
  | done => cases hwhy
  | crashed hrun =>
      cases hwhy
      exact ⟨_, List.mem_cons_self, Provision.run_crash hrun⟩
  | aborted hrun hstore => cases hwhy
  | next hrun hstore hrest ih =>
      rename_i component rest s s' outcome p reports
      obtain ⟨c, hc, hcrash⟩ := ih (map_eq_error.mp hwhy)
      exact ⟨c, List.mem_cons_of_mem _ hc, hcrash⟩

/-- Where a cycle crashes. A horizon past the calendar ends it after the bad window of the service was
processed, whether the service asks for that horizon or the device. Beside it only a partner crashes a
cycle, or a policy that asks for more keys than can be addressed. Where there is none of these, the
cycle comes to an answer. -/
structure CrashingSpec (registry : Registry σ) (server : Server σ) (clock : Nat → Timestamp)
    (cause : AttemptCause) (s : CycleState σ) : Prop where
  overflow : ∀ geek w bad, server.greet s.outside = (.ok geek, w) → geek.isDisabled = false →
    (geek.purge s.store).result = .ok bad →
      (clock 0).CalendarEndsWithin (s.policy.following geek).lookaheadSeconds →
        Cycle.run registry server clock cause s =
          (.error (.crashed .clockOverflow), s.purged cause geek w)
  causes : ∀ why s', Cycle.run registry server clock cause s = (.error (.crashed why), s') →
    Call.Crashes server.greet why ∨ ∃ geek w, server.greet s.outside = (.ok geek, w) ∧
      geek.isDisabled = false ∧
        ((why = .clockOverflow ∧
            (clock 0).CalendarEndsWithin (s.policy.following geek).lookaheadSeconds) ∨
          ∃ component ∈ registry.components, component.Crashes server geek why ∨
            (why = .capacityOverflow ∧
              9223372036854775808 ≤ (s.policy.following geek).extraKeys * 48))
  answered : (∀ why, ¬ Call.Crashes server.greet why) →
    (∀ geek w, server.greet s.outside = (.ok geek, w) →
      ¬ (clock 0).CalendarEndsWithin (s.policy.following geek).lookaheadSeconds ∧
        (s.policy.following geek).extraKeys * 48 < 9223372036854775808 ∧
          ∀ component ∈ registry.components, ∀ why, ¬ component.Crashes server geek why) →
      (∃ report s', Cycle.run registry server clock cause s = (.ok report, s')) ∨
        ∃ e s', Cycle.run registry server clock cause s = (.error (.failed e), s')

/-- Where the command crashes that drops the keys that end within some seconds, or within those of the
policy. -/
structure Console.PurgeSpec (c : Console.Context) (within? : Option Nat) : Prop where
  crashed_iff : ∀ why, ((Command.purgeExpiring within?).report c).ending = .crashed why ↔
    why = .clockOverflow ∧ c.now.CalendarEndsWithin (within?.getD c.policy.lookaheadSeconds)
  kept : ∀ why, ((Command.purgeExpiring within?).report c).ending = .crashed why →
    ((Command.purgeExpiring within?).report c).store = c.store

section

variable {registry : Registry σ} {server : Server σ} {clock : Nat → Timestamp} {cause : AttemptCause}
  {s s' : CycleState σ}

theorem Cycling.crash {why : Crash}
    (h : Cycling registry server clock cause s (.error (.crashed why)) s') :
    Call.Crashes server.greet why ∨ ∃ geek w, server.greet s.outside = (.ok geek, w) ∧
      geek.isDisabled = false ∧
        ((why = .clockOverflow ∧
            (clock 0).CalendarEndsWithin (s.policy.following geek).lookaheadSeconds) ∨
          ∃ component ∈ registry.components, component.Crashes server geek why ∨
            (why = .capacityOverflow ∧
              9223372036854775808 ≤ (s.policy.following geek).extraKeys * 48)) := by
  cases h with
  | crashed hgreet => exact .inl ⟨_, _, hgreet⟩
  | unclocked hgreet hon hpurge hclock =>
      exact .inr ⟨_, _, hgreet, hon, .inl (Timestamp.move_horizon_eq_error.mp hclock)⟩
  | stopped hclean htour =>
      exact .inr ⟨_, _, hclean.answered, hclean.enabled, .inr (htour.crash rfl)⟩

end

namespace Console

variable {c : Context} {within? : Option Nat}

theorem deletionReport_ending (delete : Store → Store.Outcome Nat) (say : Nat → Line) (why : Crash) :
    (deletionReport c delete say).ending ≠ .crashed why := by
  unfold deletionReport
  simp only
  split <;> exact Ending.noConfusion

theorem purgeReport_eq : purgeReport c within? =
    match c.now.move (Policy.horizon (within?.getD c.policy.lookaheadSeconds)) with
    | .error cause => ⟨[], .crashed cause, c.store⟩
    | .ok cutoff =>
      deletionReport c (·.expire cutoff) fun deleted =>
        Line.bold .green <|
          "已删除 " ++ toString deleted ++ " 个在 " ++ cutoff.display ++ " 前过期的密钥" := by
  cases within? <;> rfl

theorem purgeReport_crashed_iff {why : Crash} : (purgeReport c within?).ending = .crashed why ↔
    c.now.move (Policy.horizon (within?.getD c.policy.lookaheadSeconds)) = .error why := by
  rw [purgeReport_eq]
  cases c.now.move (Policy.horizon (within?.getD c.policy.lookaheadSeconds)) with
  | error cause => simp
  | ok cutoff => simp [deletionReport_ending]

theorem purge_spec (c : Context) (within? : Option Nat) : PurgeSpec c within? := by
  refine ⟨fun why => purgeReport_crashed_iff.trans Timestamp.move_horizon_eq_error, ?_⟩
  intro why hwhy
  change (purgeReport c within?).store = c.store
  rw [purgeReport_eq, purgeReport_crashed_iff.mp hwhy]

end Console

/-- A cycle, and the command that drops keys, crash where the horizon takes the clock past the
calendar, and beside that only where memory or a partner fails. -/
theorem crashing_spec (registry : Registry σ) (server : Server σ) (clock : Nat → Timestamp)
    (cause : AttemptCause) (s : CycleState σ) (c : Console.Context) (within? : Option Nat) :
    CrashingSpec registry server clock cause s ∧ Console.PurgeSpec c within? := by
  refine ⟨⟨?_, fun why s' h => (Cycle.run_cycling h).crash, ?_⟩, Console.purge_spec c within?⟩
  · intro geek w bad hgreet hon hpurge hends
    have hclock : (clock 0).move (s.policy.following geek).lookahead = .error .clockOverflow :=
      Timestamp.move_horizon_eq_error.mpr ⟨rfl, hends⟩
    exact Cycling.execution (.unclocked hgreet hon hpurge hclock)
  · intro hserver hpartners
    cases hrun : Cycle.run registry server clock cause s with
    | mk result s' =>
        cases result with
        | ok report => exact .inl ⟨report, s', rfl⟩
        | error stop =>
            cases stop with
            | failed e => exact .inr ⟨e, s', rfl⟩
            | crashed why =>
                exfalso
                rcases (Cycle.run_cycling hrun).crash with hgreet | ⟨geek, w, hgreet, -, hcrash⟩
                · exact hserver why hgreet
                · obtain ⟨hwithin, hfew, hsound⟩ := hpartners geek w hgreet
                  rcases hcrash with ⟨-, hends⟩ | ⟨component, hmem, hcrash | ⟨-, hmany⟩⟩
                  · exact hwithin hends
                  · exact hsound component hmem why hcrash
                  · omega

/-- The greatest horizon that is counted in full, in 1970. -/
def Policy.boundless : Policy := { Policy.default with lookaheadSeconds := 9223372036854775807 }

/-- With a horizon of `2 ^ 63 - 1` seconds a cycle crashes over an empty store and no component at all,
and so does the command. -/
theorem crashing_spec_boundless :
    (Cycle.run .empty (.declaring none) (fun _ => .epoch) .scheduled ⟨.empty, (), .boundless, []⟩).1 =
        .error (.crashed .clockOverflow) ∧
      ((Console.Command.purgeExpiring none).report ⟨.empty, false, "", .boundless, .epoch⟩).ending =
        .crashed .clockOverflow := by
  obtain ⟨hcycle, hcommand⟩ := crashing_spec .empty (.declaring none) (fun _ => .epoch) .scheduled
    ⟨.empty, (), .boundless, []⟩ ⟨.empty, false, "", .boundless, .epoch⟩ none
  have hends : Timestamp.epoch.CalendarEndsWithin Policy.boundless.lookaheadSeconds := by
    unfold Timestamp.CalendarEndsWithin
    decide
  refine ⟨?_, (hcommand.crashed_iff .clockOverflow).mpr ⟨rfl, hends⟩⟩
  rw [hcycle.overflow ⟨[], [], none, none, none⟩ () 0 rfl rfl rfl hends]

end KeyPool
