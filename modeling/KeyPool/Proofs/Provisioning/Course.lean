import KeyPool.Proofs.Provisioning.Batching
import KeyPool.Proofs.Provisioning.Mirror

/-! An attempt stores a prefix of its batches. What is noted of the calls shows where it stopped: the
batches that are stored were asked for in full, one after another, and the call that failed was the
last one. -/

namespace KeyPool

variable {σ α : Type}

/-! ## What is noted -/

theorem Call.recorded_eq {call : CallRecord} {c : Call σ α} {u u' : σ × List CallRecord}
    {result : Except Stop α} : Call.recorded call c u = (result, u') ↔
      c u.1 = (result, u'.1) ∧ u'.2 = u.2 ++ [call] := by
  obtain ⟨w, log⟩ := u
  obtain ⟨w', log'⟩ := u'
  change ((c w).1, (c w).2, log ++ [call]) = (result, w', log') ↔ _
  rw [Prod.mk.injEq, Prod.mk.injEq, Prod.ext_iff, and_assoc, eq_comm (a := log')]

section

variable {component : Component σ} {server : Server σ} {geek : Geek} {u u' : σ × List CallRecord}

theorem Component.Makes.unrecorded {keys : List FreshKey} (h : component.recorded.Makes u keys u') :
    component.Makes u.1 keys u'.1 ∧
      u'.2 = u.2 ++ List.replicate keys.length (.newKey component.name) := by
  induction h with
  | none u => simp [Component.Makes.none]
  | next hkey hkeys ih =>
      obtain ⟨hkey, hnoted⟩ := Call.recorded_eq.mp hkey
      obtain ⟨hmakes, hlog⟩ := ih
      refine ⟨.next hkey hmakes, ?_⟩
      simp [hlog, hnoted, List.replicate_succ]

theorem Exchange.Between.unrecorded {x : Exchange component.recorded.name}
    (h : x.Between server.recorded geek u u') :
    @Exchange.Between _ component server geek u.1 u'.1 x ∧ u'.2 = u.2 ++ x.calls geek := by
  obtain ⟨made, signed, hkeys, hcsr, hchains⟩ := h
  obtain ⟨hkeys, hmade⟩ := hkeys.unrecorded
  obtain ⟨hcsr, hsigned⟩ := Call.recorded_eq.mp hcsr
  obtain ⟨hchains, hlog⟩ := Call.recorded_eq.mp hchains
  refine ⟨⟨_, _, hkeys, hcsr, hchains⟩, ?_⟩
  rw [hlog, hsigned, hmade, List.append_assoc, List.append_assoc]
  rfl

theorem Exchanges.unrecorded {xs : List (Exchange component.recorded.name)}
    (h : Exchanges component.recorded server.recorded geek u xs u') :
    Exchanges component server geek u.1 xs u'.1 ∧ u'.2 = u.2 ++ xs.flatMap (·.calls geek) := by
  induction h with
  | none u => exact ⟨.none u.1, by simp⟩
  | next hx hxs ih =>
      obtain ⟨hx, hnoted⟩ := hx.unrecorded
      obtain ⟨hxs, hlog⟩ := ih
      refine ⟨.next hx hxs, ?_⟩
      rw [hlog, hnoted, List.flatMap_cons, List.append_assoc]

theorem Requesting.unrecorded {size made : Nat} {calls : List CallRecord}
    {outcome : Except Stop (Exchange component.recorded.name)}
    (h : Requesting component.recorded server.recorded geek size u made calls outcome u') :
    Requesting component server geek size u.1 made calls outcome u'.1 ∧ u'.2 = u.2 ++ calls := by
  cases h with
  | tooLarge hroom => exact ⟨.tooLarge hroom, by simp⟩
  | notMade hroom hkeys hfew hstop =>
      obtain ⟨hkeys, hmade⟩ := hkeys.unrecorded
      obtain ⟨hstop, hlog⟩ := Call.recorded_eq.mp hstop
      refine ⟨.notMade hroom hkeys hfew hstop, ?_⟩
      rw [hlog, hmade, List.append_assoc, ← List.replicate_succ']
      rfl
  | notSigned hroom hkeys hall hstop =>
      obtain ⟨hkeys, hmade⟩ := hkeys.unrecorded
      obtain ⟨hstop, hlog⟩ := Call.recorded_eq.mp hstop
      refine ⟨.notSigned hroom hkeys hall hstop, ?_⟩
      rw [hlog, hmade, hall, List.append_assoc]
      rfl
  | notAnswered hroom hkeys hall hcsr hstop =>
      obtain ⟨hkeys, hmade⟩ := hkeys.unrecorded
      obtain ⟨hcsr, hsigned⟩ := Call.recorded_eq.mp hcsr
      obtain ⟨hstop, hlog⟩ := Call.recorded_eq.mp hstop
      refine ⟨.notAnswered hroom hkeys hall hcsr hstop, ?_⟩
      rw [hlog, hsigned, hmade, hall, List.append_assoc, List.append_assoc]
      rfl
  | malformed hroom hkeys hall hcsr hchains hfault =>
      obtain ⟨hkeys, hmade⟩ := hkeys.unrecorded
      obtain ⟨hcsr, hsigned⟩ := Call.recorded_eq.mp hcsr
      obtain ⟨hchains, hlog⟩ := Call.recorded_eq.mp hchains
      refine ⟨.malformed hroom hkeys hall hcsr hchains hfault, ?_⟩
      rw [hlog, hsigned, hmade, hall, List.append_assoc, List.append_assoc]
      rfl
  | certified x hroom hx hall =>
      obtain ⟨hx, hlog⟩ := hx.unrecorded
      exact ⟨@Requesting.certified _ component server geek size _ _ x hroom hx hall, hlog⟩

theorem Ending.unrecorded {s : Store} {sizes : List Nat} {made : Nat} {calls : List CallRecord}
    {stop? : Option Stop}
    (h : Ending component.recorded server.recorded geek s u sizes made calls stop? u') :
    Ending component server geek s u.1 sizes made calls stop? u'.1 ∧ u'.2 = u.2 ++ calls := by
  cases h with
  | finished => exact ⟨.finished, by simp⟩
  | refused h => exact ⟨.refused h.unrecorded.1, h.unrecorded.2⟩
  | rejected h he => exact ⟨.rejected h.unrecorded.1 he, h.unrecorded.2⟩

theorem Unstarted.unrecorded {policy : Policy} {now : Timestamp} {s : Store}
    {result : Except Stop Nat} {calls : List CallRecord}
    (h : Unstarted policy now component.recorded s u result calls u') :
    Unstarted policy now component s u.1 result calls u'.1 ∧ u'.2 = u.2 ++ calls := by
  cases h with
  | uncounted he => exact ⟨.uncounted he, by simp⟩
  | full hfree hfull => exact ⟨.full hfree hfull, by simp⟩
  | unasked hfree hshort hstop =>
      obtain ⟨hstop, hlog⟩ := Call.recorded_eq.mp hstop
      exact ⟨.unasked hfree hshort hstop, hlog⟩
  | sizeless hfree hshort hzero =>
      obtain ⟨hzero, hlog⟩ := Call.recorded_eq.mp hzero
      exact ⟨.sizeless hfree hshort hzero, hlog⟩
  | unlisted hfree hshort hreported hne hlong =>
      obtain ⟨hreported, hlog⟩ := Call.recorded_eq.mp hreported
      exact ⟨.unlisted hfree hshort hreported hne hlong, hlog⟩

/-- Where an attempt began does not show but in its store, its counters and the world outside. -/
theorem Committed.before {sizes : List Nat} {p q p' : Progress σ}
    {xs : List (Exchange component.name)} {made : Nat} {calls : List CallRecord}
    {result : Except Stop Nat} (hstore : q.store = p.store) (hout : q.outside = p.outside)
    (hcounts : p.attempt.Counts 0 0 q.attempt)
    (h : Committed component server geek sizes q xs made calls result p') :
    Committed component server geek sizes p xs made calls result p' := by
  refine ⟨h.sized, hstore ▸ h.stored, hout ▸ h.ended, ?_⟩
  simpa using hcounts.trans h.counted

theorem Committed.unrecorded {sizes : List Nat} {p p' : Progress (σ × List CallRecord)}
    {xs : List (Exchange component.recorded.name)} {made : Nat} {calls : List CallRecord}
    {result : Except Stop Nat}
    (h : Committed component.recorded server.recorded geek sizes p xs made calls result p') :
    Committed component server geek sizes (p.map Prod.fst) xs made calls result (p'.map Prod.fst) ∧
      p'.outside.2 = p.outside.2 ++ xs.flatMap (·.calls geek) ++ calls := by
  obtain ⟨w, stop?, hxs, hend, hresult⟩ := h.ended
  obtain ⟨hxs, hnoted⟩ := hxs.unrecorded
  obtain ⟨hend, hlog⟩ := hend.unrecorded
  refine ⟨⟨h.sized, h.stored, ⟨w.1, stop?, hxs, hend, hresult⟩, h.counted⟩, ?_⟩
  rw [hlog, hnoted]

end

/-! ## Whole attempts -/

/-- An attempt whose calls are noted, some of them before it. -/
def Progress.noting (p : Progress σ) (log : List CallRecord) : Progress (σ × List CallRecord) :=
  ⟨p.store, (p.outside, log), p.attempt, p.events⟩

/-- How an attempt can go: its calls, its answer, and what it leaves. It may end before its first
batch; then nothing is made or stored. Otherwise the first `xs.length` of its batches are stored in
order, which are all of them exactly if it succeeds, and the calls that come after theirs are those of
the batch at which it stops. -/
inductive Course (policy : Policy) (now : Timestamp) (component : Component σ) (server : Server σ)
    (geek : Geek) (p : Progress σ) : List CallRecord → Except Stop Nat → Progress σ → Prop where
  | unstarted {calls : List CallRecord} {result : Except Stop Nat} {p' : Progress σ}
      (hends : Unstarted policy now component p.store p.outside result calls p'.outside)
      (hstore : p'.store = p.store) (hcounts : p.attempt.Counts 0 0 p'.attempt) :
      Course policy now component server geek p calls result p'
  | batches {free reported made : Nat} {w : σ} {sizes : List Nat}
      {xs : List (Exchange component.name)} {calls : List CallRecord} {result : Except Stop Nat}
      {p' : Progress σ}
      (hstart : Started policy now component p.store p.outside free reported w)
      (hsizes : sizes =
        Batch.sizes (policy.extraKeys - free) (Batch.capped reported policy.maxBatchSize))
      (hdone : Committed component server geek sizes { p with outside := w } xs made calls result p')
      (hcount : xs.length ≤ sizes.length)
      (hall : (∃ n, result = .ok n) ↔ xs.length = sizes.length) :
      Course policy now component server geek p
        (.batchSize component.name :: xs.flatMap (·.calls geek) ++ calls) result p'

section

variable {policy : Policy} {now : Timestamp} {component : Component σ} {server : Server σ}
  {geek : Geek} {p p' : Progress σ} {calls : List CallRecord} {result : Except Stop Nat}

theorem Course.withStatus (h : Course policy now component server geek p calls result p')
    (status : AttemptStatus) : Course policy now component server geek p calls result
      { p' with attempt := p'.attempt.withStatus status } := by
  cases h with
  | unstarted hends hstore hcounts =>
      exact .unstarted hends hstore ⟨hcounts.generated, hcounts.stored⟩
  | batches hstart hsizes hdone hcount hall =>
      have hcounts := hdone.counted
      refine .batches hstart hsizes ⟨hdone.sized, hdone.stored, hdone.ended, ?_⟩ hcount hall
      exact ⟨hcounts.generated, hcounts.stored⟩

theorem Provision.fillPool_course {log : List CallRecord} {q : Progress (σ × List CallRecord)}
    (h : fillPool policy now component.recorded server.recorded geek (p.noting log) = (result, q)) :
    ∃ calls, q = (q.map Prod.fst).noting (log ++ calls) ∧
      Course policy now component server geek p calls result (q.map Prod.fst) := by
  have hnoted {calls : List CallRecord} (hlog : q.outside.2 = log ++ calls) :
      q = (q.map Prod.fst).noting (log ++ calls) := by
    rw [← hlog]
    rfl
  rcases fillPool_cases h with
    ⟨hstore, hcounts, calls, hends⟩ | ⟨free, reported, q', hstore, hcounts, hstart, hbatches⟩
  · obtain ⟨hends, hlog⟩ := hends.unrecorded
    exact ⟨calls, hnoted hlog, .unstarted hends hstore hcounts⟩
  · obtain ⟨xs, made, calls, hdone⟩ := storeBatches_committed hbatches
    have hcount := hdone.length_le
    have hall := hdone.ok_iff
    obtain ⟨hasked, hfirst⟩ := Call.recorded_eq.mp hstart.asked
    obtain ⟨hdone, hlog⟩ := hdone.unrecorded
    refine ⟨.batchSize component.name :: xs.flatMap (·.calls geek) ++ calls, hnoted ?_, ?_⟩
    · rw [hlog, hfirst]
      simp [Progress.noting]
    · have hstarted : Started policy now component p.store p.outside free reported q'.outside.1 :=
        ⟨hstart.counted, hstart.short, hasked, hstart.sized, hstart.listable⟩
      refine .batches hstarted rfl (Committed.before ?_ ?_ ?_ hdone) hcount hall
      · exact hstore
      · rfl
      · exact hcounts

end

section

variable (policy : Policy) (now : Timestamp) (component : Component σ) (server : Server σ)
  (geek : Geek) (p : Progress σ)

/-- The calls of an attempt are those of its course, and its status is that of its answer. -/
structure CourseSpec (log : List CallRecord) (calls : List CallRecord) (result : Except Stop Nat)
    (p' : Progress σ) : Prop where
  run : Provision.run policy now component server geek p = (result, p')
  noted : Provision.run policy now component.recorded server.recorded geek (p.noting log) =
    (result, p'.noting (log ++ calls))
  course : Course policy now component server geek p calls result p'
  status : p'.attempt.status = .ofResult result

/-- Whatever the store holds, the policy asks for and the partners answer, an attempt stores a prefix
of its batches. It ends with the first thing that fails, after which it makes no call; or with a
crash, where a batch or the list of them is too large for any memory. -/
theorem commits_in_order (log : List CallRecord) : ∃ calls result p',
    CourseSpec policy now component server geek p log calls result p' := by
  cases hfill : Provision.fillPool policy now component.recorded server.recorded geek
      (p.noting log) with
  | mk result q =>
      obtain ⟨calls, hnoted, hcourse⟩ := Provision.fillPool_course hfill
      have hrun := Provision.run_eq_iff.mpr ⟨q, hfill, rfl⟩
      have hsame := Provision.run_mirrors component.recorded_mirrors server.recorded_mirrors
        policy now geek (p.noting log)
      rw [hrun] at hsame
      refine ⟨calls, result, _, hsame, ?_, hcourse.withStatus (.ofResult result), rfl⟩
      rw [hrun, hnoted]
      rfl

end

/-! ## A batch beyond all memory -/

/-- A component that has room for more keys than can be addressed, and cannot make one. -/
def Component.boastful : Component Unit where
  name := "hal"
  batchSize := pure 18446744073709551615
  newKey := throw (.failed (.keyGeneration ""))
  signRequest _ _ := pure []

def Server.silent : Server Unit where
  greet := throw (.failed (.network ""))
  certify _ _ := pure []

/-- The room for a batch is taken before its first key is made. So an attempt that could only fail to
make a key crashes. -/
theorem commits_in_order_oversized :
    Component.boastful.newKey () = (.error (.failed (.keyGeneration "")), ()) ∧
      ∃ p', CourseSpec { Policy.default with extraKeys := 18446744073709551615 } .epoch .boastful
        .silent ⟨[], [], none, none, none⟩ ⟨.empty, (), .ofComponent .manual "hal", []⟩ []
        [.batchSize "hal"] (.error (.crashed .capacityOverflow)) p' := by
  refine ⟨rfl, ?_⟩
  obtain ⟨calls, result, p', h⟩ :=
    commits_in_order { Policy.default with extraKeys := 18446744073709551615 } .epoch .boastful
      .silent ⟨[], [], none, none, none⟩ ⟨.empty, (), .ofComponent .manual "hal", []⟩ []
  have hresult : result = .error (.crashed .capacityOverflow) := by
    refine (congrArg Prod.fst h.run).symm.trans ?_
    decide +kernel
  have hcalls : calls = [.batchSize "hal"] := by
    refine (congrArg (·.2.outside.2) h.noted).symm.trans ?_
    decide +kernel
  rw [hresult, hcalls] at h
  exact ⟨p', h⟩

end KeyPool
