import KeyPool.Certificate.Chain
import KeyPool.Proofs.Results
import Mathlib.Order.Bounds.Basic

/-! Which lists of certificates validate, and what is told of the others. Certificates validate if each
is linked to the next and the last signs itself. Otherwise the first fault on the way from the leaf to
the root is told. -/

namespace KeyPool

namespace ChainError

/-- The position that an error is told for. What is wrong with a root, or with no certificates at all,
is told for none. -/
def position? : ChainError → Option Nat
  | tooLong => some maxChainLength
  | undecodable position | nameMismatch position _ _ | badSignature position _ => some position
  | empty | oversized | rootNotSelfIssued _ | rootNotSelfSigned _ => none

variable [AttributeLabels]

theorem message_of_position? {e : ChainError} {position : Nat} (h : e.position? = some position) :
    ∃ reason, e.message = atPosition position reason := by
  cases e <;> cases h <;> exact ⟨_, rfl⟩

end ChainError

namespace Certificate

variable {c issuer root : Certificate} {cs : List Certificate} {position i : Nat} {e : ChainError}

/-! ## Links -/

/-- One certificate names another as its issuer, and the key of the other verifies its signature. -/
structure LinkedTo (c issuer : Certificate) : Prop where
  named : c.body.issuer = issuer.body.subject
  signed : c.checkSignature issuer = .ok ()

/-- What is told of a link at a position that does not hold: of the names if they differ, and of the
signature only if they do not. -/
inductive LinkFault (position : Nat) (c issuer : Certificate) : ChainError → Prop where
  | named (h : c.body.issuer ≠ issuer.body.subject) :
      LinkFault position c issuer (.nameMismatch position c.body.issuer issuer.body.subject)
  | signed (h : c.body.issuer = issuer.body.subject) (e : SignatureError)
      (he : c.checkSignature issuer = .error e) :
      LinkFault position c issuer (.badSignature position e)

theorem checkLink_eq_ok : checkLink position c issuer = .ok () ↔ c.LinkedTo issuer := by
  rw [checkLink, guarded_eq_ok]
  exact ⟨fun h => ⟨h.1, h.2⟩, fun h => ⟨h.named, h.signed⟩⟩

theorem checkLink_eq_error :
    checkLink position c issuer = .error e ↔ LinkFault position c issuer e := by
  rw [checkLink, guarded_eq_error]
  constructor
  · rintro (⟨hname, rfl⟩ | ⟨hname, e', he, rfl⟩)
    · exact .named hname
    · exact .signed hname e' he
  · intro h
    cases h with
    | named hname => exact .inl ⟨hname, rfl⟩
    | signed hname e' he => exact .inr ⟨hname, e', he, rfl⟩

theorem LinkFault.position_eq (h : LinkFault position c issuer e) : e.position? = some position := by
  cases h <;> rfl

theorem LinkFault.not_linked (h : LinkFault position c issuer e) : ¬ c.LinkedTo issuer := by
  intro hlink
  cases h with
  | named h => exact h hlink.named
  | signed h e he => simp [hlink.signed] at he

/-! ## The links of a chain -/

def AreLinked (cs : List Certificate) : Prop :=
  ∀ i (hi : i + 1 < cs.length), cs[i].LinkedTo cs[i + 1]

/-- The first link that does not hold stands between a certificate and the next, and an error is what
is told of it. Positions are counted from the one of the leaf. -/
def FaultAt (position : Nat) (cs : List Certificate) (e : ChainError) (i : Nat) : Prop :=
  ∃ hi : i + 1 < cs.length, (∀ j (hj : j < i), cs[j].LinkedTo cs[j + 1]) ∧
    LinkFault (position + i) cs[i] cs[i + 1] e

theorem areLinked_cons : AreLinked (c :: issuer :: cs) ↔
    c.LinkedTo issuer ∧ AreLinked (issuer :: cs) := by
  constructor
  · intro h
    exact ⟨h 0 (by simp), fun i hi => h (i + 1) (by simpa using hi)⟩
  · rintro ⟨hfirst, hrest⟩ i hi
    cases i with
    | zero => exact hfirst
    | succ i => exact hrest i (by simpa using hi)

theorem faultAt_zero : FaultAt position (c :: issuer :: cs) e 0 ↔ LinkFault position c issuer e := by
  simp [FaultAt]

theorem faultAt_succ : FaultAt position (c :: issuer :: cs) e (i + 1) ↔
    c.LinkedTo issuer ∧ FaultAt (position + 1) (issuer :: cs) e i := by
  have hcount : position + 1 + i = position + (i + 1) := by omega
  unfold FaultAt
  rw [hcount]
  constructor
  · rintro ⟨hi, hbefore, hfault⟩
    exact ⟨hbefore 0 (by omega), by simpa using hi,
      fun j hj => hbefore (j + 1) (by omega), hfault⟩
  · rintro ⟨hfirst, hi, hbefore, hfault⟩
    refine ⟨by simpa using hi, ?_, hfault⟩
    intro j hj
    cases j with
    | zero => exact hfirst
    | succ j => exact hbefore j (by omega)

theorem FaultAt.isLeast (h : FaultAt position cs e i) :
    IsLeast {j | ∃ hj : j + 1 < cs.length, ¬ cs[j].LinkedTo cs[j + 1]} i := by
  obtain ⟨hi, hbefore, hfault⟩ := h
  refine ⟨⟨hi, hfault.not_linked⟩, ?_⟩
  rintro j ⟨hj, hnot⟩
  by_contra hlt
  exact hnot (hbefore j (by omega))

theorem AreLinked.not_isLeast (h : AreLinked cs) :
    ¬ IsLeast {j | ∃ hj : j + 1 < cs.length, ¬ cs[j].LinkedTo cs[j + 1]} i := by
  rintro ⟨⟨hi, hnot⟩, -⟩
  exact hnot (h i hi)

/-! ## Roots -/

variable [AttributeLabels]

/-- The names of a certificate read the same, and its own key verifies its signature. -/
structure SignsItself (root : Certificate) : Prop where
  named : root.info.isSelfIssued = true
  signed : root.checkSignature root = .ok ()

/-- What is told of a root that does not sign itself, again of the names first. -/
inductive RootFault (root : Certificate) : ChainError → Prop where
  | named (h : root.info.isSelfIssued ≠ true) :
      RootFault root (.rootNotSelfIssued root.body.subject)
  | signed (h : root.info.isSelfIssued = true) (e : SignatureError)
      (he : root.checkSignature root = .error e) : RootFault root (.rootNotSelfSigned e)

theorem checkRoot_eq_ok : checkRoot root = .ok () ↔ root.SignsItself := by
  rw [checkRoot, guarded_eq_ok]
  exact ⟨fun h => ⟨h.1, h.2⟩, fun h => ⟨h.named, h.signed⟩⟩

theorem checkRoot_eq_error : checkRoot root = .error e ↔ RootFault root e := by
  rw [checkRoot, guarded_eq_error]
  constructor
  · rintro (⟨hname, rfl⟩ | ⟨hname, e', he, rfl⟩)
    · exact .named hname
    · exact .signed hname e' he
  · intro h
    cases h with
    | named hname => exact .inl ⟨hname, rfl⟩
    | signed hname e' he => exact .inr ⟨hname, e', he, rfl⟩

theorem RootFault.position_eq (h : RootFault root e) : e.position? = none := by
  cases h <;> rfl

/-! ## Verdicts -/

theorem checkFrom_eq_ok : checkFrom position cs = .ok () ↔
    ∃ h : cs ≠ [], AreLinked cs ∧ (cs.getLast h).SignsItself := by
  induction cs generalizing position with
  | nil => simp [checkFrom]
  | cons c cs ih =>
      cases cs with
      | nil => simp [checkFrom, checkRoot_eq_ok, AreLinked]
      | cons issuer cs =>
          rw [checkFrom]
          cases hlink : checkLink position c issuer with
          | ok =>
              have hlinked := checkLink_eq_ok.mp hlink
              simp [ih, areLinked_cons, hlinked]
          | error e =>
              have hnot := (checkLink_eq_error.mp hlink).not_linked
              simp [areLinked_cons, hnot]

theorem checkFrom_eq_error : checkFrom position cs = .error e ↔
    (cs = [] ∧ e = .empty) ∨ (∃ i, FaultAt position cs e i) ∨
      ∃ h : cs ≠ [], AreLinked cs ∧ RootFault (cs.getLast h) e := by
  induction cs generalizing position with
  | nil => simp [checkFrom, FaultAt, eq_comm]
  | cons c cs ih =>
      cases cs with
      | nil => simp [checkFrom, checkRoot_eq_error, AreLinked, FaultAt]
      | cons issuer cs =>
          rw [checkFrom]
          -- a fault is at this link, or this link holds and the fault is further on
          have hsplit : (∃ i, FaultAt position (c :: issuer :: cs) e i) ↔
              LinkFault position c issuer e ∨
                c.LinkedTo issuer ∧ ∃ i, FaultAt (position + 1) (issuer :: cs) e i := by
            rw [← exists_and_left, ← faultAt_zero]
            simp only [← faultAt_succ]
            constructor
            · rintro ⟨i, h⟩
              cases i with
              | zero => exact .inl h
              | succ i => exact .inr ⟨i, h⟩
            · rintro (h | ⟨i, h⟩)
              · exact ⟨0, h⟩
              · exact ⟨i + 1, h⟩
          rw [hsplit]
          cases hlink : checkLink position c issuer with
          | ok =>
              have hlinked := checkLink_eq_ok.mp hlink
              have hnone : ¬ LinkFault position c issuer e := fun h => h.not_linked hlinked
              simp [ih, areLinked_cons, hlinked, hnone]
          | error e' =>
              have hnot := (checkLink_eq_error.mp hlink).not_linked
              simp [areLinked_cons, hnot, ← checkLink_eq_error, hlink]

theorem checkChain_cons_eq_ok (hcs : cs ≠ []) : checkChain (c :: cs) = .ok () ↔
    c.LinkedTo (cs.head hcs) ∧ checkChain cs = .ok () := by
  cases cs with
  | nil => exact absurd rfl hcs
  | cons issuer cs => simp [checkChain, checkFrom_eq_ok, areLinked_cons, and_assoc]

theorem checkChain_of_append {before : List Certificate} (hcs : cs ≠ [])
    (h : checkChain (before ++ cs) = .ok ()) : checkChain cs = .ok () := by
  induction before with
  | nil => exact h
  | cons c before ih =>
      have hne : before ++ cs ≠ [] := by simp [hcs]
      exact ih ((checkChain_cons_eq_ok hne).mp h).2

end Certificate

variable [AttributeLabels]

/-- The verdict on certificates from a leaf on. They validate exactly if there are some, each is linked
to the next, and the last signs itself. Otherwise one thing is told: that there are none, what is wrong
with a link if all before it hold, or what is wrong with the last if all links hold. What is left of
validated certificates from a later one on validates as well, and with another in front they do exactly
if that is linked to the first. -/
structure ValidationSpec (cs : List Certificate) : Prop where
  accepted : Certificate.checkChain cs = .ok () ↔ ∃ h : cs ≠ [],
    (∀ i (hi : i + 1 < cs.length), cs[i].LinkedTo cs[i + 1]) ∧ (cs.getLast h).SignsItself
  rejected : ∀ e, Certificate.checkChain cs = .error e ↔
    (cs = [] ∧ e = .empty) ∨
    (∃ i, ∃ hi : i + 1 < cs.length, (∀ j (hj : j < i), cs[j].LinkedTo cs[j + 1]) ∧
      Certificate.LinkFault i cs[i] cs[i + 1] e) ∨
    ∃ h : cs ≠ [], (∀ i (hi : i + 1 < cs.length), cs[i].LinkedTo cs[i + 1]) ∧
      Certificate.RootFault (cs.getLast h) e
  first : ∀ e, Certificate.checkChain cs = .error e → ∀ i, e.position? = some i ↔
    IsLeast {j | ∃ hj : j + 1 < cs.length, ¬ cs[j].LinkedTo cs[j + 1]} i
  told : ∀ e, Certificate.checkChain cs = .error e → ∀ i, e.position? = some i →
    ∃ reason, e.message = ChainError.atPosition i reason
  shortened : Certificate.checkChain cs = .ok () → ∀ rest, rest ≠ [] → rest <:+ cs →
    Certificate.checkChain rest = .ok ()
  extended : Certificate.checkChain cs = .ok () → ∀ c,
    (Certificate.checkChain (c :: cs) = .ok () ↔ ∃ h : cs ≠ [], c.LinkedTo (cs.head h))

/-- Certificates validate as far as they are linked up to one that signs itself, and if they do not, the
first fault is told. -/
theorem validation_spec (cs : List Certificate) : ValidationSpec cs := by
  refine ⟨Certificate.checkFrom_eq_ok, ?_, ?_, fun _ _ _ => ChainError.message_of_position?, ?_, ?_⟩
  · intro e
    have h : Certificate.checkFrom 0 cs = .error e ↔ _ := Certificate.checkFrom_eq_error
    simp only [Certificate.FaultAt, Nat.zero_add] at h
    exact h
  · intro e he i
    rcases Certificate.checkFrom_eq_error.mp he with ⟨rfl, rfl⟩ | ⟨k, hfault⟩ | ⟨hcs, hlinked, hroot⟩
    · have hnone : Certificate.AreLinked [] := by simp [Certificate.AreLinked]
      exact ⟨fun h => (by cases h), fun h => absurd h hnone.not_isLeast⟩
    · have hposition : e.position? = some k := by simpa using hfault.2.2.position_eq
      rw [hposition, Option.some.injEq]
      constructor
      · rintro rfl
        exact hfault.isLeast
      · exact hfault.isLeast.unique
    · rw [hroot.position_eq]
      exact ⟨fun h => (by cases h), fun h => absurd h hlinked.not_isLeast⟩
  · rintro h rest hrest ⟨before, rfl⟩
    exact Certificate.checkChain_of_append hrest h
  · intro h c
    obtain ⟨hcs, -⟩ := Certificate.checkFrom_eq_ok.mp h
    rw [Certificate.checkChain_cons_eq_ok hcs]
    simp [h, hcs]

end KeyPool
