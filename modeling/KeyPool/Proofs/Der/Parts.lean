import KeyPool.Proofs.Der.Values

/-! Optional parts under context-specific numbers, with all that is written of them: the elements that
are passed over on the way to a part, and the part itself if it is there. -/

namespace KeyPool.Der

/-- What is written for an optional part: elements that nobody asks for, and what is asked for. -/
structure WrittenPart (τ : Type) where
  passed : List Element
  found : Option τ

namespace WrittenPart

variable {α τ : Type} {number : Nat} {constructed : Bool} {content : τ → Bytes}
  {IsReadable : τ → Prop} {x y : Bytes}

def field (number : Nat) (constructed : Bool) (content : τ → Bytes) (found : Option τ) : Bytes :=
  (found.map fun t => wrap (Tag.context number constructed) (content t)).getD []

def encode (number : Nat) (constructed : Bool) (content : τ → Bytes) (p : WrittenPart τ) : Bytes :=
  p.passed.flatMap Element.encode ++ field number constructed content p.found

/-- A part that can be read back, if what follows can be told from it. -/
structure Fits (number : Nat) (content : τ → Bytes) (IsReadable : τ → Prop) (p : WrittenPart τ) :
    Prop where
  passed : ∀ e ∈ p.passed, e.IsPassed number
  found : ∀ t ∈ p.found, IsReadable t ∧ (content t).length ≤ maxLength

/-- What follows a part can be told from it: where the part is absent, no such part comes next, and
nothing that would be passed over. -/
def EndsBefore (number : Nat) (p : WrittenPart τ) (x : Bytes) : Prop :=
  p.found = none → Reader.BeginsFrom (number + 1) x

theorem contextual_eq_some (hnumber : number < 31) {decode : Bytes → Option α} {keep : τ → α}
    (hdecode : ∀ {octets a}, decode octets = some a ↔
      ∃ t, IsReadable t ∧ keep t = a ∧ octets = content t)
    {input rest : Bytes} {found : Option α} :
    Reader.contextual number (Reader.tagged (Tag.context number constructed) decode) input =
        some (found, rest) ↔
      ∃ p : WrittenPart τ, p.Fits number content IsReadable ∧ p.EndsBefore number rest ∧
        found = p.found.map keep ∧ input = p.encode number constructed content ++ rest := by
  rw [Reader.contextual_eq_some hnumber]
  constructor
  · rintro ⟨passed, hpassed, ⟨rfl, rfl, hlater⟩ | ⟨_, a, rfl, hfits, ha, rfl⟩⟩
    · refine ⟨⟨passed, none⟩, ⟨hpassed, by simp⟩, fun _ => hlater, rfl, ?_⟩
      simp [encode, field]
    · obtain ⟨t, hreadable, rfl, rfl⟩ := hdecode.mp ha
      refine ⟨⟨passed, some t⟩, ⟨hpassed, ?_⟩, by simp [EndsBefore], rfl, ?_⟩
      · rintro _ ⟨rfl⟩
        exact ⟨hreadable, hfits⟩
      · simp [encode, field]
  · rintro ⟨⟨passed, found⟩, ⟨hpassed, hfound⟩, hends, rfl, rfl⟩
    refine ⟨passed, hpassed, ?_⟩
    cases found with
    | none => exact .inl ⟨rfl, by simp [encode, field], hends rfl⟩
    | some t =>
        obtain ⟨hreadable, hfits⟩ := hfound t rfl
        exact .inr ⟨content t, keep t, rfl, hfits, hdecode.mpr ⟨t, hreadable, rfl, rfl⟩,
          by simp [encode, field]⟩

theorem encode_unique (hnumber : number < 31)
    (hcontent : ∀ {t u}, IsReadable t → IsReadable u → content t = content u → t = u)
    {p q : WrittenPart τ} (hp : p.Fits number content IsReadable) (hpx : p.EndsBefore number x)
    (hq : q.Fits number content IsReadable) (hqy : q.EndsBefore number y)
    (h : p.encode number constructed content ++ x = q.encode number constructed content ++ y) :
    p = q ∧ x = y := by
  -- the part is read as the content that is written of it
  have hread {r : WrittenPart τ} {z : Bytes} (hr : r.Fits number content IsReadable)
      (hrz : r.EndsBefore number z) :
      Reader.contextual number (Reader.tagged (Tag.context number constructed) some)
        (r.encode number constructed content ++ z) = some (r.found.map content, z) := by
    rw [Reader.contextual_eq_some hnumber]
    obtain ⟨passed, found⟩ := r
    refine ⟨passed, hr.passed, ?_⟩
    cases found with
    | none => exact .inl ⟨rfl, by simp [encode, field], hrz rfl⟩
    | some t => exact .inr ⟨_, _, rfl, (hr.found t rfl).2, rfl, by simp [encode, field]⟩
  have hsame := (hread hp hpx).symm.trans (h ▸ hread hq hqy)
  simp only [Option.some.injEq, Prod.mk.injEq] at hsame
  obtain ⟨hfound, rfl⟩ := hsame
  obtain ⟨passed, found⟩ := p
  obtain ⟨others, asked⟩ := q
  have hfound : found = asked := by
    cases found <;> cases asked <;> simp only [Option.map_some, Option.map_none, Option.some.injEq,
      reduceCtorEq] at hfound
    · rfl
    · exact congrArg some (hcontent (hp.found _ rfl).1 (hq.found _ rfl).1 hfound)
  subst hfound
  have hencode : passed.flatMap Element.encode = others.flatMap Element.encode := by
    simpa [encode] using h
  have hpassed : passed = others :=
    flatMap_unique Element.encode_ne_nil (Reader.unique Reader.element_eq_some)
      (fun e he => (hp.passed e he).readable) (fun e he => (hq.passed e he).readable) hencode
  exact ⟨congrArg (WrittenPart.mk · found) hpassed, rfl⟩

end WrittenPart

end KeyPool.Der
