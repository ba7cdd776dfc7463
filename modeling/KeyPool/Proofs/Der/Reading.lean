import KeyPool.Der.Element
import Mathlib.Algebra.Group.Nat.Defs
import Mathlib.Data.List.Forall2
import Mathlib.Data.Option.Basic

/-! What readers take off the front of an octet string. An element that is read is the encoding of what
it is read as, since a length has one form only. A reader may still leave out some of what it takes:
a sequence of optional parts does, where parts that are not asked for are passed over. -/

namespace KeyPool

/-! ## Numbers in octets -/

namespace Bytes

theorem toNat_concat (bytes : Bytes) (b : UInt8) : toNat (bytes ++ [b]) = toNat bytes * 256 + b.toNat := by
  simp [toNat]

theorem toNat_ofNatMinimal (n : Nat) : toNat (ofNatMinimal n) = n := by
  fun_induction ofNatMinimal n with
  | case1 => rfl
  | case2 n hn ih =>
      rw [toNat_concat, ih, UInt8.toNat_ofNat']
      omega

theorem length_ofNatMinimal_le {n width : Nat} (h : n < 256 ^ width) :
    (ofNatMinimal n).length ≤ width := by
  induction width generalizing n with
  | zero =>
      have hn : n = 0 := by simpa using h
      simp [hn, ofNatMinimal]
  | succ width ih =>
      rw [ofNatMinimal]
      split
      · simp
      · have hless : n / 256 < 256 ^ width := by
          rw [Nat.pow_succ] at h
          omega
        simpa using ih hless

theorem length_ofNatMinimal_mono {m n : Nat} (h : m ≤ n) :
    (ofNatMinimal m).length ≤ (ofNatMinimal n).length := by
  fun_induction ofNatMinimal n generalizing m with
  | case1 =>
      rw [Nat.le_zero.mp h]
      simp [ofNatMinimal]
  | case2 n hn ih =>
      have hless : (ofNatMinimal (m / 256)).length ≤ (ofNatMinimal (n / 256)).length :=
        ih (Nat.div_le_div_right h)
      rw [ofNatMinimal]
      split <;> simp [hless]

theorem length_lt_append {octets : Bytes} (h : octets ≠ []) (rest : Bytes) :
    rest.length < (octets ++ rest).length := by
  have hsome : 0 < octets.length := List.length_pos_iff.mpr h
  rw [List.length_append]
  omega

theorem ofNatMinimal_ne_nil {n : Nat} (h : n ≠ 0) : ofNatMinimal n ≠ [] := by
  rw [ofNatMinimal, if_neg h]
  simp

end Bytes

namespace Der

/-! ## Readers -/

namespace Reader

variable {α β : Type} {input rest : Bytes}

theorem bind_eq_some {x : Reader α} {f : α → Reader β} {b : β} :
    (x >>= f) input = some (b, rest) ↔
      ∃ a mid, x input = some (a, mid) ∧ f a mid = some (b, rest) := by
  change (x input).bind (fun p => f p.1 p.2) = _ ↔ _
  cases x input with
  | none => simp
  | some p =>
      obtain ⟨a, mid⟩ := p
      simp

theorem pure_eq_some {a b : α} :
    (pure a : Reader α) input = some (b, rest) ↔ a = b ∧ input = rest := by
  change some (a, input) = some (b, rest) ↔ _
  simp

theorem liftM_eq_some {o : Option α} {a : α} :
    (liftM o : Reader α) input = some (a, rest) ↔ o = some a ∧ input = rest := by
  change o.bind (fun a => some (a, input)) = _ ↔ _
  cases o <;> simp

theorem guard_eq_some {p : Prop} [Decidable p] {u : Unit} :
    (guard p : Reader Unit) input = some (u, rest) ↔ p ∧ input = rest := by
  unfold guard
  split
  · rename_i hp
    simp [pure_eq_some, hp]
  · rename_i hp
    simp only [hp, false_and, iff_false]
    exact nofun

theorem octet_eq_some {b : UInt8} : octet input = some (b, rest) ↔ input = b :: rest := by
  unfold octet
  cases input <;> simp

theorem take_eq_some {n : Nat} {taken : Bytes} :
    take n input = some (taken, rest) ↔ taken.length = n ∧ input = taken ++ rest := by
  unfold take
  constructor
  · intro h
    split at h
    · rename_i hle
      cases h
      exact ⟨List.length_take_of_le hle, (List.take_append_drop n input).symm⟩
    · cases h
  · rintro ⟨rfl, rfl⟩
    simp

/-! ## Lengths -/

/-- A length of more than one octet has the number that it spells after its first octet. -/
theorem encodeLength_long {n : Nat} (hn : ¬ n < 128) (hmax : n ≤ maxLength) :
    ∃ first octets, encodeLength n = first :: octets ∧ 0x81 ≤ first ∧ first ≤ 0x84 ∧
      octets.length = first.toNat - 0x80 ∧ Bytes.toNat octets = n := by
  have hlong : (Bytes.ofNatMinimal n).length ≤ 4 := by
    apply Bytes.length_ofNatMinimal_le
    unfold maxLength at hmax
    omega
  have hsome : 0 < (Bytes.ofNatMinimal n).length :=
    List.length_pos_iff.mpr (Bytes.ofNatMinimal_ne_nil (by omega))
  have hcount : 0x80 + (Bytes.ofNatMinimal n).length < 256 := by omega
  refine ⟨_, _, if_neg hn, ?_, ?_, ?_, Bytes.toNat_ofNatMinimal n⟩
  · rw [UInt8.le_iff_toNat_le, UInt8.toNat_ofNat_of_lt' hcount]
    change 129 ≤ _
    omega
  · rw [UInt8.le_iff_toNat_le, UInt8.toNat_ofNat_of_lt' hcount]
    change _ ≤ 132
    omega
  · rw [UInt8.toNat_ofNat_of_lt' hcount]
    omega

theorem length_eq_some {n : Nat} :
    length input = some (n, rest) ↔ n ≤ maxLength ∧ input = encodeLength n ++ rest := by
  unfold length
  simp only [bind_eq_some, octet_eq_some]
  constructor
  · rintro ⟨first, mid, rfl, h⟩
    by_cases hshort : first < 0x80
    · rw [if_pos hshort, pure_eq_some] at h
      obtain ⟨rfl, rfl⟩ := h
      have hn : first.toNat < 128 := UInt8.lt_iff_toNat_lt.mp hshort
      refine ⟨?_, by simp [encodeLength, hn]⟩
      unfold maxLength
      omega
    · rw [if_neg hshort] at h
      simp only [bind_eq_some, guard_eq_some, take_eq_some, pure_eq_some] at h
      obtain ⟨_, _, ⟨-, rfl⟩, octets, _, ⟨-, rfl⟩, _, _, ⟨⟨hmax, hform⟩, rfl⟩, rfl, rfl⟩ := h
      exact ⟨hmax, by rw [hform, List.cons_append]⟩
  · rintro ⟨hmax, rfl⟩
    by_cases hn : n < 128
    · have hfirst : (UInt8.ofNat n).toNat = n := UInt8.toNat_ofNat_of_lt' (Nat.lt_trans hn (by decide))
      have hshort : UInt8.ofNat n < 0x80 := by
        rw [UInt8.lt_iff_toNat_lt, hfirst]
        exact hn
      refine ⟨UInt8.ofNat n, rest, by simp [encodeLength, hn], ?_⟩
      rw [if_pos hshort, hfirst, pure_eq_some]
      exact ⟨rfl, rfl⟩
    · obtain ⟨first, octets, hform, hlow, hhigh, hcount, hnumber⟩ := encodeLength_long hn hmax
      have hlong : ¬ first < 0x80 := by
        rw [UInt8.le_iff_toNat_le] at hlow
        rw [UInt8.lt_iff_toNat_lt]
        change 129 ≤ _ at hlow
        change ¬ _ < 128
        omega
      refine ⟨first, octets ++ rest, by rw [hform, List.cons_append], ?_⟩
      rw [if_neg hlong]
      simp only [bind_eq_some, guard_eq_some, take_eq_some, pure_eq_some]
      refine ⟨(), _, ⟨⟨hlow, hhigh⟩, rfl⟩, octets, rest, ⟨hcount, rfl⟩, (), _, ⟨?_, rfl⟩, hnumber, rfl⟩
      rw [hnumber]
      exact ⟨hmax, hform⟩

/-! ## Elements -/

end Reader

theorem length_wrap (tag : Tag) (content : Bytes) :
    (wrap tag content).length = 1 + (encodeLength content.length).length + content.length := by
  simp [wrap, Element.encode]
  omega

theorem length_encodeLength_mono {m n : Nat} (h : m ≤ n) :
    (encodeLength m).length ≤ (encodeLength n).length := by
  have hoctets := Bytes.length_ofNatMinimal_mono h
  unfold encodeLength
  split
  · split <;> simp
  · rw [if_neg (by omega)]
    simpa using hoctets

theorem length_wrap_mono (tag : Tag) {a b : Bytes} (h : a.length ≤ b.length) :
    (wrap tag a).length ≤ (wrap tag b).length := by
  have hlength := length_encodeLength_mono h
  rw [length_wrap, length_wrap]
  omega

theorem Element.encode_ne_nil (e : Element) : e.encode ≠ [] := List.cons_ne_nil _ _

theorem wrap_ne_nil (tag : Tag) (content : Bytes) : wrap tag content ≠ [] := Element.encode_ne_nil _

/-- An element that can be read back: its tag is known and its content not too long. -/
structure Element.IsReadable (e : Element) : Prop where
  known : Tag.isKnown e.tag = true
  fits : e.content.length ≤ maxLength

namespace Reader

variable {α β τ : Type} {input rest : Bytes}

theorem element_eq_some {e : Element} :
    element input = some (e, rest) ↔ e.IsReadable ∧ input = e.encode ++ rest := by
  unfold element
  simp only [bind_eq_some, octet_eq_some, guard_eq_some, length_eq_some, take_eq_some, pure_eq_some]
  constructor
  · rintro ⟨tag, _, rfl, _, _, ⟨hknown, rfl⟩, n, _, ⟨hmax, rfl⟩, content, _, ⟨rfl, rfl⟩, rfl, rfl⟩
    exact ⟨⟨hknown, hmax⟩, by simp [Element.encode]⟩
  · rintro ⟨hreadable, rfl⟩
    exact ⟨e.tag, _, rfl, (), _, ⟨hreadable.known, rfl⟩, e.content.length, _,
      ⟨hreadable.fits, by simp⟩, e.content, _, ⟨rfl, rfl⟩, rfl, rfl⟩

theorem tagged_eq_some {tag : Tag} (hknown : Tag.isKnown tag = true) {decode : Bytes → Option α}
    {a : α} : tagged tag decode input = some (a, rest) ↔
      ∃ content : Bytes, content.length ≤ maxLength ∧ decode content = some a ∧
        input = wrap tag content ++ rest := by
  unfold tagged
  simp only [bind_eq_some, element_eq_some, guard_eq_some, liftM_eq_some]
  constructor
  · rintro ⟨e, _, ⟨hreadable, rfl⟩, _, _, ⟨rfl, rfl⟩, ha, rfl⟩
    exact ⟨e.content, hreadable.fits, ha, rfl⟩
  · rintro ⟨content, hfits, ha, rfl⟩
    exact ⟨⟨tag, content⟩, _, ⟨⟨hknown, hfits⟩, rfl⟩, (), _, ⟨rfl, rfl⟩, ha, rfl⟩

theorem exactly_eq_some {r : Reader α} {a : α} : exactly r input = some a ↔ r input = some (a, []) := by
  unfold exactly
  cases r input with
  | none => simp
  | some p =>
      obtain ⟨found, left⟩ := p
      cases left <;> simp

theorem sequence_eq_some {r : Reader α} {a : α} : sequence r input = some (a, rest) ↔
    ∃ content : Bytes, content.length ≤ maxLength ∧ r content = some (a, []) ∧
      input = wrap Tag.sequence content ++ rest := by
  unfold sequence
  simp only [tagged_eq_some (by decide : Tag.isKnown Tag.sequence = true), exactly_eq_some]

/-- If each value is read off what some written form of it leaves, values one after another are read
off such forms one after another. -/
theorem many_eq_some {r : Reader α} {encode : τ → Bytes} {Reads : τ → α → Prop}
    (hne : ∀ t, encode t ≠ []) (hr : ∀ {input a rest}, r input = some (a, rest) ↔
      ∃ t, Reads t a ∧ input = encode t ++ rest) {values : List α} :
    many r input = some values ↔
      ∃ ts, List.Forall₂ Reads ts values ∧ input = ts.flatMap encode := by
  constructor
  · intro h
    fun_induction many r input generalizing values with
    | case1 =>
        cases h
        exact ⟨[], .nil, rfl⟩
    | case2 => cases h
    | case3 input hinput a rest hread hless ih =>
        obtain ⟨others, hothers, rfl⟩ := Option.map_eq_some_iff.mp h
        obtain ⟨t, ht, rfl⟩ := hr.mp hread
        obtain ⟨ts, hts, rfl⟩ := ih hothers
        exact ⟨t :: ts, .cons ht hts, rfl⟩
    | case4 => cases h
  · rintro ⟨ts, hts, rfl⟩
    induction hts with
    | nil => simp [many]
    | cons ht hts ih =>
        rename_i t a ts values
        have hread : r (encode t ++ ts.flatMap encode) = some (a, ts.flatMap encode) :=
          hr.mpr ⟨t, ht, rfl⟩
        have hinput : encode t ++ ts.flatMap encode ≠ [] := List.append_ne_nil_of_left_ne_nil (hne t) _
        have hless := Bytes.length_lt_append (hne t) (ts.flatMap encode)
        rw [List.flatMap_cons, many, if_neg hinput, hread]
        simp only [hless, ite_true, ih, Option.map_some]

theorem many_same_eq_some {r : Reader α} {encode : α → Bytes} {IsReadable : α → Prop}
    (hne : ∀ a, encode a ≠ [])
    (hr : ∀ {input a rest}, r input = some (a, rest) ↔ IsReadable a ∧ input = encode a ++ rest)
    {values : List α} : many r input = some values ↔
      (∀ a ∈ values, IsReadable a) ∧ input = values.flatMap encode := by
  have hsame : ∀ {input a rest}, r input = some (a, rest) ↔
      ∃ t, (IsReadable t ∧ t = a) ∧ input = encode t ++ rest := by
    intro input a rest
    rw [hr]
    constructor
    · rintro ⟨hreadable, rfl⟩
      exact ⟨a, ⟨hreadable, rfl⟩, rfl⟩
    · rintro ⟨_, ⟨hreadable, rfl⟩, rfl⟩
      exact ⟨hreadable, rfl⟩
  simp only [many_eq_some hne hsame, List.forall₂_and_left, List.forall₂_eq_eq_eq]
  constructor
  · rintro ⟨_, ⟨hreadable, rfl⟩, rfl⟩
    exact ⟨hreadable, rfl⟩
  · rintro ⟨hreadable, rfl⟩
    exact ⟨values, ⟨hreadable, rfl⟩, rfl⟩

/-! ## Optional parts -/

end Reader

theorem Tag.isKnown_context :
    ∀ number < 31, ∀ constructed, isKnown (context number constructed) = true := by decide

theorem Tag.contextNumber?_context :
    ∀ number < 31, ∀ constructed, contextNumber? (context number constructed) = some number := by
  decide

namespace Reader

/-- A part that is optional is there where the next octet is a tag that opens it. -/
theorem optional_eq_some {accepts : Tag → Bool} {r : Reader α} {found : Option α} :
    optional accepts r input = some (found, rest) ↔
      (found = none ∧ input = rest ∧ ∀ tag ∈ input.head?, accepts tag = false) ∨
        ∃ tag ∈ input.head?, accepts tag = true ∧ ∃ a, found = some a ∧ r input = some (a, rest) := by
  unfold optional
  simp only [bind_eq_some]
  constructor
  · rintro ⟨_, _, hpeek, h⟩
    cases hpeek
    cases hhead : input.head? with
    | none =>
        rw [hhead, pure_eq_some] at h
        exact .inl ⟨h.1.symm, h.2, by simp⟩
    | some tag =>
        rw [hhead] at h
        by_cases haccepts : accepts tag = true
        · simp only [haccepts, ite_true, bind_eq_some, pure_eq_some] at h
          obtain ⟨a, _, ha, rfl, rfl⟩ := h
          exact .inr ⟨tag, rfl, haccepts, a, rfl, ha⟩
        · simp only [haccepts, Bool.false_eq_true, ite_false, pure_eq_some] at h
          exact .inl ⟨h.1.symm, h.2, by simpa using haccepts⟩
  · rintro (⟨rfl, rfl, hnone⟩ | ⟨tag, htag, haccepts, a, rfl, ha⟩)
    · refine ⟨_, _, rfl, ?_⟩
      cases hhead : input.head? with
      | none => exact pure_eq_some.mpr ⟨rfl, rfl⟩
      | some tag => simp [hnone tag hhead, pure_eq_some]
    · refine ⟨_, _, rfl, ?_⟩
      simp only [Option.mem_def.mp htag, haccepts, ite_true, bind_eq_some, pure_eq_some]
      exact ⟨a, rest, ha, rfl, rfl⟩

end Reader

/-- An element that may be passed over on the way to a part of some number. -/
structure Element.IsPassed (number : Nat) (e : Element) : Prop where
  readable : e.IsReadable
  below : ∃ n < number, Tag.contextNumber? e.tag = some n

namespace Reader

/-- Whether octets begin with a part of a number that is not below another. -/
def BeginsFrom (number : Nat) (input : Bytes) : Prop :=
  ∀ n ∈ input.head?.bind Tag.contextNumber?, number ≤ n

theorem beginsFrom_context {first number : Nat} (hnumber : number < 31) (hfirst : first ≤ number)
    (constructed : Bool) (content : Bytes) :
    BeginsFrom first (wrap (Tag.context number constructed) content ++ rest) := by
  intro n hn
  have hown : some number = some n :=
    (Tag.contextNumber?_context number hnumber constructed).symm.trans hn
  cases hown
  exact hfirst

theorem skipContextBelow_eq_some {number : Nat} : skipContextBelow number input = some rest ↔
    ∃ passed : List Element, (∀ e ∈ passed, e.IsPassed number) ∧
      input = passed.flatMap Element.encode ++ rest ∧ BeginsFrom number rest := by
  constructor
  · intro h
    fun_induction skipContextBelow number input with
    | case1 input hnone =>
        cases h
        exact ⟨[], by simp, rfl, by simp [BeginsFrom, hnone]⟩
    | case2 => cases h
    | case3 input n hn hbelow e rest' helement hless ih =>
        obtain ⟨passed, hpassed, rfl, hbegins⟩ := ih h
        obtain ⟨hreadable, rfl⟩ := element_eq_some.mp helement
        refine ⟨e :: passed, ?_, by simp, hbegins⟩
        refine List.forall_mem_cons.mpr ⟨⟨hreadable, n, hbelow, ?_⟩, hpassed⟩
        simpa [Element.encode] using hn
    | case4 => cases h
    | case5 input n hn hfrom =>
        cases h
        exact ⟨[], by simp, rfl, by simpa [BeginsFrom, hn] using hfrom⟩
  · rintro ⟨passed, hpassed, rfl, hbegins⟩
    induction passed with
    | nil =>
        rw [List.flatMap_nil, List.nil_append, skipContextBelow]
        cases hn : rest.head?.bind Tag.contextNumber? with
        | none => rfl
        | some n => simp [Nat.not_lt.mpr (hbegins n hn)]
    | cons e passed ih =>
        rw [List.forall_mem_cons] at hpassed
        obtain ⟨⟨hreadable, n, hbelow, hn⟩, hpassed⟩ := hpassed
        have helement := element_eq_some.mpr
          ⟨hreadable, (rfl : e.encode ++ (passed.flatMap Element.encode ++ rest) = _)⟩
        have hhead : (e.encode ++ (passed.flatMap Element.encode ++ rest)).head? = some e.tag := rfl
        rw [List.flatMap_cons, List.append_assoc, skipContextBelow, hhead, Option.bind_some, hn]
        have hless :=
          Bytes.length_lt_append e.encode_ne_nil (passed.flatMap Element.encode ++ rest)
        simp only [hbelow, ite_true, helement, hless]
        exact ih hpassed

theorem contextual_iff {number : Nat} {r : Reader α} {found : Option α} :
    contextual number r input = some (found, rest) ↔
      ∃ mid, skipContextBelow number input = some mid ∧
        optional (fun tag => Tag.contextNumber? tag = some number) r mid = some (found, rest) := by
  unfold contextual
  simp only [bind_eq_some, liftM_eq_some]
  constructor
  · rintro ⟨_, _, hget, mid, _, ⟨hskip, rfl⟩, _, _, hset, h⟩
    cases hget
    cases hset
    exact ⟨mid, hskip, h⟩
  · rintro ⟨mid, hskip, h⟩
    exact ⟨input, input, rfl, mid, input, ⟨hskip, rfl⟩, (), mid, rfl, h⟩

variable {number : Nat} {constructed : Bool} {decode : Bytes → Option α} {found : Option α}

theorem optional_context_eq_some (hnumber : number < 31) (hbegins : BeginsFrom number input) :
    optional (fun tag => Tag.contextNumber? tag = some number)
        (tagged (Tag.context number constructed) decode) input = some (found, rest) ↔
      (found = none ∧ input = rest ∧ BeginsFrom (number + 1) rest) ∨
        ∃ content a, found = some a ∧ content.length ≤ maxLength ∧ decode content = some a ∧
          input = wrap (Tag.context number constructed) content ++ rest := by
  have hown := Tag.contextNumber?_context number hnumber constructed
  have hlater : (∀ tag ∈ input.head?, decide (Tag.contextNumber? tag = some number) = false) ↔
      BeginsFrom (number + 1) input := by
    constructor
    · intro h n hn
      obtain ⟨tag, htag, htold⟩ := Option.bind_eq_some_iff.mp hn
      have hfrom := hbegins n hn
      have hother : n ≠ number := by
        rintro rfl
        exact of_decide_eq_false (h tag htag) htold
      omega
    · intro h tag htag
      rw [decide_eq_false_iff_not]
      intro hsame
      have := h number (Option.bind_eq_some_iff.mpr ⟨tag, htag, hsame⟩)
      omega
  rw [optional_eq_some, hlater]
  simp only [tagged_eq_some (Tag.isKnown_context number hnumber constructed)]
  constructor
  · rintro (⟨rfl, rfl, h⟩ | ⟨tag, htag, -, a, rfl, content, hfits, ha, rfl⟩)
    · exact .inl ⟨rfl, rfl, h⟩
    · exact .inr ⟨content, a, rfl, hfits, ha, rfl⟩
  · rintro (⟨rfl, rfl, h⟩ | ⟨content, a, rfl, hfits, ha, rfl⟩)
    · exact .inl ⟨rfl, rfl, h⟩
    · exact .inr ⟨_, rfl, by simpa using hown, a, rfl, content, hfits, ha, rfl⟩

/-- A part under a context-specific number, which may be absent, with what is passed over before it. -/
theorem contextual_eq_some (hnumber : number < 31) :
    contextual number (tagged (Tag.context number constructed) decode) input = some (found, rest) ↔
      ∃ passed : List Element, (∀ e ∈ passed, e.IsPassed number) ∧
        ((found = none ∧ input = passed.flatMap Element.encode ++ rest ∧
            BeginsFrom (number + 1) rest) ∨
          ∃ content a, found = some a ∧ content.length ≤ maxLength ∧ decode content = some a ∧
            input = passed.flatMap Element.encode ++
              (wrap (Tag.context number constructed) content ++ rest)) := by
  rw [contextual_iff]
  constructor
  · rintro ⟨mid, hskip, h⟩
    obtain ⟨passed, hpassed, rfl, hbegins⟩ := skipContextBelow_eq_some.mp hskip
    refine ⟨passed, hpassed, ?_⟩
    rcases (optional_context_eq_some hnumber hbegins).mp h with
      ⟨rfl, rfl, hlater⟩ | ⟨content, a, rfl, hfits, ha, rfl⟩
    · exact .inl ⟨rfl, rfl, hlater⟩
    · exact .inr ⟨content, a, rfl, hfits, ha, rfl⟩
  · rintro ⟨passed, hpassed, ⟨rfl, rfl, hlater⟩ | ⟨content, a, rfl, hfits, ha, rfl⟩⟩
    · have hbegins : BeginsFrom number rest := fun n hn => by
        have := hlater n hn
        omega
      exact ⟨rest, skipContextBelow_eq_some.mpr ⟨passed, hpassed, rfl, hbegins⟩,
        (optional_context_eq_some hnumber hbegins).mpr (.inl ⟨rfl, rfl, hlater⟩)⟩
    · have hbegins : BeginsFrom number (wrap (Tag.context number constructed) content ++ rest) :=
        beginsFrom_context hnumber (Nat.le_refl number) constructed content
      exact ⟨_, skipContextBelow_eq_some.mpr ⟨passed, hpassed, rfl, hbegins⟩,
        (optional_context_eq_some hnumber hbegins).mpr (.inr ⟨content, a, rfl, hfits, ha, rfl⟩)⟩

end Reader

end Der

end KeyPool
