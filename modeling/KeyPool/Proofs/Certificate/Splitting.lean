import KeyPool.Proofs.Certificate.Chains
import KeyPool.Proofs.Results

/-! How octets are divided into certificates. A certificate is read off its own octets, whatever follows
them, so there is one division at most; it is found one certificate after another, and reading ends at
the first octets that begin no certificate, or at the first that are left over after eight. -/

namespace KeyPool

variable {input more part part' rest rest' : Bytes} {parts parts' : List Bytes} {c c' : Certificate}
  {cs cs' : List Certificate} {position calls calls' : Nat}
  {outcome outcome' : Except ChainError (List Certificate)}

/-! ## Single encodings -/

namespace Bytes

/-- Octets are an encoding of a certificate, to the last of them. -/
def IsEncodingOf (part : Bytes) (c : Certificate) : Prop := Certificate.reader part = some (c, [])

theorem IsEncodingOf.reader_append (h : part.IsEncodingOf c) (rest : Bytes) :
    Certificate.reader (part ++ rest) = some (c, rest) := by
  obtain ⟨w, hw, rfl⟩ := WrittenCertificate.reader_eq_some.mp h
  refine WrittenCertificate.reader_eq_some.mpr ⟨w, hw, ?_⟩
  rw [List.append_nil]

theorem IsEncodingOf.ne_nil (h : part.IsEncodingOf c) : part ≠ [] := by
  obtain ⟨w, hw, rfl⟩ := WrittenCertificate.reader_eq_some.mp h
  rw [List.append_nil]
  exact w.encode_ne_nil

/-- Encodings that begin the same octets are the same. -/
theorem IsEncodingOf.unique (h : part.IsEncodingOf c) (h' : part'.IsEncodingOf c')
    (hsame : part ++ rest = part' ++ rest') : part = part' ∧ c = c' ∧ rest = rest' := by
  have hread := h.reader_append rest
  rw [hsame, h'.reader_append rest'] at hread
  cases hread
  exact ⟨List.append_cancel_right hsame, rfl, rfl⟩

end Bytes

namespace Certificate

theorem reader_eq_some : reader input = some (c, rest) ↔
    ∃ part : Bytes, part.IsEncodingOf c ∧ input = part ++ rest := by
  constructor
  · intro h
    obtain ⟨w, hw, rfl⟩ := WrittenCertificate.reader_eq_some.mp h
    exact ⟨w.encode, WrittenCertificate.reader_eq_some.mpr ⟨w, hw, by simp⟩, rfl⟩
  · rintro ⟨part, hpart, rfl⟩
    exact hpart.reader_append rest

/-- No certificate is read off octets exactly if they do not begin with an encoding of one. -/
theorem reader_eq_none : reader input = none ↔
    ∀ (part : Bytes) (c : Certificate), part.IsEncodingOf c → ¬ part <+: input := by
  constructor
  · rintro h part c hpart ⟨rest, rfl⟩
    rw [hpart.reader_append rest] at h
    cases h
  · intro h
    cases hread : reader input with
    | none => rfl
    | some found =>
        obtain ⟨c, rest⟩ := found
        obtain ⟨part, hpart, rfl⟩ := reader_eq_some.mp hread
        exact absurd (List.prefix_append part rest) (h part c hpart)

theorem length_lt_of_reader (h : reader input = some (c, rest)) : rest.length < input.length := by
  obtain ⟨part, hpart, rfl⟩ := reader_eq_some.mp h
  have hpos := List.length_pos_of_ne_nil hpart.ne_nil
  rw [List.length_append]
  omega

end Certificate

/-! ## Divisions -/

/-- Octets are encodings of certificates, one after another. -/
structure Bytes.SplitsInto (input : Bytes) (parts : List Bytes) (cs : List Certificate) : Prop where
  joined : parts.flatten = input
  each : List.Forall₂ IsEncodingOf parts cs

namespace Bytes.SplitsInto

theorem nil : SplitsInto [] [] [] := ⟨rfl, .nil⟩

theorem cons (hpart : part.IsEncodingOf c) (h : input.SplitsInto parts cs) :
    (part ++ input).SplitsInto (part :: parts) (c :: cs) := by
  obtain ⟨rfl, hparts⟩ := h
  exact ⟨rfl, .cons hpart hparts⟩

theorem append (h : input.SplitsInto parts cs) (h' : more.SplitsInto parts' cs') :
    (input ++ more).SplitsInto (parts ++ parts') (cs ++ cs') := by
  obtain ⟨rfl, hparts⟩ := h
  obtain ⟨rfl, hparts'⟩ := h'
  exact ⟨List.flatten_append, List.rel_append hparts hparts'⟩

theorem one_le (h : input.SplitsInto parts cs) (hinput : input ≠ []) : 1 ≤ cs.length := by
  obtain ⟨rfl, hparts⟩ := h
  cases hparts with
  | nil => exact absurd rfl hinput
  | cons => simp

theorem unique (h : input.SplitsInto parts cs) (h' : input.SplitsInto parts' cs') :
    parts = parts' ∧ cs = cs' := by
  obtain ⟨rfl, hparts⟩ := h
  obtain ⟨hsame, hparts'⟩ := h'
  induction hparts generalizing parts' cs' with
  | nil =>
      cases hparts' with
      | nil => simp
      | cons hpart => simp [hpart.ne_nil] at hsame
  | cons hpart hparts ih =>
      cases hparts' with
      | nil => simp [hpart.ne_nil] at hsame
      | cons hpart' hparts' =>
          rw [List.flatten_cons, List.flatten_cons] at hsame
          obtain ⟨rfl, rfl, hrest⟩ := hpart'.unique hpart hsame
          obtain ⟨rfl, rfl⟩ := ih hrest hparts'
          simp

end Bytes.SplitsInto

/-! ## The loop -/

namespace Certificate

/-- Reading on from a position, with the number of times that a certificate is looked for: there is
nothing left, eight are read and there is something left, what is left begins no certificate, or one is
taken off it. That the rest is shorter is no part of the rules. -/
inductive Reading : Nat → Bytes → Nat → Except ChainError (List Certificate) → Prop where
  | finished (position : Nat) : Reading position [] 0 (.ok [])
  | full {input : Bytes} (hinput : input ≠ []) : Reading maxChainLength input 0 (.error .tooLong)
  | stuck {position : Nat} {input : Bytes} (hinput : input ≠ []) (hposition : position ≠ maxChainLength)
      (hread : reader input = none) : Reading position input 1 (.error (.undecodable position))
  | next {position calls : Nat} {input rest : Bytes} {c : Certificate}
      {outcome : Except ChainError (List Certificate)} (hinput : input ≠ [])
      (hposition : position ≠ maxChainLength) (hread : reader input = some (c, rest))
      (h : Reading (position + 1) rest calls outcome) :
      Reading position input (calls + 1) (outcome.map (c :: ·))

theorem readAll_reading (position : Nat) (input : Bytes) :
    ∃ calls, Reading position input calls (readAll position input) := by
  fun_induction readAll position input with
  | case1 position => exact ⟨0, .finished position⟩
  | case2 input hinput => exact ⟨0, .full hinput⟩
  | case3 position input hinput hposition hread => exact ⟨1, .stuck hinput hposition hread⟩
  | case4 position input hinput hposition c rest hread hless ih =>
      obtain ⟨calls, h⟩ := ih
      exact ⟨calls + 1, .next hinput hposition hread h⟩
  | case5 position input hinput hposition c rest hread hless =>
      exact absurd (length_lt_of_reader hread) hless

theorem Reading.unique (h : Reading position input calls outcome)
    (h' : Reading position input calls' outcome') : calls' = calls ∧ outcome' = outcome := by
  induction h generalizing calls' outcome' with
  | finished =>
      cases h' <;> simp_all
  | full => cases h' <;> simp_all
  | stuck => cases h' <;> simp_all
  | next hinput hposition hread h ih =>
      cases h' with
      | finished => simp at hinput
      | full => simp at hposition
      | stuck _ _ hread' => simp [hread] at hread'
      | next _ _ hread' h' =>
          rw [hread, Option.some.injEq] at hread'
          cases hread'
          obtain ⟨rfl, rfl⟩ := ih h'
          simp

/-- A certificate is looked for eight times at most. -/
theorem Reading.calls_le (h : Reading position input calls outcome)
    (hposition : position ≤ maxChainLength) : position + calls ≤ maxChainLength := by
  induction h with
  | finished => exact hposition
  | full => exact hposition
  | stuck _ hne _ => omega
  | next _ hne _ _ ih =>
      have := ih (by omega)
      omega

/-! ## Where reading stops -/

theorem readAll_full (hrest : rest ≠ []) : readAll maxChainLength rest = .error .tooLong := by
  rw [readAll, if_neg hrest, if_pos rfl]

theorem readAll_stuck (hrest : rest ≠ []) (hposition : position < maxChainLength)
    (hread : reader rest = none) : readAll position rest = .error (.undecodable position) := by
  rw [readAll, if_neg hrest, if_neg (by omega), hread]

theorem readAll_cons (hpart : part.IsEncodingOf c) (hposition : position < maxChainLength)
    (rest : Bytes) : readAll position (part ++ rest) = (readAll (position + 1) rest).map (c :: ·) := by
  have hread := hpart.reader_append rest
  have hne : part ++ rest ≠ [] := by simp [hpart.ne_nil]
  rw [readAll, if_neg hne, if_neg (by omega), hread]
  simp only [length_lt_of_reader hread, ite_true]

/-- Encodings in front of other octets are read first, if there is room for all of them. -/
theorem readAll_append (h : input.SplitsInto parts cs) (hroom : position + cs.length ≤ maxChainLength)
    (rest : Bytes) :
    readAll position (input ++ rest) = (readAll (position + cs.length) rest).map (cs ++ ·) := by
  obtain ⟨rfl, hparts⟩ := h
  induction hparts generalizing position with
  | nil => cases h : readAll position rest <;> simp [Except.map, h]
  | cons hpart hparts ih =>
      rename_i part c parts cs
      rw [List.length_cons] at hroom ⊢
      have hcount : position + 1 + cs.length = position + (cs.length + 1) := by omega
      rw [List.flatten_cons, List.append_assoc, readAll_cons hpart (by omega), ih (by omega), hcount]
      cases readAll (position + (cs.length + 1)) rest <;> rfl

/-- Encodings for which there is no room are not all read. -/
theorem readAll_overfull (h : input.SplitsInto parts cs) (hposition : position ≤ maxChainLength)
    (hover : maxChainLength < position + cs.length) : readAll position input = .error .tooLong := by
  obtain ⟨rfl, hparts⟩ := h
  induction hparts generalizing position with
  | nil =>
      rw [List.length_nil] at hover
      omega
  | cons hpart hparts ih =>
      rename_i part c parts cs
      rw [List.length_cons] at hover
      rw [List.flatten_cons]
      by_cases hfull : position = maxChainLength
      · rw [hfull]
        exact readAll_full (by simp [hpart.ne_nil])
      · rw [readAll_cons hpart (by omega), ih (by omega) (by omega)]
        rfl

/-- Any octets begin with encodings that are all read; then there is nothing left, no room for another
certificate, or nothing that begins one. -/
theorem Reading.exists_stop (h : Reading position input calls outcome)
    (hposition : position ≤ maxChainLength) : ∃ taken parts cs rest,
      Bytes.SplitsInto taken parts cs ∧ input = taken ++ rest ∧
        (rest = [] ∧ position + cs.length ≤ maxChainLength ∨
          rest ≠ [] ∧ position + cs.length = maxChainLength ∨
          rest ≠ [] ∧ position + cs.length < maxChainLength ∧ reader rest = none) := by
  induction h with
  | finished => exact ⟨[], [], [], [], .nil, rfl, .inl ⟨rfl, hposition⟩⟩
  | full hinput => exact ⟨[], [], [], _, .nil, rfl, .inr (.inl ⟨hinput, rfl⟩)⟩
  | stuck hinput hne hread =>
      exact ⟨[], [], [], _, .nil, rfl, .inr (.inr ⟨hinput, by simp; omega, hread⟩)⟩
  | next hinput hne hread hrest ih =>
      rename_i c outcome
      obtain ⟨part, hpart, rfl⟩ := reader_eq_some.mp hread
      obtain ⟨taken, parts, cs, rest, hsplit, rfl, hstop⟩ := ih (by omega)
      refine ⟨part ++ taken, part :: parts, c :: cs, rest, hsplit.cons hpart, by simp, ?_⟩
      rw [List.length_cons, Nat.add_comm cs.length 1, ← Nat.add_assoc]
      exact hstop

theorem readChain_append (h : input.SplitsInto parts cs) (hroom : cs.length ≤ maxChainLength)
    (hne : input ++ rest ≠ []) (hfits : (input ++ rest).length ≤ Der.maxLength) :
    readChain (input ++ rest) = (readAll cs.length rest).map (cs ++ ·) := by
  rw [readChain_of_fits hne hfits, readAll_append h (by omega), Nat.zero_add]

theorem readChain_of_splits (h : input.SplitsInto parts cs) (hone : 1 ≤ cs.length)
    (hroom : cs.length ≤ maxChainLength) (hfits : input.length ≤ Der.maxLength) :
    readChain input = .ok cs := by
  have hne : input ≠ [] := by
    rintro rfl
    obtain ⟨-, rfl⟩ := h.unique .nil
    cases hone
  have hjoined := List.append_nil input
  rw [← hjoined, readChain_append h hroom (by rwa [hjoined]) (by rwa [hjoined])]
  simp [readAll, Except.map]

theorem readChain_full (h : input.SplitsInto parts cs) (hfull : cs.length = maxChainLength)
    (hrest : rest ≠ []) (hfits : (input ++ rest).length ≤ Der.maxLength) :
    readChain (input ++ rest) = .error .tooLong := by
  rw [readChain_append h (by omega) (by simp [hrest]) hfits, hfull, readAll_full hrest]
  rfl

theorem readChain_stuck (h : input.SplitsInto parts cs) (hroom : cs.length < maxChainLength)
    (hrest : rest ≠ []) (hread : reader rest = none)
    (hfits : (input ++ rest).length ≤ Der.maxLength) :
    readChain (input ++ rest) = .error (.undecodable cs.length) := by
  rw [readChain_append h (by omega) (by simp [hrest]) hfits, readAll_stuck hrest hroom hread]
  rfl

/-- What comes of octets of which some are there, and not too many: the encodings that they begin with,
or why there is something left behind these. -/
theorem readChain_cases (hinput : input ≠ []) (hfits : input.length ≤ Der.maxLength) :
    ∃ taken parts cs rest,
    Bytes.SplitsInto taken parts cs ∧ input = taken ++ rest ∧
      (rest = [] ∧ cs.length ≤ maxChainLength ∧ readChain input = .ok cs ∨
        rest ≠ [] ∧ cs.length = maxChainLength ∧ readChain input = .error .tooLong ∨
        rest ≠ [] ∧ cs.length < maxChainLength ∧ reader rest = none ∧
          readChain input = .error (.undecodable cs.length)) := by
  obtain ⟨calls, h⟩ := readAll_reading 0 input
  obtain ⟨taken, parts, cs, rest, hsplit, rfl, hstop⟩ := h.exists_stop (Nat.zero_le _)
  rw [Nat.zero_add] at hstop
  refine ⟨taken, parts, cs, rest, hsplit, rfl, ?_⟩
  rcases hstop with ⟨rfl, hroom⟩ | ⟨hrest, hfull⟩ | ⟨hrest, hroom, hread⟩
  · rw [List.append_nil] at hinput hfits ⊢
    exact .inl ⟨rfl, hroom, readChain_of_splits hsplit (hsplit.one_le hinput) hroom hfits⟩
  · exact .inr (.inl ⟨hrest, hfull, readChain_full hsplit hfull hrest hfits⟩)
  · exact .inr (.inr ⟨hrest, hroom, hread, readChain_stuck hsplit hroom hrest hread hfits⟩)

theorem readChain_eq_ok_iff : readChain input = .ok cs ↔ input.length ≤ Der.maxLength ∧
    (1 ≤ cs.length ∧ cs.length ≤ maxChainLength) ∧ ∃ parts, input.SplitsInto parts cs := by
  constructor
  · intro h
    have hfits := length_le_of_readChain h
    have hinput : input ≠ [] := by
      rintro rfl
      cases h
    obtain ⟨taken, parts, found, rest, hsplit, hjoined, hstop⟩ := readChain_cases hinput hfits
    rcases hstop with ⟨rfl, hroom, hok⟩ | ⟨-, -, herror⟩ | ⟨-, -, -, herror⟩
    · cases h.symm.trans hok
      rw [List.append_nil] at hjoined
      subst hjoined
      exact ⟨hfits, ⟨hsplit.one_le hinput, hroom⟩, parts, hsplit⟩
    · cases h.symm.trans herror
    · cases h.symm.trans herror
  · rintro ⟨hfits, ⟨hone, hroom⟩, parts, hsplit⟩
    exact readChain_of_splits hsplit hone hroom hfits

theorem readChain_eq_error_iff {e : ChainError} : readChain input = .error e ↔
    input = [] ∧ e = .empty ∨ Der.maxLength < input.length ∧ e = .oversized ∨
      input.length ≤ Der.maxLength ∧
      ∃ taken parts cs rest, Bytes.SplitsInto taken parts cs ∧ input = taken ++ rest ∧ rest ≠ [] ∧
        (cs.length = maxChainLength ∧ e = .tooLong ∨
          cs.length < maxChainLength ∧ reader rest = none ∧ e = .undecodable cs.length) := by
  constructor
  · intro h
    by_cases hinput : input = []
    · subst hinput
      cases h
      exact .inl ⟨rfl, rfl⟩
    rcases Nat.lt_or_ge Der.maxLength input.length with hover | hfits
    · rw [readChain_oversized hover] at h
      cases h
      exact .inr (.inl ⟨hover, rfl⟩)
    · refine .inr (.inr ⟨hfits, ?_⟩)
      obtain ⟨taken, parts, cs, rest, hsplit, hjoined, hstop⟩ := readChain_cases hinput hfits
      rcases hstop with ⟨-, -, hok⟩ | ⟨hrest, hfull, herror⟩ | ⟨hrest, hroom, hread, herror⟩
      · cases h.symm.trans hok
      · cases h.symm.trans herror
        exact ⟨taken, parts, cs, rest, hsplit, hjoined, hrest, .inl ⟨hfull, rfl⟩⟩
      · cases h.symm.trans herror
        exact ⟨taken, parts, cs, rest, hsplit, hjoined, hrest, .inr ⟨hroom, hread, rfl⟩⟩
  · rintro (⟨rfl, rfl⟩ | ⟨hover, rfl⟩ | ⟨hfits, taken, parts, cs, rest, hsplit, rfl, hrest, hstop⟩)
    · rfl
    · exact readChain_oversized hover
    · rcases hstop with ⟨hfull, rfl⟩ | ⟨hroom, hread, rfl⟩
      · exact readChain_full hsplit hfull hrest hfits
      · exact readChain_stuck hsplit hroom hrest hread hfits

/-- Two strings that are accepted, one behind the other. -/
theorem readChain_join (h : readChain input = .ok cs) (h' : readChain more = .ok cs')
    (hfits : (input ++ more).length ≤ Der.maxLength) :
    readChain (input ++ more) =
      if cs.length + cs'.length ≤ maxChainLength then .ok (cs ++ cs') else .error .tooLong := by
  obtain ⟨-, ⟨hone, hroom⟩, parts, hsplit⟩ := readChain_eq_ok_iff.mp h
  obtain ⟨-, -, parts', hsplit'⟩ := readChain_eq_ok_iff.mp h'
  by_cases hboth : cs.length + cs'.length ≤ maxChainLength
  · rw [if_pos hboth]
    refine readChain_of_splits (hsplit.append hsplit') ?_ ?_ hfits <;>
    · rw [List.length_append]
      omega
  · have hne : input ++ more ≠ [] := by
      intro hnil
      obtain ⟨rfl, rfl⟩ := List.append_eq_nil_iff.mp hnil
      cases h
    rw [if_neg hboth, readChain_append hsplit hroom hne hfits,
      readAll_overfull hsplit' hroom (by omega)]
    rfl

theorem readChain_trailing (h : readChain input = .ok cs) (hrest : rest ≠ [])
    (hnone : ∀ (part : Bytes) (c : Certificate), part.IsEncodingOf c → ¬ part <+: rest)
    (hfits : (input ++ rest).length ≤ Der.maxLength) :
    readChain (input ++ rest) =
      .error (if cs.length = maxChainLength then .tooLong else .undecodable cs.length) := by
  obtain ⟨-, ⟨-, hroom⟩, parts, hsplit⟩ := readChain_eq_ok_iff.mp h
  by_cases hfull : cs.length = maxChainLength
  · rw [if_pos hfull]
    exact readChain_full hsplit hfull hrest hfits
  · rw [if_neg hfull]
    exact readChain_stuck hsplit (by omega) hrest (reader_eq_none.mpr hnone) hfits

end Certificate

section

variable [AttributeLabels]

/-- How octets are divided into certificates: exactly if they are encodings one after another, one to
eight, and not too many for a reader, and then in one way. Otherwise they are told to be none or too many,
or it is told where the encodings end that they begin with, after eight or because none begins there. -/
structure SplittingSpec (encoded : Bytes) : Prop where
  accepted : ∀ cs, Certificate.readChain encoded = .ok cs ↔ encoded.length ≤ Der.maxLength ∧
    (1 ≤ cs.length ∧ cs.length ≤ maxChainLength) ∧ ∃ parts, encoded.SplitsInto parts cs
  unique : ∀ parts cs parts' cs', encoded.SplitsInto parts cs → encoded.SplitsInto parts' cs' →
    parts = parts' ∧ cs = cs'
  rejected : ∀ e, Certificate.readChain encoded = .error e ↔
    encoded = [] ∧ e = .empty ∨ Der.maxLength < encoded.length ∧ e = .oversized ∨
    encoded.length ≤ Der.maxLength ∧
    ∃ taken parts cs rest, Bytes.SplitsInto taken parts cs ∧ encoded = taken ++ rest ∧ rest ≠ [] ∧
      (cs.length = maxChainLength ∧ e = .tooLong ∨
        cs.length < maxChainLength ∧ Certificate.reader rest = none ∧ e = .undecodable cs.length)
  joined : ∀ cs more cs', Certificate.readChain encoded = .ok cs → Certificate.readChain more = .ok cs' →
    (encoded ++ more).length ≤ Der.maxLength →
    Certificate.readChain (encoded ++ more) =
      if cs.length + cs'.length ≤ maxChainLength then .ok (cs ++ cs') else .error .tooLong
  trailing : ∀ cs rest, Certificate.readChain encoded = .ok cs → rest ≠ [] →
    (∀ (part : Bytes) (c : Certificate), part.IsEncodingOf c → ¬ part <+: rest) →
    (encoded ++ rest).length ≤ Der.maxLength →
    Certificate.readChain (encoded ++ rest) =
      .error (if cs.length = maxChainLength then .tooLong else .undecodable cs.length)
  ends : encoded ≠ [] → encoded.length ≤ Der.maxLength → ∃ calls, calls ≤ maxChainLength ∧
    Certificate.Reading 0 encoded calls (Certificate.readChain encoded) ∧
      ∀ calls' outcome, Certificate.Reading 0 encoded calls' outcome →
        calls' = calls ∧ outcome = Certificate.readChain encoded
  within : ∀ chain, CertificateChain.ofBytes encoded = .ok chain →
    chain.certificates[0]? = some chain.leaf ∧
      chain.certificates[chain.length - 1]? = some chain.root

/-- One to eight certificates are split off octets in the one way in which they can be. -/
theorem splitting_spec (encoded : Bytes) : SplittingSpec encoded := by
  refine ⟨fun _ => Certificate.readChain_eq_ok_iff, fun _ _ _ _ h h' => h.unique h',
    fun _ => Certificate.readChain_eq_error_iff, fun _ _ _ => Certificate.readChain_join,
    fun _ _ => Certificate.readChain_trailing, ?_, ?_⟩
  · intro hne hfits
    obtain ⟨calls, h⟩ := Certificate.readAll_reading 0 encoded
    rw [Certificate.readChain_of_fits hne hfits]
    have hcalls := h.calls_le (Nat.zero_le _)
    exact ⟨calls, by omega, h, fun _ _ h' => h.unique h'⟩
  · intro chain _
    refine ⟨rfl, ?_⟩
    rw [CertificateChain.length, ← List.getLast?_eq_getElem?]
    exact List.getLast?_eq_getLast_of_ne_nil _

end

end KeyPool
