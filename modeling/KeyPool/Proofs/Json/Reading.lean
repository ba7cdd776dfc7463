import KeyPool.Json.Format
import KeyPool.Proofs.Hexadecimal
import KeyPool.Proofs.Results
import Mathlib.Data.List.Basic

/-! How readers take what was written off the front of a text. A reader is told by what it makes of a
text with anything behind it that a value may stand before. -/

namespace KeyPool.Json

namespace Reader

variable {α β σ : Type} {cs rest : List Char}

/-! ## Readers one after another -/

theorem bind_of_ok {x : Reader α} {f : α → Reader β} {a : α} (h : x cs = .ok (a, rest)) :
    (x >>= f) cs = f a rest := by
  change x cs >>= (fun p => f p.1 p.2) = _
  rw [h]
  rfl

theorem bind_eq_ok {x : Reader α} {f : α → Reader β} {r : β × List Char} :
    (x >>= f) cs = .ok r ↔ ∃ a rest, x cs = .ok (a, rest) ∧ f a rest = .ok r := by
  change x cs >>= (fun p => f p.1 p.2) = _ ↔ _
  rw [KeyPool.bind_eq_ok, Prod.exists]

theorem map_of_ok {x : Reader α} {f : α → β} {a : α} (h : x cs = .ok (a, rest)) :
    (f <$> x) cs = .ok (f a, rest) := by
  change x cs >>= (fun p => Except.ok (f p.1, p.2)) = _
  rw [h]
  rfl

theorem map_eq_ok {x : Reader α} {f : α → β} {b : β} :
    (f <$> x) cs = .ok (b, rest) ↔ ∃ a, x cs = .ok (a, rest) ∧ f a = b := by
  change x cs >>= (fun p => Except.ok (f p.1, p.2)) = _ ↔ _
  rw [KeyPool.bind_eq_ok, Prod.exists]
  simp

theorem pure_eq_ok {a b : α} : (pure a : Reader α) cs = .ok (b, rest) ↔ a = b ∧ cs = rest := by
  change Except.ok (a, cs) = _ ↔ _
  simp

theorem throw_ne_ok {e : Fault} {r : α × List Char} : (throw e : Reader α) cs ≠ .ok r :=
  fun h => nomatch h

theorem peek_cons {c : Char} (hc : isBlank c = false) : peek (c :: rest) = .ok (c, c :: rest) := by
  rw [peek, List.dropWhile_cons_of_neg (by simp [hc])]

theorem discard_char_cons {c : Char} : (discard char : Reader PUnit) (c :: rest) = .ok (.unit, rest) :=
  rfl

theorem symbol_cons {c : Char} (hc : isBlank c = false) : symbol c (c :: rest) = .ok ((), rest) := by
  rw [symbol, bind_of_ok (peek_cons hc), if_pos rfl]
  rfl

theorem loop_inl {step : σ → Reader (σ ⊕ β)} {s s' : σ} (h : step s cs = .ok (.inl s', rest))
    (hless : rest.length < cs.length) : loop step s cs = loop step s' rest := by
  rw [loop, h]
  exact if_pos hless

theorem loop_inr {step : σ → Reader (σ ⊕ β)} {s : σ} {b : β} (h : step s cs = .ok (.inr b, rest)) :
    loop step s cs = .ok (b, rest) := by
  rw [loop, h]

/-- What each step keeps is left when the last one answers. -/
theorem loop_keeps {step : σ → Reader (σ ⊕ β)} {P : σ → Prop} {Q : β → Prop}
    (hstep : ∀ s cs r rest, P s → step s cs = .ok (r, rest) → Sum.elim P Q r) {s : σ} {b : β}
    (hs : P s) (h : loop step s cs = .ok (b, rest)) : Q b := by
  fun_induction loop step s cs with
  | case1 => cases h
  | case2 s cs b' rest' hanswer =>
      cases h
      exact hstep _ _ _ _ hs hanswer
  | case3 s cs s' rest' hgoes hless ih => exact ih (hstep _ _ _ _ hs hgoes) h
  | case4 => cases h

theorem bind_throw_ne_ok {x : Reader α} {e : Fault} {r : β × List Char} :
    (x >>= fun _ => (throw e : Reader β)) cs ≠ .ok r := by
  intro h
  obtain ⟨_, _, -, h⟩ := bind_eq_ok.mp h
  exact throw_ne_ok h

/-- Whatever stands where a value of another kind is asked for, no value is read. -/
theorem otherKind_ne_ok {r : α × List Char} : otherKind cs ≠ .ok r := by
  intro h
  rw [otherKind, bind_eq_ok] at h
  obtain ⟨c, rest, -, h⟩ := h
  split at h
  · exact throw_ne_ok h
  · obtain ⟨_, rest, -, h⟩ := bind_eq_ok.mp h
    repeat' split at h
    all_goals exact bind_throw_ne_ok h

/-! ## Strings -/

theorem hexUnit_control {c : Char} (hc : c.toNat < 0x20) :
    hexUnit ('0' :: '0' :: Bytes.hexDigit (c.toNat / 16) :: Bytes.hexDigit (c.toNat % 16) :: rest) =
      .ok (c.toNat, rest) := by
  have hhigh := Bytes.hexValue?_hexDigit (c.toNat / 16) (by omega)
  have hlow := Bytes.hexValue?_hexDigit (c.toNat % 16) (by omega)
  have hzero : Bytes.hexValue? '0' = some 0 := rfl
  have hvalue : ((0 * 16 + 0) * 16 + c.toNat / 16) * 16 + c.toNat % 16 = c.toNat := by omega
  simp only [hexUnit, hzero, hhigh, hlow, hvalue]

/-- A character is read back from what it is escaped to. -/
theorem stringStep_escape (read : List Char) (c : Char) :
    stringStep read (Format.escape c ++ rest) = .ok (.inl (c :: read), rest) := by
  unfold Format.escape
  split
  · rename_i hc
    rcases hc with rfl | rfl <;> rfl
  · rename_i hmark
    iterate 5
      split
      · subst c
        rfl
    split
    · rename_i hcontrol
      have hlow : ¬ (0xdc00 ≤ c.toNat ∧ c.toNat ≤ 0xdfff) := by omega
      have hplain : c.toNat < 0xd800 ∨ 0xdfff < c.toNat := by omega
      have hread : unicodeEscape ('0' :: '0' :: Bytes.hexDigit (c.toNat / 16) ::
          Bytes.hexDigit (c.toNat % 16) :: rest) = .ok (c, rest) := by
        rw [unicodeEscape, bind_of_ok (hexUnit_control hcontrol), if_neg hlow, if_pos hplain,
          Char.ofNat_toNat]
        rfl
      simp only [List.cons_append, List.nil_append]
      rw [stringStep, bind_of_ok (a := '\\') rfl, if_neg (by decide), if_pos rfl,
        bind_of_ok (a := 'u') rfl, if_pos rfl, bind_of_ok hread]
      rfl
    · rename_i hprinted
      obtain ⟨hquote, hslash⟩ := not_or.mp hmark
      simp only [List.cons_append, List.nil_append]
      rw [stringStep, bind_of_ok (a := c) rfl, if_neg hquote, if_neg hslash, if_neg hprinted]
      rfl

theorem escape_ne_nil (c : Char) : Format.escape c ≠ [] := by
  unfold Format.escape
  repeat' split
  all_goals exact List.cons_ne_nil _ _

theorem loop_stringStep (read cs : List Char) :
    loop stringStep read (cs.flatMap Format.escape ++ '"' :: rest) =
      .ok (String.ofList (read.reverse ++ cs), rest) := by
  induction cs generalizing read with
  | nil =>
      rw [List.append_nil]
      exact loop_inr rfl
  | cons c cs ih =>
      rw [List.flatMap_cons, List.append_assoc, loop_inl (stringStep_escape read c), ih]
      · simp
      · have hpos := List.length_pos_iff.mpr (escape_ne_nil c)
        simp only [List.length_append] at hpos ⊢
        omega

theorem string_quoted (s : String) :
    string (s.toList.flatMap Format.escape ++ '"' :: rest) = .ok (s, rest) := by
  rw [string, loop_stringStep]
  simp

end Reader

/-! ## Numbers -/

/-- What may follow a value: the end of the text, or what stands between and behind the values of an
array or object. -/
def Ends (rest : List Char) : Prop := ∀ c ∈ rest.head?, c ∈ [',', ']', '}']

theorem ends_nil : Ends [] := by simp [Ends]

theorem ends_cons {c : Char} {rest : List Char} (hc : c ∈ [',', ']', '}']) : Ends (c :: rest) := by
  simpa [Ends] using hc

namespace Reader

variable {rest : List Char}

theorem digits_append {ds : List Char} (hds : ∀ c ∈ ds, c.isDigit = true) (hrest : Ends rest) :
    digits (ds ++ rest) = .ok (ds.map digitValue, rest) := by
  have hstop : ∀ c ∈ [',', ']', '}'], c.isDigit = false := by simp
  have hnone : rest.takeWhile Char.isDigit = [] ∧ rest.dropWhile Char.isDigit = rest := by
    cases rest with
    | nil => exact ⟨rfl, rfl⟩
    | cons c rest => simp [hstop c (hrest c rfl)]
  rw [digits, List.takeWhile_append_of_pos hds, List.dropWhile_append_of_pos hds, hnone.1, hnone.2,
    List.append_nil]

theorem oneOf_none {cs : List Char} (hcs : ∀ c ∈ [',', ']', '}'], c ∉ cs) (hrest : Ends rest) :
    oneOf cs rest = .ok (none, rest) := by
  cases rest with
  | nil => rfl
  | cons c rest =>
      have hc : cs.contains c = false := by simpa using hcs c (hrest c rfl)
      rw [oneOf, hc]
      rfl

end Reader

namespace Numeral

theorem le_foldl (significand : Nat) (ds : List Nat) :
    significand ≤ ds.foldl (fun n d => 10 * n + d) significand := by
  induction ds generalizing significand with
  | nil => exact Nat.le_refl _
  | cons d ds ih => exact Nat.le_trans (by omega) (ih (10 * significand + d))

theorem accumulate_eq {significand : Nat} {ds : List Nat}
    (hfits : ds.foldl (fun n d => 10 * n + d) significand < 18446744073709551616) :
    accumulate significand ds = (ds.foldl (fun n d => 10 * n + d) significand, 0) := by
  induction ds generalizing significand with
  | nil => rfl
  | cons d ds ih =>
      have hstep := Nat.lt_of_le_of_lt (le_foldl (10 * significand + d) ds) hfits
      rw [accumulate, if_pos hstep, ih hfits, List.foldl_cons]

theorem toDigits_head_ne_zero {n : Nat} (hn : 0 < n) : (Nat.toDigits 10 n).head? ≠ some '0' := by
  induction n using Nat.strongRecOn with
  | _ n ih =>
      by_cases hsmall : n < 10
      · rw [Nat.toDigits_of_lt_base hsmall]
        have hdigit : ∀ d < 10, 0 < d → d.digitChar ≠ '0' := by decide
        simpa using hdigit n hsmall hn
      · rw [Nat.toDigits_eq_if (by decide), if_neg hsmall]
        have hfirst := ih (n / 10) (by omega) (by omega)
        cases hdigits : Nat.toDigits 10 (n / 10) with
        | nil => exact absurd hdigits Nat.toDigits_ne_nil
        | cons first others =>
            rw [hdigits] at hfirst
            exact hfirst

/-- The digits of a number: the first, which is no zero in front of others, and the others. -/
theorem exists_toDigits (n : Nat) : ∃ first others, Nat.toDigits 10 n = first :: others ∧
    (∀ c ∈ first :: others, c.isDigit = true) ∧ (first = '0' → others = []) ∧
    (others.map Reader.digitValue).foldl (fun n d => 10 * n + d) (Reader.digitValue first) = n := by
  cases hdigits : Nat.toDigits 10 n with
  | nil => exact absurd hdigits Nat.toDigits_ne_nil
  | cons first others =>
      refine ⟨first, others, rfl, ?_, ?_, ?_⟩
      · intro c hc
        exact Nat.isDigit_of_mem_toDigits (by decide) (by decide) (hdigits ▸ hc)
      · rintro rfl
        by_cases hn : 0 < n
        · exact absurd (by rw [hdigits]; rfl) (toDigits_head_ne_zero hn)
        · have hzero : n = 0 := by omega
          rw [hzero, Nat.toDigits_zero] at hdigits
          exact (List.cons.inj hdigits).2.symm
      · have hvalue : Nat.ofDigitChars 10 (Nat.toDigits 10 n) 0 = n := Nat.ofDigitChars_ten_toDigits
        rw [hdigits, Nat.ofDigitChars_eq_foldl, List.foldl_cons, Nat.mul_zero, Nat.zero_add] at hvalue
        rw [List.foldl_map]
        exact hvalue

end Numeral

namespace Reader

variable {rest : List Char}

theorem numeralEnd_whole (negative : Bool) (n : Nat) (hrest : Ends rest) :
    numeralEnd negative n 0 rest = .ok (⟨negative, n, 0, true⟩, rest) := by
  have hpoint : oneOf ['.'] rest = .ok (none, rest) := oneOf_none (by simp) hrest
  have hexponent : optionalExponent rest = .ok (none, rest) := by
    rw [optionalExponent, bind_of_ok (oneOf_none (by simp) hrest)]
    rfl
  rw [numeralEnd, bind_of_ok hpoint]
  simp only
  rw [bind_of_ok hexponent]
  rfl

/-- A number of at most sixty-four bits is read back if it is an integer that can be told. -/
theorem numeral_toDigits (negative : Bool) {n : Nat} (hn : n < 18446744073709551616)
    (htold : (Numeral.mk negative n 0 true).integer?.isSome) (hrest : Ends rest) :
    numeral negative (Nat.toDigits 10 n ++ rest) = .ok (⟨negative, n, 0, true⟩, rest) := by
  obtain ⟨first, others, hdigits, hall, hzero, hvalue⟩ := Numeral.exists_toDigits n
  rw [List.forall_mem_cons] at hall
  have htaken : Numeral.accumulate (digitValue first) (others.map digitValue) = (n, 0) := by
    rw [Numeral.accumulate_eq (by rwa [hvalue]), hvalue]
  have hleading : ¬ (first = '0' ∧ others.map digitValue ≠ []) := by
    rintro ⟨hfirst, hothers⟩
    exact hothers (by rw [hzero hfirst, List.map_nil])
  have hfirst : ¬ first.isDigit = false := by simp [hall.1]
  have hunknown : ¬ ((Numeral.mk negative n 0 true).integer?.isNone ∧
      (Numeral.mk negative n 0 true).magnitude?.isNone) := by
    rw [Option.isNone_iff_eq_none]
    rintro ⟨hnone, -⟩
    rw [hnone] at htold
    cases htold
  rw [hdigits, List.cons_append, numeral, bind_of_ok (a := first) rfl, if_neg hfirst,
    bind_of_ok (digits_append hall.2 hrest), if_neg hleading, htaken]
  simp only
  rw [bind_of_ok (numeralEnd_whole negative n hrest), if_neg hunknown]
  rfl

end Reader

end KeyPool.Json
