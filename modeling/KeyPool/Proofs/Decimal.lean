import KeyPool.Bytes
import KeyPool.Decimal
import Mathlib.Algebra.Group.Nat.Defs
import Mathlib.Data.List.Basic
import Mathlib.Data.List.Induction

/-! Numerals of fixed width: what is read from digits is padded back to the same digits. A text without
other than such characters takes one octet for each of them. -/

namespace KeyPool

namespace Decimal

/-- The last `width` digits of a number. -/
def spelled : (width n : Nat) → List Char
  | 0, _ => []
  | width + 1, n => spelled width (n / 10) ++ [(n % 10).digitChar]

theorem length_spelled (width n : Nat) : (spelled width n).length = width := by
  induction width generalizing n with
  | zero => rfl
  | succ width ih => simp [spelled, ih]

theorem ascii_spelled {width n : Nat} : ∀ c ∈ spelled width n, c.toNat ≤ 127 := by
  have hdigit : ∀ d < 10, d.digitChar.toNat ≤ 127 := by decide
  induction width generalizing n with
  | zero => simp [spelled]
  | succ width ih =>
      intro c hc
      rcases List.mem_append.mp hc with hinit | hlast
      · exact ih c hinit
      · rw [List.mem_singleton.mp hlast]
        exact hdigit _ (Nat.mod_lt n (by decide))

theorem digitChar_eq : ∀ d < 10, d.digitChar = Char.ofNat (48 + d) := by decide

theorem digit?_eq_some {c : Char} {d : Nat} : digit? c = some d ↔ d < 10 ∧ c = d.digitChar := by
  constructor
  · intro h
    unfold digit? at h
    split at h
    · rename_i hbounds
      cases h
      have hlow : 48 ≤ c.toNat := hbounds.1
      have hhigh : c.toNat ≤ 57 := hbounds.2
      have hd : c.toNat - 48 < 10 := by omega
      refine ⟨hd, ?_⟩
      rw [digitChar_eq _ hd, Nat.add_sub_cancel' hlow, Char.ofNat_toNat]
    · cases h
  · rintro ⟨hd, rfl⟩
    revert d
    decide

/-- Digits are read as a number exactly if they spell it. -/
theorem mapM_digit?_eq_some {cs : List Char} {n : Nat} :
    (∃ digits, cs.mapM digit? = some digits ∧ ofDigits digits = n) ↔
      n < 10 ^ cs.length ∧ cs = spelled cs.length n := by
  induction cs using List.reverseRecOn generalizing n with
  | nil =>
      simp [spelled, ofDigits]
      exact eq_comm
  | append_singleton cs c ih =>
      have hlast (digits : List Nat) (d : Nat) :
          ofDigits (digits ++ [d]) = 10 * ofDigits digits + d := by
        simp [ofDigits]
      have hsplit : (∃ digits, (cs ++ [c]).mapM digit? = some digits ∧ ofDigits digits = n) ↔
          ∃ m d, (∃ digits, cs.mapM digit? = some digits ∧ ofDigits digits = m) ∧
            digit? c = some d ∧ 10 * m + d = n := by
        simp only [List.mapM_append, List.mapM_cons, List.mapM_nil, Option.bind_eq_bind,
          Option.pure_def, Option.bind_eq_some_iff, Option.some.injEq]
        constructor
        · rintro ⟨_, ⟨digits, hdigits, _, ⟨d, hd, _, rfl, rfl⟩, rfl⟩, rfl⟩
          exact ⟨_, d, ⟨digits, hdigits, rfl⟩, hd, (hlast digits d).symm⟩
        · rintro ⟨_, d, ⟨digits, hdigits, rfl⟩, hd, rfl⟩
          exact ⟨_, ⟨digits, hdigits, _, ⟨d, hd, _, rfl, rfl⟩, rfl⟩, hlast digits d⟩
      rw [hsplit]
      simp only [ih, digit?_eq_some, List.length_append, List.length_singleton, spelled, Nat.pow_succ]
      constructor
      · rintro ⟨m, d, ⟨hm, hcs⟩, ⟨hd, rfl⟩, rfl⟩
        have hdiv : (10 * m + d) / 10 = m := by omega
        have hmod : (10 * m + d) % 10 = d := by omega
        refine ⟨by omega, ?_⟩
        rw [hdiv, hmod, ← hcs]
      · rintro ⟨hn, hcs⟩
        obtain ⟨hinit, hc⟩ := List.append_inj' hcs rfl
        exact ⟨n / 10, n % 10, ⟨by omega, hinit⟩, ⟨by omega, by simpa using hc⟩, by omega⟩

theorem readFixed?_eq_some {width n : Nat} {cs rest : List Char} :
    readFixed? width cs = some (n, rest) ↔ n < 10 ^ width ∧ cs = spelled width n ++ rest := by
  unfold readFixed?
  by_cases hlength : (cs.take width).length = width
  · have hread := @mapM_digit?_eq_some (cs.take width) n
    rw [hlength] at hread
    simp only [guard, hlength, ite_true, Option.pure_def, Option.bind_eq_bind, Option.bind_some,
      Option.bind_eq_some_iff, Option.some.injEq, Prod.mk.injEq]
    constructor
    · rintro ⟨digits, hdigits, hn, rfl⟩
      obtain ⟨hfits, hspelled⟩ := hread.mp ⟨digits, hdigits, hn⟩
      exact ⟨hfits, by rw [← hspelled, List.take_append_drop]⟩
    · rintro ⟨hfits, hcs⟩
      have hspelled : cs.take width = spelled width n := by
        rw [hcs, List.take_left' (length_spelled width n)]
      have hrest : cs.drop width = rest := by
        rw [hcs, List.drop_left' (length_spelled width n)]
      obtain ⟨digits, hdigits, hn⟩ := hread.mpr ⟨hfits, hspelled⟩
      exact ⟨digits, hdigits, hn, hrest⟩
  · simp only [guard, hlength, ite_false]
    refine ⟨fun h => (nomatch h), ?_⟩
    rintro ⟨-, rfl⟩
    refine absurd ?_ hlength
    rw [List.take_left' (length_spelled width n), length_spelled]

theorem toList_padded {width n : Nat} (hwidth : 0 < width) (hn : n < 10 ^ width) :
    (padded width n).toList = spelled width n := by
  have htext (width n : Nat) : (padded width n).toList =
      List.replicate (width - (Nat.toDigits 10 n).length) '0' ++ Nat.toDigits 10 n := by
    have hlist : (toString n).toList = Nat.toDigits 10 n := Nat.toList_repr
    rw [padded, String.toList_append, String.toList_ofList, ← String.length_toList, hlist]
  rw [htext]
  induction width generalizing n with
  | zero => cases hwidth
  | succ width ih =>
      by_cases hnext : width = 0
      · subst hnext
        have hsmall : n < 10 := by simpa using hn
        simp [Nat.toDigits_of_lt_base hsmall, spelled, Nat.mod_eq_of_lt hsmall]
      · have hfits : n / 10 < 10 ^ width := by
          rw [Nat.pow_succ] at hn
          omega
        rw [spelled, ← ih (Nat.pos_of_ne_zero hnext) hfits]
        by_cases hsmall : n < 10
        · obtain ⟨width, rfl⟩ := Nat.exists_eq_succ_of_ne_zero hnext
          have hzero : n / 10 = 0 := by omega
          simp [hzero, Nat.toDigits_of_lt_base hsmall, Nat.mod_eq_of_lt hsmall, Nat.toDigits_zero,
            List.replicate_succ']
        · rw [Nat.toDigits_eq_if (by decide : 1 < 10) (n := n), if_neg hsmall]
          simp

end Decimal

namespace Bytes

theorem toList_byteArray (b : ByteArray) : b.toList = b.data.toList := by
  have hloop (i : Nat) (r : List UInt8) :
      ByteArray.toList.loop b i r = r.reverse ++ b.data.toList.drop i := by
    fun_induction ByteArray.toList.loop b i r with
    | case1 i r hi ih =>
        have hlength : i < b.data.toList.length := by simpa using hi
        rw [ih, List.drop_eq_getElem_cons hlength]
        simp [ByteArray.get!, hi]
    | case2 i r hi =>
        have hlength : b.data.toList.length ≤ i := by simpa using hi
        rw [List.drop_eq_nil_of_le hlength, List.append_nil]
  exact hloop 0 []

theorem ofText_eq {text : String} (hascii : ∀ c ∈ text.toList, c.toNat ≤ 127) :
    ofText text = text.toList.map fun c => UInt8.ofNat c.toNat := by
  have hoctets : text.toUTF8.data.toList = text.toList.flatMap String.utf8EncodeChar := by
    change text.toByteArray.data.toList = _
    rw [← String.utf8Encode_toList, List.utf8Encode, List.toList_data_toByteArray]
  rw [ofText, toList_byteArray, hoctets, List.map_eq_flatMap]
  apply List.flatMap_congr
  intro c hc
  exact if_pos (hascii c hc)

end Bytes

end KeyPool
