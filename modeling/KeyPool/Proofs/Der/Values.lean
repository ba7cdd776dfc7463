import KeyPool.Der.Value
import KeyPool.Proofs.Der.Reading
import Mathlib.Data.List.Induction

/-! Which primitive values can be read back, and that each of them has one form only. -/

namespace KeyPool

namespace Bytes

theorem ofNatMinimal_toNat {octets : Bytes} (h : octets.head? ≠ some 0) :
    ofNatMinimal (toNat octets) = octets := by
  induction octets using List.reverseRecOn with
  | nil => simp [toNat, ofNatMinimal]
  | append_singleton octets b ih =>
      have hoctets : ofNatMinimal (toNat octets) = octets := by
        refine ih fun hzero => h ?_
        rw [List.head?_append, hzero, Option.some_or]
      have hpositive : toNat octets * 256 + b.toNat ≠ 0 := by
        intro hzero
        have hb : b = 0 := UInt8.toNat_inj.mp (by simpa using (show b.toNat = 0 by omega))
        have hempty : octets = [] := by
          rw [← hoctets, show toNat octets = 0 by omega]
          simp [ofNatMinimal]
        simp [hb, hempty] at h
      have hlow := b.toNat_lt
      have hhigh : (toNat octets * 256 + b.toNat) / 256 = toNat octets := by omega
      have hlast : UInt8.ofNat (toNat octets * 256 + b.toNat) = b := by
        apply UInt8.toNat_inj.mp
        rw [UInt8.toNat_ofNat']
        omega
      rw [toNat_concat, ofNatMinimal, if_neg hpositive, hhigh, hoctets, hlast]

theorem head?_ofNatMinimal (n : Nat) : (ofNatMinimal n).head? ≠ some 0 := by
  fun_induction ofNatMinimal n with
  | case1 => simp
  | case2 n hn ih =>
      by_cases hsmall : n / 256 = 0
      · have hzero : UInt8.ofNat n ≠ 0 := by
          intro hzero
          have hvalue := congrArg UInt8.toNat hzero
          rw [UInt8.toNat_ofNat_of_lt' (show n < 2 ^ 8 by omega)] at hvalue
          exact hn hvalue
        simpa [hsmall, ofNatMinimal] using hzero
      · rwa [List.head?_append_of_ne_nil _ (ofNatMinimal_ne_nil hsmall)]

end Bytes

namespace Der

/-- What is read off its own encoding can be told from what follows it. -/
theorem Reader.unique {α : Type} {r : Reader α} {encode : α → Bytes} {IsReadable : α → Prop}
    (hr : ∀ {input a rest}, r input = some (a, rest) ↔ IsReadable a ∧ input = encode a ++ rest)
    {a b : α} {x y : Bytes} (ha : IsReadable a) (hb : IsReadable b)
    (h : encode a ++ x = encode b ++ y) : a = b ∧ x = y := by
  have hfirst : r (encode a ++ x) = some (a, x) := hr.mpr ⟨ha, rfl⟩
  have hsecond : r (encode a ++ x) = some (b, y) := hr.mpr ⟨hb, h⟩
  simpa using hfirst.symm.trans hsecond

/-- Content of some tag can be told from what follows it. -/
theorem wrap_unique {tag : Tag} {a b x y : Bytes} (hknown : Tag.isKnown tag = true)
    (ha : a.length ≤ maxLength) (hb : b.length ≤ maxLength) (h : wrap tag a ++ x = wrap tag b ++ y) :
    a = b ∧ x = y := by
  obtain ⟨hsame, hrest⟩ := Reader.unique Reader.element_eq_some
    (⟨hknown, ha⟩ : (Element.mk tag a).IsReadable) (⟨hknown, hb⟩ : (Element.mk tag b).IsReadable) h
  exact ⟨congrArg Element.content hsame, hrest⟩

theorem eq_of_wrap_eq {tag : Tag} {a b : Bytes} (hknown : Tag.isKnown tag = true)
    (ha : a.length ≤ maxLength) (hb : b.length ≤ maxLength) (h : wrap tag a = wrap tag b) : a = b :=
  (wrap_unique hknown ha hb (congrArg (· ++ []) h)).1

theorem flatMap_unique {τ : Type} {encode : τ → Bytes} {IsReadable : τ → Prop}
    (hne : ∀ a, encode a ≠ []) (hunique : ∀ {a b x y}, IsReadable a → IsReadable b →
      encode a ++ x = encode b ++ y → a = b ∧ x = y) {as bs : List τ}
    (has : ∀ a ∈ as, IsReadable a) (hbs : ∀ b ∈ bs, IsReadable b)
    (h : as.flatMap encode = bs.flatMap encode) : as = bs := by
  induction as generalizing bs with
  | nil =>
      cases bs with
      | nil => rfl
      | cons b bs =>
          rw [List.flatMap_cons] at h
          exact absurd h.symm (List.append_ne_nil_of_left_ne_nil (hne b) _)
  | cons a as ih =>
      cases bs with
      | nil =>
          rw [List.flatMap_cons] at h
          exact absurd h (List.append_ne_nil_of_left_ne_nil (hne a) _)
      | cons b bs =>
          rw [List.forall_mem_cons] at has hbs
          obtain ⟨rfl, hrest⟩ := hunique has.1 hbs.1 h
          rw [ih has.2 hbs.2 hrest]

/-! ## Integers -/

theorem natural?_encodeNatural (n : Nat) : natural? (encodeNatural n) = some n := by
  have hnumber := Bytes.toNat_ofNatMinimal n
  have hhead := Bytes.head?_ofNatMinimal n
  unfold natural? encodeNatural
  generalize Bytes.ofNatMinimal n = octets at hnumber hhead
  cases octets with
  | nil =>
      cases hnumber
      rfl
  | cons first rest =>
      by_cases hhigh : 0x80 ≤ first
      · have hlong : Bytes.toNat (0 :: first :: rest) = n := by
          rw [← hnumber]
          simp [Bytes.toNat]
        simp [hhigh, isMinimalInteger, hlong]
      · have hlow : first < 0x80 := UInt8.not_le.mp hhigh
        have hsign : first ≠ 0xff := by
          rintro rfl
          exact absurd hlow (by decide)
        have hfirst : first ≠ 0 := by simpa using hhead
        cases rest <;> simp [hhigh, hlow, isMinimalInteger, hsign, hfirst, hnumber]

theorem natural?_eq_some {content : Bytes} {n : Nat} :
    natural? content = some n ↔ content = encodeNatural n := by
  constructor
  · intro h
    unfold natural? at h
    split at h
    · rename_i hcontent
      cases h
      cases content with
      | nil => simp [isMinimalInteger] at hcontent
      | cons first rest =>
          by_cases hfirst : first = 0
          · subst hfirst
            have hnumber : Bytes.toNat (0 :: rest) = Bytes.toNat rest := by simp [Bytes.toNat]
            -- a zero in front is there for the first bit of what follows
            have hrest : rest.head? ≠ some 0 ∧ rest.head?.all (0x80 ≤ ·) = true := by
              cases rest with
              | nil => simp
              | cons second rest =>
                  have hhigh : 0x80 ≤ second := by simpa [isMinimalInteger] using hcontent
                  refine ⟨?_, by simpa using hhigh⟩
                  rintro ⟨rfl⟩
                  exact absurd hhigh (by decide)
            simp [encodeNatural, hnumber, Bytes.ofNatMinimal_toNat hrest.1, hrest.2]
          · have hpositive : (first :: rest).head? ≠ some 0 := by simpa using hfirst
            have hlow : ¬ 0x80 ≤ first := by
              rw [Bool.and_eq_true] at hcontent
              simpa using hcontent.2
            simp [encodeNatural, Bytes.ofNatMinimal_toNat hpositive, hlow]
    · cases h
  · rintro rfl
    exact natural?_encodeNatural n

/-! ## Object identifiers -/

namespace Oid

def IsReadable (oid : Oid) : Prop := oid.arcs?.isSome = true

theorem IsReadable.fits {oid : Oid} (h : oid.IsReadable) : oid.octets.length ≤ maxLength := by
  unfold IsReadable arcs? at h
  split at h
  · split at h
    · rename_i hlength
      unfold maxLength
      omega
    · cases h
  · cases h

theorem reader_eq_some {input rest : Bytes} {oid : Oid} :
    reader input = some (oid, rest) ↔ oid.IsReadable ∧ input = oid.encode ++ rest := by
  unfold reader
  rw [Reader.tagged_eq_some (by decide)]
  constructor
  · rintro ⟨content, hfits, hdecode, rfl⟩
    unfold ofContent? at hdecode
    split at hdecode
    · rename_i harcs
      cases hdecode
      exact ⟨harcs, rfl⟩
    · cases hdecode
  · rintro ⟨hreadable, rfl⟩
    exact ⟨oid.octets, hreadable.fits, if_pos hreadable, rfl⟩

end Oid

/-! ## Bit strings -/

namespace BitString

/-- Bits of which less than an octet are not counted, and none where there is no octet. -/
structure IsCounted (s : BitString) : Prop where
  unused : s.unused ≤ 7
  bits : s.unused = 0 ∨ s.bytes ≠ []

/-- A bit string that can be read back. -/
structure IsReadable (s : BitString) : Prop extends s.IsCounted where
  fits : s.content.length ≤ maxLength

theorem ofContent?_eq_some {content : Bytes} {s : BitString} :
    ofContent? content = some s ↔ s.IsCounted ∧ content = s.content := by
  constructor
  · intro h
    unfold ofContent? at h
    split at h
    · cases h
    · rename_i unused bytes
      split at h
      · rename_i hbits
        cases h
        have hzero : unused.toNat = 0 ↔ unused = 0 := UInt8.toNat_inj (b := 0)
        refine ⟨⟨UInt8.le_iff_toNat_le.mp hbits.1, by simpa [hzero] using hbits.2⟩, ?_⟩
        simp [content]
      · cases h
  · rintro ⟨⟨hunused, hbits⟩, rfl⟩
    have hfirst : (UInt8.ofNat s.unused).toNat = s.unused :=
      UInt8.toNat_ofNat_of_lt' (Nat.lt_of_le_of_lt hunused (by decide))
    have hle : UInt8.ofNat s.unused ≤ 7 := by
      rw [UInt8.le_iff_toNat_le, hfirst]
      exact hunused
    have hsome : UInt8.ofNat s.unused = 0 ∨ s.bytes ≠ [] := by
      refine hbits.imp_left fun hzero => ?_
      rw [hzero]
      rfl
    simp only [content, ofContent?, hle, hsome, and_self, ite_true, hfirst]

theorem reader_eq_some {input rest : Bytes} {s : BitString} :
    reader input = some (s, rest) ↔ s.IsReadable ∧ input = s.encode ++ rest := by
  unfold reader
  rw [Reader.tagged_eq_some (by decide)]
  simp only [ofContent?_eq_some]
  constructor
  · rintro ⟨_, hfits, ⟨hcounted, rfl⟩, rfl⟩
    exact ⟨⟨hcounted, hfits⟩, rfl⟩
  · rintro ⟨⟨hcounted, hfits⟩, rfl⟩
    exact ⟨_, hfits, ⟨hcounted, rfl⟩, rfl⟩

end BitString

/-! ## Booleans -/

theorem boolean?_eq_some {content : Bytes} {b : Bool} :
    boolean? content = some b ↔ content = [if b then 0xff else 0x00] := by
  unfold boolean?
  split <;> cases b <;> simp_all

end Der

end KeyPool
