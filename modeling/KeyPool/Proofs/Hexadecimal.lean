import KeyPool.Bytes

/-! Octets in hexadecimal: two digits for each, from which it reads back. -/

namespace KeyPool

namespace Bytes

theorem hexValue?_hexDigit : ∀ n < 16, hexValue? (hexDigit n) = some n := by decide

theorem hexDigit_inj {m n : Nat} (hm : m < 16) (hn : n < 16) (h : hexDigit m = hexDigit n) :
    m = n := by
  have hvalue := congrArg hexValue? h
  rw [hexValue?_hexDigit m hm, hexValue?_hexDigit n hn] at hvalue
  exact Option.some.inj hvalue

theorem ofHex?_hex (bytes : Bytes) : ofHex? (hex bytes) = some bytes := by
  rw [ofHex?, hex, String.toList_ofList]
  induction bytes with
  | nil => rfl
  | cons b bytes ih =>
      have hb := b.toNat_lt
      have hhigh := hexValue?_hexDigit (b.toNat / 16) (by omega)
      have hlow := hexValue?_hexDigit (b.toNat % 16) (by omega)
      have hvalue : UInt8.ofNat (16 * (b.toNat / 16) + b.toNat % 16) = b := by
        rw [Nat.div_add_mod, UInt8.ofNat_toNat]
      simp only [List.flatMap_cons, List.cons_append, List.nil_append, ofHexChars?, hhigh, hlow, ih,
        Option.bind_eq_bind, Option.bind_some, Option.pure_def, hvalue]

theorem hex_inj {a b : Bytes} (h : hex a = hex b) : a = b := by
  have hboth := congrArg ofHex? h
  rw [ofHex?_hex, ofHex?_hex] at hboth
  exact Option.some.inj hboth

theorem hexValue?_of_mem_hex {bytes : Bytes} {c : Char} (hc : c ∈ (hex bytes).toList) :
    (hexValue? c).isSome := by
  rw [hex, String.toList_ofList, List.mem_flatMap] at hc
  obtain ⟨b, -, hc⟩ := hc
  have hb := b.toNat_lt
  simp only [List.mem_cons, List.not_mem_nil, or_false] at hc
  rcases hc with rfl | rfl
  · rw [hexValue?_hexDigit _ (by omega), Option.isSome_some]
  · rw [hexValue?_hexDigit _ (by omega), Option.isSome_some]

end Bytes

end KeyPool
