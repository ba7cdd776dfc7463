import KeyPool.Certificate.Validity
import KeyPool.Proofs.Decimal
import KeyPool.Proofs.Der.Reading

/-! A time has one text of each form, and reads back as it was, as long as two digits of the year are
enough where there are only two. -/

namespace KeyPool

namespace CertificateTime

/-- A time whose year can be told from the digits that it is written with. -/
def IsReadable (t : CertificateTime) : Prop := t.fullYear = false → t.date.year ≤ 2049

def spelledRest (t : CertificateTime) : List Char :=
  Decimal.spelled 2 t.date.month ++ (Decimal.spelled 2 t.date.day ++ (Decimal.spelled 2 t.hour ++
    (Decimal.spelled 2 t.minute ++ (Decimal.spelled 2 t.second ++ ['Z']))))

def spelled (t : CertificateTime) : List Char :=
  (if t.fullYear then Decimal.spelled 4 t.date.year.toNat
    else Decimal.spelled 2 (t.date.year.toNat % 100)) ++ t.spelledRest

theorem ofParts?_eq_some {fullYear : Bool} {date : Date} {hour minute second : Nat}
    {t : CertificateTime} : ofParts? fullYear date hour minute second = some t ↔
      t.fullYear = fullYear ∧ t.date = date ∧ t.hour = hour ∧ t.minute = minute ∧
        t.second = second := by
  unfold ofParts?
  constructor
  · intro h
    split at h <;> try cases h
    split at h <;> try cases h
    split at h <;> cases h
    exact ⟨rfl, rfl, rfl, rfl, rfl⟩
  · rintro ⟨rfl, rfl, rfl, rfl, rfl⟩
    rw [dif_pos t.date_valid, dif_pos t.year_bounds, dif_pos t.time_bounds]

theorem two_digits (t : CertificateTime) : t.date.month < 10 ^ 2 ∧ t.date.day < 10 ^ 2 ∧
    t.hour < 10 ^ 2 ∧ t.minute < 10 ^ 2 ∧ t.second < 10 ^ 2 := by
  obtain ⟨-, hmonth, -, hday⟩ := t.date_valid
  have hlast : Date.daysInMonth t.date.year t.date.month ≤ 31 := by
    unfold Date.daysInMonth
    repeat' split
    all_goals decide
  have htime := t.time_bounds
  refine ⟨?_, ?_, ?_, ?_, ?_⟩ <;> omega

theorem guard_eq_some {p : Prop} [Decidable p] {u : Unit} : (guard p : Option Unit) = some u ↔ p := by
  unfold guard
  split <;> simp [*]

theorem ofDigits?_eq_some {fullYear : Bool} {year : Nat} {cs : List Char} {t : CertificateTime} :
    ofDigits? fullYear year cs = some t ↔
      t.fullYear = fullYear ∧ t.date.year = year ∧ cs = t.spelledRest := by
  unfold ofDigits?
  simp only [Option.bind_eq_bind, Option.bind_eq_some_iff, Prod.exists, Decimal.readFixed?_eq_some,
    guard_eq_some, ofParts?_eq_some]
  constructor
  · rintro ⟨month, _, ⟨-, rfl⟩, day, _, ⟨-, rfl⟩, hour, _, ⟨-, rfl⟩, minute, _, ⟨-, rfl⟩, second, _,
      ⟨-, rfl⟩, _, rfl, rfl, hdate, rfl, rfl, rfl⟩
    simp [spelledRest, hdate]
  · rintro ⟨rfl, hyear, rfl⟩
    obtain ⟨hmonth, hday, hhour, hminute, hsecond⟩ := t.two_digits
    refine ⟨_, _, ⟨hmonth, rfl⟩, _, _, ⟨hday, rfl⟩, _, _, ⟨hhour, rfl⟩, _, _, ⟨hminute, rfl⟩, _, _,
      ⟨hsecond, rfl⟩, (), rfl, rfl, ?_, rfl, rfl, rfl⟩
    rw [← hyear]

/-! ## Octets of characters -/

theorem chars_map {cs : List Char} (hascii : ∀ c ∈ cs, c.toNat ≤ 127) :
    chars (cs.map fun c => UInt8.ofNat c.toNat) = cs := by
  rw [chars, List.map_map]
  conv_rhs => rw [← List.map_id cs]
  apply List.map_congr_left
  intro c hc
  have hoctet : (UInt8.ofNat c.toNat).toNat = c.toNat :=
    UInt8.toNat_ofNat_of_lt' (Nat.lt_of_le_of_lt (hascii c hc) (by decide))
  simp [hoctet, Char.ofNat_toNat]

theorem chars_injective {a b : Bytes} (h : chars a = chars b) : a = b := by
  have hchar (b : UInt8) : (Char.ofNat b.toNat).toNat = b.toNat := by
    have hvalid : b.toNat.isValidChar := .inl (Nat.lt_trans b.toNat_lt (by decide))
    rw [Char.ofNat, dif_pos hvalid]
    rfl
  refine List.map_injective_iff.mpr ?_ h
  intro x y hxy
  have hsame : (Char.ofNat x.toNat).toNat = (Char.ofNat y.toNat).toNat := congrArg Char.toNat hxy
  rw [hchar, hchar] at hsame
  exact UInt8.toNat_inj.mp hsame

theorem ascii_spelled (t : CertificateTime) : ∀ c ∈ t.spelled, c.toNat ≤ 127 := by
  intro c hc
  have hrest : c ∈ t.spelledRest → c.toNat ≤ 127 := by
    intro hc
    simp only [spelledRest, List.mem_append, List.mem_singleton] at hc
    rcases hc with hc | hc | hc | hc | hc | rfl
    all_goals first | exact Decimal.ascii_spelled c hc | decide
  rcases List.mem_append.mp hc with hyear | hc
  · split at hyear <;> exact Decimal.ascii_spelled c hyear
  · exact hrest hc

theorem length_spelled_le (t : CertificateTime) : t.spelled.length ≤ 15 := by
  unfold spelled spelledRest
  split <;> simp [Decimal.length_spelled]

def octets (t : CertificateTime) : Bytes := t.spelled.map fun c => UInt8.ofNat c.toNat

theorem eq_octets_iff {content : Bytes} {t : CertificateTime} :
    content = t.octets ↔ chars content = t.spelled := by
  have hchars : chars t.octets = t.spelled := chars_map t.ascii_spelled
  constructor
  · rintro rfl
    exact hchars
  · intro h
    exact chars_injective (h.trans hchars.symm)

theorem encode_eq (t : CertificateTime) : t.encode =
    Der.wrap (if t.fullYear then Der.Tag.generalizedTime else Der.Tag.utcTime) t.octets := by
  have hoctets {text : String} (htext : text.toList = t.spelled) : Bytes.ofText text = t.octets := by
    rw [Bytes.ofText_eq (by rw [htext]; exact t.ascii_spelled), htext, octets]
  have hrest : (Decimal.padded 2 t.date.month ++ Decimal.padded 2 t.date.day
      ++ Decimal.padded 2 t.hour ++ Decimal.padded 2 t.minute ++ Decimal.padded 2 t.second
      ++ "Z").toList = t.spelledRest := by
    obtain ⟨hmonth, hday, hhour, hminute, hsecond⟩ := t.two_digits
    simp only [String.toList_append, Decimal.toList_padded Nat.two_pos hmonth,
      Decimal.toList_padded Nat.two_pos hday, Decimal.toList_padded Nat.two_pos hhour,
      Decimal.toList_padded Nat.two_pos hminute, Decimal.toList_padded Nat.two_pos hsecond,
      spelledRest, List.append_assoc]
    rfl
  have hfull : t.date.year.toNat < 10 ^ 4 := by
    have := t.year_bounds
    omega
  have hshort : t.date.year.toNat % 100 < 10 ^ 2 := Nat.mod_lt _ (by decide)
  unfold encode
  cases hform : t.fullYear with
  | true =>
      simp only [ite_true]
      rw [hoctets]
      rw [String.toList_append, hrest, Decimal.toList_padded (by decide) hfull, spelled, hform, if_pos rfl]
  | false =>
      simp only [Bool.false_eq_true, ite_false]
      rw [hoctets]
      rw [String.toList_append, hrest, Decimal.toList_padded Nat.two_pos hshort, spelled, hform,
        if_neg Bool.false_ne_true]

theorem ofShortContent?_eq_some {content : Bytes} {t : CertificateTime} :
    ofShortContent? content = some t ↔
      t.fullYear = false ∧ t.date.year ≤ 2049 ∧ content = t.octets := by
  unfold ofShortContent?
  simp only [Option.bind_eq_bind, Option.bind_eq_some_iff, Prod.exists, Decimal.readFixed?_eq_some,
    ofDigits?_eq_some, eq_octets_iff]
  constructor
  · rintro ⟨year, _, ⟨hfits, hchars⟩, hform, hyear, rfl⟩
    have hcentury : t.date.year.toNat % 100 = year ∧ t.date.year ≤ 2049 := by
      rw [hyear]
      split <;> omega
    refine ⟨hform, hcentury.2, ?_⟩
    rw [hchars, spelled, hform, if_neg Bool.false_ne_true, hcentury.1]
  · rintro ⟨hform, hyear, hchars⟩
    refine ⟨t.date.year.toNat % 100, t.spelledRest, ⟨Nat.mod_lt _ (by decide), ?_⟩, hform, ?_, rfl⟩
    · rw [hchars, spelled, hform, if_neg Bool.false_ne_true]
    · have := t.year_bounds
      split <;> omega

theorem ofFullContent?_eq_some {content : Bytes} {t : CertificateTime} :
    ofFullContent? content = some t ↔ t.fullYear = true ∧ content = t.octets := by
  unfold ofFullContent?
  simp only [Option.bind_eq_bind, Option.bind_eq_some_iff, Prod.exists, Decimal.readFixed?_eq_some,
    ofDigits?_eq_some, eq_octets_iff]
  constructor
  · rintro ⟨year, _, ⟨hfits, hchars⟩, hform, hyear, rfl⟩
    refine ⟨hform, ?_⟩
    rw [hchars, spelled, hform, if_pos rfl, hyear, Int.toNat_natCast]
  · rintro ⟨hform, hchars⟩
    have hbounds := t.year_bounds
    refine ⟨t.date.year.toNat, t.spelledRest, ⟨by omega, ?_⟩, hform, by omega, rfl⟩
    rw [hchars, spelled, hform, if_pos rfl]

theorem reader_eq_some {input rest : Bytes} {t : CertificateTime} :
    reader input = some (t, rest) ↔ t.IsReadable ∧ input = t.encode ++ rest := by
  unfold reader
  rw [Der.Reader.bind_eq_some, encode_eq]
  simp only [Der.Reader.element_eq_some, Der.Reader.liftM_eq_some]
  constructor
  · rintro ⟨⟨tag, content⟩, _, ⟨-, rfl⟩, hcontent, rfl⟩
    dsimp only at hcontent
    split at hcontent
    · rename_i htag
      obtain ⟨hform, hyear, rfl⟩ := ofShortContent?_eq_some.mp hcontent
      refine ⟨fun _ => hyear, ?_⟩
      rw [htag, hform]
      rfl
    · split at hcontent
      · rename_i htag
        obtain ⟨hform, rfl⟩ := ofFullContent?_eq_some.mp hcontent
        refine ⟨fun hshort => ?_, ?_⟩
        · rw [hform] at hshort
          cases hshort
        · rw [htag, hform]
          rfl
      · cases hcontent
  · rintro ⟨hreadable, rfl⟩
    have hfits : t.octets.length ≤ Der.maxLength := by
      have := t.length_spelled_le
      rw [octets, List.length_map, Der.maxLength]
      omega
    have hknown : ∀ full : Bool, Der.Tag.isKnown
        (if full then Der.Tag.generalizedTime else Der.Tag.utcTime) = true := by decide
    refine ⟨⟨_, t.octets⟩, _, ⟨⟨hknown t.fullYear, hfits⟩, rfl⟩, ?_, rfl⟩
    cases hform : t.fullYear with
    | true => exact ofFullContent?_eq_some.mpr ⟨hform, rfl⟩
    | false => exact ofShortContent?_eq_some.mpr ⟨hform, hreadable hform, rfl⟩

end CertificateTime

end KeyPool
