import KeyPool.Certificate.Basic
import KeyPool.Proofs.Certificate.Times
import KeyPool.Proofs.Der.Parts
import KeyPool.Proofs.Der.Values

/-! The fields of a certificate other than its names. Algorithms, keys and the two times are written in
one way only; an extension may state that it is not critical, which goes without saying. -/

namespace KeyPool

open Der (maxLength wrap)

variable {input rest : Bytes}

namespace AlgorithmIdentifier

def content (a : AlgorithmIdentifier) : Bytes :=
  a.oid.encode ++ (a.parameters.map Der.Element.encode).getD []

/-- An algorithm that can be read back. -/
structure IsReadable (a : AlgorithmIdentifier) : Prop where
  oid : a.oid.IsReadable
  parameters : ∀ e ∈ a.parameters, e.IsReadable
  fits : a.content.length ≤ maxLength

theorem optional_element_eq_some {found : Option Der.Element} :
    Der.Reader.optional (fun _ => true) Der.Reader.element input = some (found, []) ↔
      (∀ e ∈ found, e.IsReadable) ∧ input = (found.map Der.Element.encode).getD [] := by
  rw [Der.Reader.optional_eq_some]
  simp only [Der.Reader.element_eq_some]
  constructor
  · rintro (⟨rfl, rfl, -⟩ | ⟨_, -, -, e, rfl, hreadable, rfl⟩)
    · simp
    · simpa using hreadable
  · rintro ⟨hreadable, rfl⟩
    cases found with
    | none => exact .inl ⟨rfl, rfl, by simp⟩
    | some e => exact .inr ⟨e.tag, rfl, trivial, e, rfl, hreadable e rfl, (List.append_nil _).symm⟩

theorem reader_eq_some {a : AlgorithmIdentifier} :
    reader input = some (a, rest) ↔ a.IsReadable ∧ input = a.encode ++ rest := by
  unfold reader
  rw [Der.Reader.sequence_eq_some]
  simp only [Der.Reader.bind_eq_some, Der.Reader.pure_eq_some, Der.Oid.reader_eq_some]
  constructor
  · rintro ⟨_, hfits, ⟨oid, _, ⟨hoid, rfl⟩, parameters, _, hparameters, rfl, rfl⟩, rfl⟩
    obtain ⟨hreadable, rfl⟩ := optional_element_eq_some.mp hparameters
    exact ⟨⟨hoid, hreadable, hfits⟩, rfl⟩
  · rintro ⟨⟨hoid, hparameters, hfits⟩, rfl⟩
    exact ⟨a.content, hfits, ⟨a.oid, _, ⟨hoid, rfl⟩, a.parameters, [],
      optional_element_eq_some.mpr ⟨hparameters, rfl⟩, rfl, rfl⟩, rfl⟩

end AlgorithmIdentifier

namespace SubjectKey

def content (k : SubjectKey) : Bytes := k.algorithm.encode ++ k.bits.encode

/-- A key that can be read back. -/
structure IsReadable (k : SubjectKey) : Prop where
  algorithm : k.algorithm.IsReadable
  bits : k.bits.IsReadable
  fits : k.content.length ≤ maxLength

theorem reader_eq_some {k : SubjectKey} :
    reader input = some (k, rest) ↔ k.IsReadable ∧ input = k.encode ++ rest := by
  unfold reader
  rw [Der.Reader.sequence_eq_some]
  simp only [Der.Reader.bind_eq_some, Der.Reader.pure_eq_some, AlgorithmIdentifier.reader_eq_some,
    Der.BitString.reader_eq_some]
  constructor
  · rintro ⟨_, hfits, ⟨algorithm, _, ⟨halgorithm, rfl⟩, bits, _, ⟨hbits, rfl⟩, rfl, rfl⟩, rfl⟩
    rw [List.append_nil] at hfits ⊢
    exact ⟨⟨halgorithm, hbits, hfits⟩, rfl⟩
  · rintro ⟨⟨halgorithm, hbits, hfits⟩, rfl⟩
    exact ⟨k.content, hfits, ⟨k.algorithm, _, ⟨halgorithm, rfl⟩, k.bits, _,
      ⟨hbits, (List.append_nil _).symm⟩, rfl, rfl⟩, rfl⟩

end SubjectKey

namespace CertificateTime

def encodePeriod (notBefore notAfter : CertificateTime) : Bytes :=
  wrap Der.Tag.sequence (notBefore.encode ++ notAfter.encode)

theorem length_encode_le (t : CertificateTime) : t.encode.length ≤ 17 := by
  have hoctets : t.octets.length ≤ 15 := by
    rw [octets, List.length_map]
    exact t.length_spelled_le
  have hlength : (Der.encodeLength t.octets.length).length = 1 := by
    rw [Der.encodeLength, if_pos (by omega)]
    rfl
  rw [encode_eq, Der.length_wrap, hlength]
  omega

theorem period_eq_some {notBefore notAfter : CertificateTime} :
    Der.Reader.sequence (do return (← reader, ← reader)) input = some ((notBefore, notAfter), rest) ↔
      (notBefore.IsReadable ∧ notAfter.IsReadable) ∧
        input = encodePeriod notBefore notAfter ++ rest := by
  rw [Der.Reader.sequence_eq_some]
  simp only [Der.Reader.bind_eq_some, Der.Reader.pure_eq_some, reader_eq_some, Prod.mk.injEq]
  constructor
  · rintro ⟨_, -, ⟨_, _, ⟨hfirst, rfl⟩, _, _, ⟨hlast, rfl⟩, ⟨rfl, rfl⟩, rfl⟩, rfl⟩
    rw [List.append_nil]
    exact ⟨⟨hfirst, hlast⟩, rfl⟩
  · rintro ⟨⟨hfirst, hlast⟩, rfl⟩
    have hfits : (notBefore.encode ++ notAfter.encode).length ≤ maxLength := by
      have hshort := notBefore.length_encode_le
      have hshort' := notAfter.length_encode_le
      rw [List.length_append, maxLength]
      omega
    exact ⟨_, hfits, ⟨notBefore, _, ⟨hfirst, rfl⟩, notAfter, _,
      ⟨hlast, (List.append_nil _).symm⟩, ⟨rfl, rfl⟩, rfl⟩, rfl⟩

theorem encodePeriod_unique {a b c d : CertificateTime} {x y : Bytes}
    (hfirst : a.IsReadable ∧ b.IsReadable) (hsecond : c.IsReadable ∧ d.IsReadable)
    (h : encodePeriod a b ++ x = encodePeriod c d ++ y) : (a = c ∧ b = d) ∧ x = y := by
  have hread := (period_eq_some.mpr ⟨hfirst, rfl⟩).symm.trans (period_eq_some.mpr ⟨hsecond, h⟩)
  simpa using hread

end CertificateTime

namespace CertificateVersion

def content (v : CertificateVersion) : Bytes := wrap Der.Tag.integer (Der.encodeNatural v.toNat)

theorem ofContent?_eq_some {octets : Bytes} {v : CertificateVersion} :
    ofContent? octets = some v ↔ octets = Der.encodeNatural v.toNat := by
  rw [← Der.natural?_eq_some]
  unfold ofContent?
  constructor
  · intro h
    split at h <;> cases h
    all_goals assumption
  · intro h
    rw [h]
    cases v <;> rfl

theorem length_encodeNatural_le (v : CertificateVersion) :
    (Der.encodeNatural v.toNat).length ≤ 1 := by
  cases v <;> simp [toNat, Der.encodeNatural, Bytes.ofNatMinimal]

theorem content_injective {u v : CertificateVersion} (h : u.content = v.content) : u = v := by
  have hoctets : Der.encodeNatural u.toNat = Der.encodeNatural v.toNat :=
    Der.eq_of_wrap_eq (by decide) (Nat.le_trans u.length_encodeNatural_le (by decide))
      (Nat.le_trans v.length_encodeNatural_le (by decide)) h
  exact Option.some.inj ((ofContent?_eq_some.mpr rfl).symm.trans (ofContent?_eq_some.mpr hoctets))

theorem explicit_eq_some {found : Option CertificateVersion} :
    Der.Reader.explicit 0 (Der.Reader.tagged Der.Tag.integer ofContent?) input = some (found, rest) ↔
      ∃ p : Der.WrittenPart CertificateVersion, p.Fits 0 content (fun _ => True) ∧
        p.EndsBefore 0 rest ∧ found = p.found ∧ input = p.encode 0 true content ++ rest := by
  have hdecode {octets : Bytes} {v : CertificateVersion} :
      Der.Reader.exactly (Der.Reader.tagged Der.Tag.integer ofContent?) octets = some v ↔
        ∃ t, True ∧ id t = v ∧ octets = content t := by
    rw [Der.Reader.exactly_eq_some, Der.Reader.tagged_eq_some (by decide)]
    simp only [ofContent?_eq_some, List.append_nil]
    constructor
    · rintro ⟨_, -, rfl, rfl⟩
      exact ⟨v, trivial, rfl, rfl⟩
    · rintro ⟨t, -, rfl, rfl⟩
      exact ⟨_, Nat.le_trans t.length_encodeNatural_le (by decide), rfl, rfl⟩
  simpa [Der.Reader.explicit] using Der.WrittenPart.contextual_eq_some (by decide : 0 < 31) hdecode

end CertificateVersion

theorem CertificateBody.uniqueId_eq_some {number : Nat} (hnumber : number < 31)
    {found : Option Der.BitString} :
    Der.Reader.implicit number Der.BitString.ofContent? input = some (found, rest) ↔
      ∃ p : Der.WrittenPart Der.BitString,
        p.Fits number Der.BitString.content Der.BitString.IsCounted ∧ p.EndsBefore number rest ∧
          found = p.found ∧ input = p.encode number false Der.BitString.content ++ rest := by
  have hdecode {octets : Bytes} {s : Der.BitString} : Der.BitString.ofContent? octets = some s ↔
      ∃ t : Der.BitString, t.IsCounted ∧ id t = s ∧ octets = t.content := by
    simp [Der.BitString.ofContent?_eq_some]
  simpa [Der.Reader.implicit] using Der.WrittenPart.contextual_eq_some hnumber hdecode

/-! ## Extensions -/

/-- All that is written of an extension, and whether it is stated there that it is critical. -/
structure WrittenExtension where
  id : Der.Oid
  critical : Option Bool
  value : Bytes

namespace WrittenExtension

def encodeBoolean (b : Bool) : Bytes := wrap Der.Tag.boolean [if b then 0xff else 0x00]

def content (e : WrittenExtension) : Bytes :=
  e.id.encode ++ ((e.critical.map encodeBoolean).getD [] ++ wrap Der.Tag.octetString e.value)

def encode (e : WrittenExtension) : Bytes := wrap Der.Tag.sequence e.content

def kept (e : WrittenExtension) : Extension := ⟨e.id, e.critical.getD false, e.value⟩

structure IsReadable (e : WrittenExtension) : Prop where
  id : e.id.IsReadable
  value : e.value.length ≤ maxLength
  fits : e.content.length ≤ maxLength

theorem encode_ne_nil (e : WrittenExtension) : e.encode ≠ [] := Der.wrap_ne_nil _ _

theorem critical_eq_some {value : Bytes} {critical : Option Bool} :
    Der.Reader.optional (· = Der.Tag.boolean) (Der.Reader.tagged Der.Tag.boolean Der.boolean?) input =
        some (critical, wrap Der.Tag.octetString value) ↔
      input = (critical.map encodeBoolean).getD [] ++ wrap Der.Tag.octetString value := by
  rw [Der.Reader.optional_eq_some]
  simp only [Der.Reader.tagged_eq_some (by decide : Der.Tag.isKnown Der.Tag.boolean = true),
    Der.boolean?_eq_some]
  constructor
  · rintro (⟨rfl, rfl, -⟩ | ⟨_, -, -, b, rfl, _, -, rfl, rfl⟩) <;> rfl
  · rintro rfl
    cases critical with
    | none => exact .inl ⟨rfl, rfl, by rintro _ ⟨rfl⟩; rfl⟩
    | some b => exact .inr ⟨Der.Tag.boolean, rfl, rfl, b, rfl, _, by simp [maxLength], rfl, rfl⟩

theorem reader_eq_some {e : Extension} : Extension.reader input = some (e, rest) ↔
    ∃ w : WrittenExtension, (w.IsReadable ∧ w.kept = e) ∧ input = w.encode ++ rest := by
  unfold Extension.reader
  rw [Der.Reader.sequence_eq_some]
  simp only [Der.Reader.bind_eq_some, Der.Reader.pure_eq_some, Der.Oid.reader_eq_some,
    Der.Reader.tagged_eq_some (by decide : Der.Tag.isKnown Der.Tag.octetString = true),
    Option.some.injEq]
  constructor
  · rintro ⟨_, hfits, ⟨id, _, ⟨hid, rfl⟩, critical, _, hcritical, _, _,
      ⟨value, hvalue, rfl, rfl⟩, rfl, rfl⟩, rfl⟩
    rw [List.append_nil] at hcritical
    rw [critical_eq_some.mp hcritical] at hfits ⊢
    exact ⟨⟨id, critical, value⟩, ⟨⟨hid, hvalue, hfits⟩, rfl⟩, rfl⟩
  · rintro ⟨w, ⟨⟨hid, hvalue, hfits⟩, rfl⟩, rfl⟩
    refine ⟨w.content, hfits, ⟨w.id, _, ⟨hid, rfl⟩, w.critical, _, critical_eq_some.mpr rfl, w.value, _,
      ⟨w.value, hvalue, rfl, (List.append_nil _).symm⟩, rfl, rfl⟩, rfl⟩

theorem encode_unique {a b : WrittenExtension} {x y : Bytes} (ha : a.IsReadable) (hb : b.IsReadable)
    (h : a.encode ++ x = b.encode ++ y) : a = b ∧ x = y := by
  obtain ⟨hcontent, hrest⟩ := Der.wrap_unique (by decide) ha.fits hb.fits h
  obtain ⟨hid, hlater⟩ := Der.Reader.unique Der.Oid.reader_eq_some ha.id hb.id hcontent
  -- what is stated, or that nothing is, is read off the front of the rest
  have hread := (critical_eq_some.mpr rfl).symm.trans (critical_eq_some.mpr hlater)
  simp only [Option.some.injEq, Prod.mk.injEq] at hread
  obtain ⟨hcritical, hvalues⟩ := hread
  have hvalue : a.value = b.value := Der.eq_of_wrap_eq (by decide) ha.value hb.value hvalues
  obtain ⟨id, critical, value⟩ := a
  cases hid
  cases hcritical
  cases hvalue
  exact ⟨rfl, hrest⟩

def list (es : List WrittenExtension) : Bytes := wrap Der.Tag.sequence (es.flatMap encode)

structure AreReadable (es : List WrittenExtension) : Prop where
  each : ∀ e ∈ es, e.IsReadable
  fits : (es.flatMap encode).length ≤ maxLength

theorem list_unique {es fs : List WrittenExtension} (hes : AreReadable es) (hfs : AreReadable fs)
    (h : list es = list fs) : es = fs := by
  have hcontent := Der.eq_of_wrap_eq (by decide) hes.fits hfs.fits h
  exact Der.flatMap_unique encode_ne_nil encode_unique hes.each hfs.each hcontent

theorem explicit_eq_some {found : Option (List Extension)} :
    Der.Reader.explicit 3 CertificateBody.extensionsReader input = some (found, rest) ↔
      ∃ p : Der.WrittenPart (List WrittenExtension), p.Fits 3 list AreReadable ∧ p.EndsBefore 3 rest ∧
        found = p.found.map (List.map kept) ∧ input = p.encode 3 true list ++ rest := by
  have hdecode {octets : Bytes} {values : List Extension} :
      Der.Reader.exactly CertificateBody.extensionsReader octets = some values ↔
        ∃ es, AreReadable es ∧ es.map kept = values ∧ octets = list es := by
    unfold CertificateBody.extensionsReader
    rw [Der.Reader.exactly_eq_some, Der.Reader.tagged_eq_some (by decide)]
    simp only [Der.Reader.many_eq_some encode_ne_nil reader_eq_some, List.forall₂_and_left,
      ← List.forall₂_map_left_iff, List.forall₂_eq_eq_eq, List.append_nil]
    constructor
    · rintro ⟨_, hfits, ⟨es, ⟨heach, hkept⟩, rfl⟩, rfl⟩
      exact ⟨es, ⟨heach, hfits⟩, hkept, rfl⟩
    · rintro ⟨es, ⟨heach, hfits⟩, hkept, rfl⟩
      exact ⟨_, hfits, ⟨es, ⟨heach, hkept⟩, rfl⟩, rfl⟩
  exact Der.WrittenPart.contextual_eq_some (by decide : 3 < 31) hdecode

end WrittenExtension

end KeyPool
