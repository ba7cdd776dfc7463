import KeyPool.Certificate.Name
import KeyPool.Proofs.Der.Values
import Mathlib.Data.List.Basic

/-! A name may be written with the attributes of a set in any order, and is kept with all of them in
ascending order. So a name that was read is written in as many octets as it was read from. -/

namespace KeyPool

namespace NameAttribute

/-- An attribute that can be read back. -/
structure IsReadable (a : NameAttribute) : Prop where
  type : a.type.IsReadable
  value : a.value.IsReadable
  fits : a.content.length ≤ Der.maxLength

theorem reader_eq_some {input rest : Bytes} {a : NameAttribute} :
    reader input = some (a, rest) ↔ a.IsReadable ∧ input = a.encode ++ rest := by
  unfold reader
  rw [Der.Reader.sequence_eq_some]
  simp only [Der.Reader.bind_eq_some, Der.Reader.pure_eq_some, Der.Oid.reader_eq_some,
    Der.Reader.element_eq_some]
  constructor
  · rintro ⟨_, hfits, ⟨type, _, ⟨htype, rfl⟩, value, _, ⟨hvalue, rfl⟩, rfl, rfl⟩, rfl⟩
    rw [List.append_nil] at hfits ⊢
    exact ⟨⟨htype, hvalue, hfits⟩, rfl⟩
  · rintro ⟨⟨htype, hvalue, hfits⟩, rfl⟩
    exact ⟨a.content, hfits, ⟨a.type, _, ⟨htype, rfl⟩, a.value, _,
      ⟨hvalue, (List.append_nil _).symm⟩, rfl, rfl⟩, rfl⟩

/-! ## Sets in order -/

def Ascending (set : List NameAttribute) : Prop := set.Pairwise fun a b => a.sortKey < b.sortKey

theorem insertSorted_perm {a : NameAttribute} {set arranged : List NameAttribute}
    (h : a.insertSorted set = some arranged) : arranged.Perm (a :: set) := by
  induction set generalizing arranged with
  | nil =>
      cases h
      rfl
  | cons b rest ih =>
      rw [insertSorted] at h
      split at h
      · cases h
        rfl
      · split at h
        · obtain ⟨later, hlater, rfl⟩ := Option.map_eq_some_iff.mp h
          exact ((ih hlater).cons b).trans (.swap a b rest)
        · cases h

theorem insertSorted_ascending {a : NameAttribute} {set arranged : List NameAttribute}
    (h : a.insertSorted set = some arranged) (hset : Ascending set) : Ascending arranged := by
  induction set generalizing arranged with
  | nil =>
      cases h
      simp [Ascending]
  | cons b rest ih =>
      obtain ⟨hfirst, hrest⟩ := List.pairwise_cons.mp hset
      rw [insertSorted] at h
      split at h
      · rename_i hbefore
        cases h
        refine List.pairwise_cons.mpr ⟨?_, hset⟩
        intro c hc
        rcases List.mem_cons.mp hc with rfl | hc
        · exact hbefore
        · exact List.lt_trans hbefore (hfirst c hc)
      · split at h
        · rename_i hafter
          obtain ⟨later, hlater, rfl⟩ := Option.map_eq_some_iff.mp h
          refine List.pairwise_cons.mpr ⟨?_, ih hlater hrest⟩
          intro c hc
          rcases List.mem_cons.mp ((insertSorted_perm hlater).subset hc) with rfl | hc
          · exact hafter
          · exact hfirst c hc
        · cases h

theorem sorted?_eq_some {set arranged : List NameAttribute} (h : sorted? set = some arranged) :
    arranged.Perm set ∧ Ascending arranged := by
  induction set generalizing arranged with
  | nil =>
      cases h
      exact ⟨.refl [], .nil⟩
  | cons a rest ih =>
      obtain ⟨later, hlater, hinsert⟩ := Option.bind_eq_some_iff.mp h
      obtain ⟨hperm, hascending⟩ := ih hlater
      exact ⟨(insertSorted_perm hinsert).trans (hperm.cons a), insertSorted_ascending hinsert hascending⟩

theorem sorted?_of_ascending {set : List NameAttribute} (h : Ascending set) :
    sorted? set = some set := by
  induction set with
  | nil => rfl
  | cons a rest ih =>
      obtain ⟨hfirst, hrest⟩ := List.pairwise_cons.mp h
      rw [sorted?, ih hrest, Option.bind_some]
      cases rest with
      | nil => rfl
      | cons b rest => rw [insertSorted, if_pos (hfirst b List.mem_cons_self)]

theorem encode_ne_nil (a : NameAttribute) : a.encode ≠ [] := Der.wrap_ne_nil _ _

end NameAttribute

def NameAttribute.encodeSet (set : List NameAttribute) : Bytes :=
  Der.wrap Der.Tag.set (set.flatMap NameAttribute.encode)

/-- Attributes that can be read back, and are not too long together. -/
structure NameAttribute.AreReadable (set : List NameAttribute) : Prop where
  each : ∀ a ∈ set, a.IsReadable
  fits : (set.flatMap NameAttribute.encode).length ≤ Der.maxLength

namespace NameAttribute

/-- To put a set in order keeps its attributes, and so its length. -/
theorem AreReadable.sorted {set arranged : List NameAttribute} (h : AreReadable set)
    (hsorted : sorted? set = some arranged) :
    AreReadable arranged ∧ (encodeSet arranged).length = (encodeSet set).length := by
  obtain ⟨hperm, -⟩ := sorted?_eq_some hsorted
  have hlength : (arranged.flatMap encode).length = (set.flatMap encode).length :=
    (hperm.flatMap_right encode).length_eq
  refine ⟨⟨fun a ha => h.each a (hperm.subset ha), ?_⟩, ?_⟩
  · rw [hlength]
    exact h.fits
  · rw [encodeSet, encodeSet, Der.length_wrap, Der.length_wrap, hlength]

theorem set_eq_some {input rest : Bytes} {set : List NameAttribute} :
    Der.Reader.tagged Der.Tag.set (Der.Reader.many reader) input = some (set, rest) ↔
      AreReadable set ∧ input = encodeSet set ++ rest := by
  rw [Der.Reader.tagged_eq_some (by decide)]
  simp only [Der.Reader.many_same_eq_some encode_ne_nil reader_eq_some]
  constructor
  · rintro ⟨_, hfits, ⟨heach, rfl⟩, rfl⟩
    exact ⟨⟨heach, hfits⟩, rfl⟩
  · rintro ⟨⟨heach, hfits⟩, rfl⟩
    exact ⟨_, hfits, ⟨heach, rfl⟩, rfl⟩

end NameAttribute

namespace DistinguishedName

/-- A name of which all can be read back. -/
structure IsReadable (name : DistinguishedName) : Prop where
  sets : ∀ set ∈ name.sets, NameAttribute.AreReadable set
  fits : (name.sets.flatMap NameAttribute.encodeSet).length ≤ Der.maxLength

/-- A name is kept as another, in which the attributes of each set are in order. -/
def KeptAs (written name : DistinguishedName) : Prop :=
  List.Forall₂ (fun set arranged => NameAttribute.sorted? set = some arranged) written.sets name.sets

def IsOrdered (name : DistinguishedName) : Prop := ∀ set ∈ name.sets, NameAttribute.Ascending set

theorem setReader_eq_some {input rest : Bytes} {arranged : List NameAttribute} :
    setReader input = some (arranged, rest) ↔
      ∃ set, (NameAttribute.AreReadable set ∧ NameAttribute.sorted? set = some arranged) ∧
        input = NameAttribute.encodeSet set ++ rest := by
  unfold setReader
  rw [Der.Reader.tagged_eq_some (by decide)]
  simp only [Option.bind_eq_some_iff,
    Der.Reader.many_same_eq_some NameAttribute.encode_ne_nil NameAttribute.reader_eq_some]
  constructor
  · rintro ⟨_, hfits, ⟨set, ⟨heach, rfl⟩, harranged⟩, rfl⟩
    exact ⟨set, ⟨⟨heach, hfits⟩, harranged⟩, rfl⟩
  · rintro ⟨set, ⟨⟨heach, hfits⟩, harranged⟩, rfl⟩
    exact ⟨_, hfits, ⟨set, ⟨heach, rfl⟩, harranged⟩, rfl⟩

theorem reader_eq_some {input rest : Bytes} {name : DistinguishedName} :
    reader input = some (name, rest) ↔
      ∃ written : DistinguishedName, written.IsReadable ∧ written.KeptAs name ∧
        input = written.encode ++ rest := by
  unfold reader
  rw [Der.Reader.tagged_eq_some (by decide)]
  simp only [Option.map_eq_some_iff,
    Der.Reader.many_eq_some (fun _ => Der.wrap_ne_nil _ _) setReader_eq_some, List.forall₂_and_left]
  constructor
  · rintro ⟨_, hfits, ⟨sets, ⟨written, ⟨hreadable, hkept⟩, rfl⟩, rfl⟩, rfl⟩
    exact ⟨⟨written⟩, ⟨hreadable, hfits⟩, hkept, rfl⟩
  · rintro ⟨written, hreadable, hkept, rfl⟩
    exact ⟨_, hreadable.fits, ⟨name.sets, ⟨written.sets, ⟨hreadable.sets, hkept⟩, rfl⟩, rfl⟩, rfl⟩

variable {written name : DistinguishedName}

/-- What is kept of a name can be read back, and is as long as the name was written. -/
theorem KeptAs.readable (h : written.KeptAs name) (hreadable : written.IsReadable) :
    name.IsReadable ∧ name.encode.length = written.encode.length := by
  obtain ⟨sets⟩ := written
  obtain ⟨kept⟩ := name
  have hsets : (∀ set ∈ kept, NameAttribute.AreReadable set) ∧
      (kept.flatMap NameAttribute.encodeSet).length =
        (sets.flatMap NameAttribute.encodeSet).length := by
    obtain ⟨heach, -⟩ := hreadable
    change List.Forall₂ _ sets kept at h
    change ∀ set ∈ sets, _ at heach
    induction h with
    | nil => simp
    | cons hsorted hrest ih =>
        rw [List.forall_mem_cons] at heach
        obtain ⟨hset, hlength⟩ := heach.1.sorted hsorted
        obtain ⟨hsets, hlengths⟩ := ih heach.2
        refine ⟨List.forall_mem_cons.mpr ⟨hset, hsets⟩, ?_⟩
        simp only [List.flatMap_cons, List.length_append, hlength, hlengths]
  obtain ⟨hsets, hlength⟩ := hsets
  refine ⟨⟨hsets, ?_⟩, ?_⟩
  · change (kept.flatMap NameAttribute.encodeSet).length ≤ _
    rw [hlength]
    exact hreadable.fits
  · change (Der.wrap Der.Tag.sequence (kept.flatMap NameAttribute.encodeSet)).length =
      (Der.wrap Der.Tag.sequence (sets.flatMap NameAttribute.encodeSet)).length
    rw [Der.length_wrap, Der.length_wrap, hlength]

theorem KeptAs.ordered (h : written.KeptAs name) : name.IsOrdered := by
  obtain ⟨sets⟩ := written
  obtain ⟨kept⟩ := name
  change List.Forall₂ _ sets kept at h
  change ∀ set ∈ kept, _
  induction h with
  | nil => simp
  | cons hsorted hrest ih =>
      exact List.forall_mem_cons.mpr ⟨(NameAttribute.sorted?_eq_some hsorted).2, ih⟩

theorem IsOrdered.keptAs (h : name.IsOrdered) : name.KeptAs name :=
  List.forall₂_same.mpr fun set hset => NameAttribute.sorted?_of_ascending (h set hset)

theorem KeptAs.eq_of_ordered (h : written.KeptAs name) (hordered : written.IsOrdered) :
    written = name := by
  have hboth := (List.forall₂_and_left _ _).mpr ⟨hordered, h⟩
  have hsame : List.Forall₂ Eq written.sets name.sets := by
    refine hboth.imp ?_
    rintro set arranged ⟨hascending, hsorted⟩
    exact Option.some.inj ((NameAttribute.sorted?_of_ascending hascending).symm.trans hsorted)
  rw [List.forall₂_eq_eq_eq] at hsame
  exact congrArg DistinguishedName.mk hsame

theorem encode_unique {a b : DistinguishedName} {x y : Bytes} (ha : a.IsReadable) (hb : b.IsReadable)
    (h : a.encode ++ x = b.encode ++ y) : a = b ∧ x = y := by
  obtain ⟨hcontent, hrest⟩ := Der.wrap_unique (by decide) ha.fits hb.fits h
  have hsets : a.sets = b.sets :=
    Der.flatMap_unique (fun _ => Der.wrap_ne_nil _ _) (Der.Reader.unique NameAttribute.set_eq_some)
      ha.sets hb.sets hcontent
  exact ⟨congrArg DistinguishedName.mk hsets, hrest⟩

end DistinguishedName

end KeyPool
