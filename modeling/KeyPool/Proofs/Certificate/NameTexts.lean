import KeyPool.Certificate.NameText
import KeyPool.Proofs.Certificate.Names
import KeyPool.Proofs.Hexadecimal
import Mathlib.Data.Bool.AllAny
import Mathlib.Data.List.Forall2

/-! What the text of a name tells of it, whatever the types of attributes are called. The characters that
join attributes stand in no label, and in the text of a value only where they are escaped, so the text
falls into its attributes in one way. An attribute with a label tells it and the characters of its value,
and not the kind of text that they are kept as; any other tells the arcs of its type and the whole value.
Two names read the same if they agree in this much, and, one exception apart, only then: no attributes at
all and one empty set of them are both an empty text. -/

namespace KeyPool

/-! ## Joined texts -/

/-- A separator stands in a text only behind a backslash, and no backslash stands alone at its end. -/
inductive Shields (sep : Char) : List Char → Prop where
  | nil : Shields sep []
  | plain {c : Char} {text : List Char} (hsep : c ≠ sep) (hslash : c ≠ '\\') (h : Shields sep text) :
      Shields sep (c :: text)
  | escaped {c : Char} {text : List Char} (h : Shields sep text) : Shields sep ('\\' :: c :: text)

namespace Shields

variable {sep : Char} {a b r s : List Char}

theorem of_plain {text : List Char} (h : ∀ c ∈ text, c ≠ sep ∧ c ≠ '\\') : Shields sep text := by
  induction text with
  | nil => exact .nil
  | cons c text ih =>
      obtain ⟨hc, htext⟩ := List.forall_mem_cons.mp h
      exact .plain hc.1 hc.2 (ih htext)

theorem append (ha : Shields sep a) (hb : Shields sep b) : Shields sep (a ++ b) := by
  induction ha with
  | nil => exact hb
  | plain hsep hslash _ ih => exact .plain hsep hslash ih
  | escaped _ ih => exact .escaped ih

/-- What follows a text that shields a separator begins with the separator, if anything follows. -/
theorem append_inj (hsep : sep ≠ '\\') (ha : Shields sep a) (hb : Shields sep b)
    (hr : ∀ c ∈ r.head?, c = sep) (hs : ∀ c ∈ s.head?, c = sep) (h : a ++ r = b ++ s) :
    a = b ∧ r = s := by
  induction ha generalizing b with
  | nil =>
      cases hb with
      | nil => exact ⟨rfl, h⟩
      | plain hne =>
          cases h
          exact absurd (hr _ rfl) hne
      | escaped =>
          cases h
          exact absurd (hr _ rfl).symm hsep
  | plain hne hslash _ ih =>
      cases hb with
      | nil =>
          cases h
          exact absurd (hs _ rfl) hne
      | plain _ _ hb =>
          obtain ⟨rfl, hrest⟩ := List.cons.inj h
          obtain ⟨rfl, rfl⟩ := ih hb hrest
          exact ⟨rfl, rfl⟩
      | escaped => exact absurd (List.cons.inj h).1 hslash
  | escaped _ ih =>
      cases hb with
      | nil =>
          cases h
          exact absurd (hs _ rfl).symm hsep
      | plain _ hslash => exact absurd (List.cons.inj h).1.symm hslash
      | escaped hb =>
          simp only [List.cons_append, List.cons.injEq, true_and] at h
          obtain ⟨rfl, hrest⟩ := h
          obtain ⟨rfl, rfl⟩ := ih hb hrest
          exact ⟨rfl, rfl⟩

/-- Texts that shield a separator can be told apart after they are joined by it. -/
theorem intercalate_inj {xs ys : List (List Char)} (hsep : sep ≠ '\\')
    (hx : ∀ x ∈ xs, Shields sep x) (hy : ∀ y ∈ ys, Shields sep y) (hxs : xs ≠ []) (hys : ys ≠ [])
    (h : [sep].intercalate xs = [sep].intercalate ys) : xs = ys := by
  -- a joined text is its first part and what follows, which begins with the separator
  have hhead (x : List Char) (xs : List (List Char)) :
      ∃ rest, [sep].intercalate (x :: xs) = x ++ rest ∧ (∀ c ∈ rest.head?, c = sep) ∧
        rest = if xs = [] then [] else sep :: [sep].intercalate xs := by
    cases xs with
    | nil => exact ⟨[], by simp⟩
    | cons x' xs => exact ⟨sep :: [sep].intercalate (x' :: xs), by simp⟩
  induction xs generalizing ys with
  | nil => exact absurd rfl hxs
  | cons x xs ih =>
      cases ys with
      | nil => exact absurd rfl hys
      | cons y ys =>
          rw [List.forall_mem_cons] at hx hy
          obtain ⟨r, hr, hrsep, hrest⟩ := hhead x xs
          obtain ⟨s, hs, hssep, hsest⟩ := hhead y ys
          rw [hr, hs] at h
          obtain ⟨rfl, rfl⟩ := append_inj hsep hx.1 hy.1 hrsep hssep h
          rw [hrest] at hsest
          by_cases hnil : xs = [] <;> by_cases hnil' : ys = [] <;> simp only [hnil, hnil'] at hsest
          · rw [hnil, hnil']
          · simp at hsest
          · simp at hsest
          · simp only [if_false, List.cons.injEq, true_and] at hsest
            rw [ih hx.2 hy.2 hnil hnil' hsest]

end Shields

/-- So can texts that are joined by a text of one character. No texts and one empty text are both
joined to an empty text. -/
theorem intercalate_text_inj {sep : Char} {joint : String} {xs ys : List String} (hsep : sep ≠ '\\')
    (hjoint : joint.toList = [sep]) (hx : ∀ x ∈ xs, Shields sep x.toList)
    (hy : ∀ y ∈ ys, Shields sep y.toList) (h : joint.intercalate xs = joint.intercalate ys) :
    xs = ys ∨ (xs = [] ∧ ys = [""]) ∨ (xs = [""] ∧ ys = []) := by
  have hsome {xs ys : List String} (hx : ∀ x ∈ xs, Shields sep x.toList)
      (hy : ∀ y ∈ ys, Shields sep y.toList) (hxs : xs ≠ []) (hys : ys ≠ [])
      (h : joint.intercalate xs = joint.intercalate ys) : xs = ys := by
    refine List.map_injective_iff.mpr (fun _ _ => String.toList_inj.mp) ?_
    refine Shields.intercalate_inj hsep ?_ ?_ (by simpa using hxs) (by simpa using hys) ?_
    · simpa using hx
    · simpa using hy
    · rw [← hjoint, ← String.toList_intercalate, ← String.toList_intercalate, h]
  have hempty : ∀ x ∈ [""], Shields sep x.toList := by simpa using Shields.nil
  by_cases hxs : xs = [] <;> by_cases hys : ys = []
  · exact .inl (hxs.trans hys.symm)
  · have hone : [""] = ys := hsome hempty hy (by simp) hys (by rw [← h, hxs]; simp)
    exact .inr (.inl ⟨hxs, hone.symm⟩)
  · have hone : xs = [""] := hsome hx hempty hxs (by simp) (by rw [h, hys]; simp)
    exact .inr (.inr ⟨hone, hys⟩)
  · exact .inl (hsome hx hy hxs hys h)

theorem intercalate_text_of {P : List Char → Prop} {joint : String} {xs : List String} (hnil : P [])
    (happend : ∀ a b, P a → P b → P (a ++ b)) (hjoint : P joint.toList)
    (hx : ∀ x ∈ xs, P x.toList) : P (joint.intercalate xs).toList := by
  induction xs with
  | nil => simpa using hnil
  | cons x xs ih =>
      rw [List.forall_mem_cons] at hx
      cases xs with
      | nil => simpa using hx.1
      | cons x' xs =>
          rw [String.intercalate_cons_cons, String.toList_append, String.toList_append]
          exact happend _ _ (happend _ _ hx.1 hjoint) (ih hx.2)

/-! ## Elements and object identifiers -/

namespace Der

theorem Element.encode_inj {a b : Element} (h : a.encode = b.encode) : a = b := by
  obtain ⟨tag, content⟩ := a
  obtain ⟨tag', content'⟩ := b
  have hlength := congrArg List.length h
  simp only [Element.encode, List.cons_append, List.length_cons, List.length_append] at hlength
  have hsame : content.length = content'.length := by
    rcases Nat.le_total content.length content'.length with hle | hle <;>
    · have hmono := length_encodeLength_mono hle
      omega
  simp only [Element.encode, List.cons_append, List.cons.injEq, hsame] at h
  obtain ⟨rfl, hrest⟩ := h
  rw [List.append_cancel_left hrest]

namespace Oid

theorem toString_inj {m n : Nat} (h : toString m = toString n) : m = n := by
  have hlists : (toString m).toList = (toString n).toList := congrArg String.toList h
  have hlist (n : Nat) : (toString n).toList = Nat.toDigits 10 n := Nat.toList_repr
  rw [hlist, hlist] at hlists
  have hnumbers := congrArg (Nat.ofDigitChars 10 · 0) hlists
  simpa using hnumbers

theorem digits_toString {n : Nat} {c : Char} (hc : c ∈ (toString n).toList) : c.isDigit = true := by
  have hlist : (toString n).toList = Nat.toDigits 10 n := Nat.toList_repr
  rw [hlist] at hc
  exact Nat.isDigit_of_mem_toDigits (by decide) (by decide) hc

theorem digits_toText (oid : Oid) : ∀ c ∈ oid.toText.toList, c.isDigit = true ∨ c = '.' := by
  refine intercalate_text_of (P := fun text => ∀ c ∈ text, c.isDigit = true ∨ c = '.') ?_ ?_ ?_ ?_
  · simp
  · intro a b ha hb
    exact List.forall_mem_append.mpr ⟨ha, hb⟩
  · simp
  · intro part hpart c hc
    obtain ⟨n, -, rfl⟩ := List.mem_map.mp hpart
    exact .inl (digits_toString hc)

theorem arcs?_ne_nil {oid : Oid} : oid.arcs? ≠ some [] := by
  unfold arcs?
  split
  · split
    · simp
    · simp
  · simp

/-- The text of an object identifier tells its arcs. -/
theorem toText_eq_iff {a b : Oid} : a.toText = b.toText ↔ a.arcs? = b.arcs? := by
  refine ⟨fun h => ?_, fun h => by rw [toText, toText, h]⟩
  have hshields (arcs : List Nat) : ∀ x ∈ arcs.map toString, Shields '.' x.toList := by
    intro x hx
    obtain ⟨n, -, rfl⟩ := List.mem_map.mp hx
    refine .of_plain fun c hc => ?_
    have hdigit := digits_toString hc
    exact ⟨by rintro rfl; simp at hdigit, by rintro rfl; simp at hdigit⟩
  have hsome (arcs : List Nat) : arcs.map toString ≠ [""] := by
    intro hone
    obtain ⟨n, -, hn⟩ := List.mem_map.mp (hone ▸ List.mem_singleton_self "")
    exact Nat.repr_ne_empty hn
  have harcs : a.arcs?.getD [] = b.arcs?.getD [] := by
    rcases intercalate_text_inj (by decide) rfl (hshields _) (hshields _) h with
      hsame | ⟨-, hone⟩ | ⟨hone, -⟩
    · exact List.map_injective_iff.mpr (fun _ _ => toString_inj) hsame
    · exact absurd hone (hsome _)
    · exact absurd hone (hsome _)
  have hnone := @arcs?_ne_nil a
  have hnone' := @arcs?_ne_nil b
  cases ha : a.arcs? <;> cases hb : b.arcs? <;> simp_all

end Oid

end Der

namespace NameAttribute

/-! ## Escaped texts -/

/-- The characters that stand in the text of a value only behind a backslash. -/
def marks : List Char := "\"+,;<>\\".toList

/-- How a text is escaped: a mark stands behind a backslash, as may any character that is no hexadecimal
digit, and a character may be given by two such digits. -/
inductive Escapes : List Char → List Char → Prop where
  | nil : Escapes [] []
  | plain {c : Char} {text written : List Char} (hc : c ∉ marks) (h : Escapes text written) :
      Escapes (c :: text) (c :: written)
  | escaped {c : Char} {text written : List Char} (hc : Bytes.hexValue? c = none)
      (h : Escapes text written) : Escapes (c :: text) ('\\' :: c :: written)
  | octet {high low : Nat} {text written : List Char} (hhigh : high < 16) (hlow : low < 16)
      (h : Escapes text written) :
      Escapes (Char.ofNat (16 * high + low) :: text)
        ('\\' :: Bytes.hexDigit high :: Bytes.hexDigit low :: written)

namespace Escapes

theorem slash_mem : '\\' ∈ marks := by decide

variable {a b written : List Char}

/-- An escaped text tells the text. -/
theorem unique (ha : Escapes a written) (hb : Escapes b written) : a = b := by
  induction ha generalizing b with
  | nil =>
      cases hb
      rfl
  | plain hc _ ih =>
      cases hb with
      | plain _ hb => rw [ih hb]
      | escaped => exact absurd slash_mem hc
      | octet => exact absurd slash_mem hc
  | escaped hc _ ih =>
      cases hb with
      | plain hc => exact absurd slash_mem hc
      | escaped _ hb => rw [ih hb]
      | octet hhigh => simp [Bytes.hexValue?_hexDigit _ hhigh] at hc
  | octet hhigh hlow _ ih =>
      rename_i high low _ _ _
      generalize hdigit : Bytes.hexDigit high = digit at hb
      generalize hdigit' : Bytes.hexDigit low = digit' at hb
      cases hb with
      | plain hc => exact absurd slash_mem hc
      | escaped hnone => simp [← hdigit, Bytes.hexValue?_hexDigit _ hhigh] at hnone
      | octet hhigh' hlow' hb =>
          rw [ih hb, Bytes.hexDigit_inj hhigh hhigh' hdigit, Bytes.hexDigit_inj hlow hlow' hdigit']

/-- A mark that is no hexadecimal digit is shielded by escaping. -/
theorem shields {sep : Char} (hmark : sep ∈ marks) (hdigit : Bytes.hexValue? sep = none)
    (h : Escapes a written) : Shields sep written := by
  have hne {n : Nat} (hn : n < 16) : Bytes.hexDigit n ≠ sep ∧ Bytes.hexDigit n ≠ '\\' := by
    have hvalue := Bytes.hexValue?_hexDigit n hn
    constructor
    · rintro rfl
      rw [hdigit] at hvalue
      cases hvalue
    · intro hslash
      rw [hslash] at hvalue
      cases hvalue
  induction h with
  | nil => exact .nil
  | plain hc _ ih =>
      have hslash := ne_of_mem_of_not_mem slash_mem hc
      exact .plain (ne_of_mem_of_not_mem hmark hc).symm hslash.symm ih
  | escaped _ _ ih => exact .escaped ih
  | octet _ hlow _ ih => exact .escaped (.plain (hne hlow).1 (hne hlow).2 ih)

end Escapes

theorem escapes_escapeChar {c : Char} {last : Bool} {text written : List Char}
    (h : Escapes text written) : Escapes (c :: text) ((escapeChar c last).toList ++ written) := by
  have hmarks : ∀ c ∈ marks, Bytes.hexValue? c = none := List.all_iff_forall_prop.mp (by decide)
  unfold escapeChar
  split
  · rename_i hblank
    rw [hblank.1]
    exact .escaped (by decide) h
  · split
    · rename_i hmark
      rw [String.toList_ofList]
      exact .escaped (hmarks c (List.contains_iff_mem.mp hmark)) h
    · rename_i hplain
      split
      · rename_i hcontrol
        have hlt : c.toNat < 256 := by omega
        have hvalue : Char.ofNat (16 * (c.toNat / 16) + c.toNat % 16) = c := by
          rw [Nat.div_add_mod, Char.ofNat_toNat]
        have hoctet := Escapes.octet (by omega : c.toNat / 16 < 16) (Nat.mod_lt c.toNat (by decide)) h
        rw [hvalue] at hoctet
        simpa [Bytes.hex, Nat.mod_eq_of_lt hlt] using hoctet
      · rw [String.toList_singleton]
        exact .plain (fun hc => hplain (List.contains_iff_mem.mpr hc)) h

theorem escapes_escapeRest (text : List Char) : Escapes text (escapeRest text).toList := by
  induction text with
  | nil => exact .nil
  | cons c text ih =>
      rw [escapeRest, String.toList_append]
      exact escapes_escapeChar ih

theorem escapes_escape (text : String) : Escapes text.toList (escape text).toList := by
  unfold escape
  split
  · rename_i rest htext
    rw [htext, String.toList_append]
    exact .escaped (by decide) (escapes_escapeRest rest)
  · rename_i rest htext
    rw [htext, String.toList_append]
    exact .escaped (by decide) (escapes_escapeRest rest)
  · exact escapes_escapeRest text.toList

theorem escape_inj {a b : String} (h : escape a = escape b) : a = b := by
  have hb := escapes_escape b
  rw [← h] at hb
  exact String.toList_inj.mp ((escapes_escape a).unique hb)

/-- A number sign begins no escaped text. -/
theorem head?_escape_ne (text : String) : (escape text).toList.head? ≠ some '#' := by
  have hchar (c : Char) (last : Bool) (hc : c ≠ '#') : ∃ d rest,
      (escapeChar c last).toList = d :: rest ∧ d ≠ '#' := by
    unfold escapeChar
    split
    · exact ⟨_, _, rfl, by decide⟩
    · split
      · exact ⟨_, _, String.toList_ofList, by decide⟩
      · split
        · exact ⟨_, _, String.toList_append, by decide⟩
        · exact ⟨c, [], String.toList_singleton c, hc⟩
  unfold escape
  split
  · simp
  · simp
  · rename_i cs hnumber hblank
    generalize text.toList = cs at hnumber hblank ⊢
    cases cs with
    | nil => simp [escapeRest]
    | cons c rest =>
        have hc : c ≠ '#' := by
          rintro rfl
          exact hnumber rest rfl
        obtain ⟨d, written, hwritten, hd⟩ := hchar c rest.isEmpty hc
        simpa [escapeRest, hwritten] using hd

/-! ## Keys -/

theorem shields_of_plain {sep : Char} {text : List Char} (hsep : sep ∈ joints)
    (h : ∀ c ∈ text, c ∉ joints) : Shields sep text := by
  have hslash : '\\' ∈ joints := by decide
  exact .of_plain fun c hc => ⟨(ne_of_mem_of_not_mem hsep (h c hc)).symm,
    (ne_of_mem_of_not_mem hslash (h c hc)).symm⟩

theorem plain_oid (oid : Der.Oid) : ∀ c ∈ oid.toText.toList, c ∉ joints := by
  intro c hc hjoint
  have hnot : ∀ c ∈ joints, ¬ (c.isDigit = true ∨ c = '.') := by simp [joints]
  exact hnot c hjoint (oid.digits_toText c hc)

/-- A written attribute falls into its two parts at the first equals sign. -/
theorem split_inj {key key' value value' : String} (hkey : ∀ c ∈ key.toList, c ∉ joints)
    (hkey' : ∀ c ∈ key'.toList, c ∉ joints) (h : key ++ "=" ++ value = key' ++ "=" ++ value') :
    key = key' ∧ value = value' := by
  have hlists : key.toList ++ '=' :: value.toList = key'.toList ++ '=' :: value'.toList := by
    simpa using congrArg String.toList h
  have hshields {key : String} (hkey : ∀ c ∈ key.toList, c ∉ joints) : Shields '=' key.toList :=
    shields_of_plain (by decide) hkey
  obtain ⟨hkeys, hvalues⟩ := Shields.append_inj (by decide) (hshields hkey) (hshields hkey')
    (by simp) (by simp) hlists
  exact ⟨String.toList_inj.mp hkeys, String.toList_inj.mp (List.cons.inj hvalues).2⟩

/-! ## Attributes -/

variable [AttributeLabels]

/-- What two attributes agree in if they read the same: the label and the characters of their values if
they have both, and the arcs of their types and their values if neither of them has. -/
structure ReadsAs (a b : NameAttribute) : Prop where
  labelled : a.labelled? = b.labelled?
  numbered : a.labelled? = none → a.type.arcs? = b.type.arcs? ∧ a.value = b.value

variable {a b : NameAttribute} {label text : String}

theorem labelled?_eq_some : a.labelled? = some (label, text) ↔
    AttributeLabels.label? a.type = some label ∧ a.text? = some text := by
  simp [labelled?, Option.bind_eq_some_iff]

theorem toText_labelled (h : a.labelled? = some (label, text)) :
    a.toText = label ++ "=" ++ escape text := by
  rw [toText, h]

theorem toText_numbered (h : a.labelled? = none) :
    a.toText = a.type.toText ++ "=" ++ ("#" ++ Bytes.hex a.value.encode) := by
  have hmark : ("=#" : String) = "=" ++ "#" := rfl
  simp only [toText, h, hmark, String.append_assoc]

theorem plain_label (h : a.labelled? = some (label, text)) : ∀ c ∈ label.toList, c ∉ joints :=
  AttributeLabels.plain (labelled?_eq_some.mp h).1

theorem shields_toText {sep : Char} (hsep : sep = ',' ∨ sep = '+') (a : NameAttribute) :
    Shields sep a.toText.toList := by
  have hmark : sep ∈ marks := by rcases hsep with rfl | rfl <;> decide
  have hdigit : Bytes.hexValue? sep = none := by rcases hsep with rfl | rfl <;> rfl
  have hplain : '=' ≠ sep ∧ '#' ≠ sep := by rcases hsep with rfl | rfl <;> decide
  have hkey {key value : String} (hkey : ∀ c ∈ key.toList, c ∉ joints)
      (hvalue : Shields sep value.toList) : Shields sep (key ++ "=" ++ value).toList := by
    rw [String.toList_append, String.toList_append]
    have hjoint : sep ∈ joints := by rcases hsep with rfl | rfl <;> decide
    exact ((shields_of_plain hjoint hkey).append (.plain hplain.1 (by decide) .nil)).append hvalue
  cases hfound : a.labelled? with
  | some found =>
      obtain ⟨label, text⟩ := found
      rw [toText_labelled hfound]
      exact hkey (plain_label hfound) ((escapes_escape text).shields hmark hdigit)
  | none =>
      rw [toText_numbered hfound]
      refine hkey (plain_oid a.type) ?_
      rw [String.toList_append]
      refine Shields.append (.plain hplain.2 (by decide) .nil) (.of_plain fun c hc => ?_)
      have hvalue := Bytes.hexValue?_of_mem_hex hc
      constructor
      · rintro rfl
        simp [hdigit] at hvalue
      · rintro rfl
        cases hvalue

theorem toText_ne_empty (a : NameAttribute) : a.toText ≠ "" := by
  unfold toText
  split <;> simp

/-- What is written after the equals sign tells an attribute with a label from one without. -/
theorem toText_ne (ha : a.labelled? = some (label, text)) (hb : b.labelled? = none) :
    a.toText ≠ b.toText := by
  intro h
  rw [toText_labelled ha, toText_numbered hb] at h
  have hvalue := (split_inj (plain_label ha) (plain_oid b.type) h).2
  exact head?_escape_ne text (by rw [hvalue]; simp)

/-- Two attributes are written alike exactly if they read the same. -/
theorem toText_eq_iff : a.toText = b.toText ↔ a.ReadsAs b := by
  constructor
  · intro h
    cases ha : a.labelled? with
    | some found =>
        obtain ⟨label, text⟩ := found
        cases hb : b.labelled? with
        | some other =>
            obtain ⟨label', text'⟩ := other
            rw [toText_labelled ha, toText_labelled hb] at h
            obtain ⟨rfl, hescape⟩ := split_inj (plain_label ha) (plain_label hb) h
            cases escape_inj hescape
            exact ⟨ha.trans hb.symm, by simp [ha]⟩
        | none => exact absurd h (toText_ne ha hb)
    | none =>
        cases hb : b.labelled? with
        | some other => exact absurd h.symm (toText_ne hb ha)
        | none =>
            rw [toText_numbered ha, toText_numbered hb] at h
            obtain ⟨htype, hvalue⟩ := split_inj (plain_oid _) (plain_oid _) h
            have hhex : Bytes.hex a.value.encode = Bytes.hex b.value.encode := by
              simpa [String.append_right_inj] using hvalue
            have hsame := Der.Element.encode_inj (Bytes.hex_inj hhex)
            exact ⟨ha.trans hb.symm, fun _ => ⟨Der.Oid.toText_eq_iff.mp htype, hsame⟩⟩
  · rintro ⟨hlabelled, hnumbered⟩
    cases ha : a.labelled? with
    | some found => rw [toText, toText, ← hlabelled, ha]
    | none =>
        obtain ⟨harcs, hvalue⟩ := hnumbered ha
        rw [toText_numbered ha, toText_numbered (hlabelled.symm.trans ha),
          Der.Oid.toText_eq_iff.mpr harcs, hvalue]

end NameAttribute

namespace DistinguishedName

variable [AttributeLabels]

/-- What two names agree in if they read the same: their attributes do, set by set, or they have no
attributes and at most one empty set. -/
def ReadsAs (a b : DistinguishedName) : Prop :=
  List.Forall₂ (List.Forall₂ NameAttribute.ReadsAs) a.sets b.sets ∨
    (a.sets = [] ∧ b.sets = [[]]) ∨ (a.sets = [[]] ∧ b.sets = [])

def setText (set : List NameAttribute) : String := "+".intercalate (set.map NameAttribute.toText)

theorem setText_eq_iff {set set' : List NameAttribute} :
    setText set = setText set' ↔ List.Forall₂ NameAttribute.ReadsAs set set' := by
  have hshields (set : List NameAttribute) :
      ∀ x ∈ set.map NameAttribute.toText, Shields '+' x.toList := by
    intro x hx
    obtain ⟨a, -, rfl⟩ := List.mem_map.mp hx
    exact a.shields_toText (.inr rfl)
  have hone (set : List NameAttribute) : set.map NameAttribute.toText ≠ [""] := by
    intro hone
    obtain ⟨a, -, ha⟩ := List.mem_map.mp (hone ▸ List.mem_singleton_self "")
    exact a.toText_ne_empty ha
  have hmap : set.map NameAttribute.toText = set'.map NameAttribute.toText ↔
      List.Forall₂ NameAttribute.ReadsAs set set' := by
    rw [← List.forall₂_eq_eq_eq, List.forall₂_map_left_iff, List.forall₂_map_right_iff]
    simp only [NameAttribute.toText_eq_iff]
  rw [← hmap]
  refine ⟨fun h => ?_, fun h => by rw [setText, setText, h]⟩
  rcases intercalate_text_inj (by decide) rfl (hshields set) (hshields set') h with
    hsame | ⟨-, h⟩ | ⟨h, -⟩
  · exact hsame
  · exact absurd h (hone set')
  · exact absurd h (hone set)

theorem setText_eq_empty {set : List NameAttribute} : setText set = "" ↔ set = [] := by
  have hnil : setText [] = "" := by simp [setText]
  rw [← hnil, setText_eq_iff, List.forall₂_nil_right_iff]

theorem shields_setText (set : List NameAttribute) : Shields ',' (setText set).toList := by
  refine intercalate_text_of .nil (fun _ _ => Shields.append) (.plain (by decide) (by decide) .nil) ?_
  intro x hx
  obtain ⟨a, -, rfl⟩ := List.mem_map.mp hx
  exact a.shields_toText (.inl rfl)

theorem setTexts_eq_singleton {sets : List (List NameAttribute)} :
    sets.reverse.map setText = [""] ↔ sets = [[]] := by
  constructor
  · intro h
    obtain ⟨set, hsets, htext⟩ := List.map_eq_singleton_iff.mp h
    rw [setText_eq_empty.mp htext] at hsets
    simpa using congrArg List.reverse hsets
  · rintro rfl
    simp [setText]

/-- Two names are written alike exactly if they read the same. -/
theorem toText_eq_iff {a b : DistinguishedName} : a.toText = b.toText ↔ a.ReadsAs b := by
  have htext (name : DistinguishedName) :
      name.toText = ",".intercalate (name.sets.reverse.map setText) := rfl
  have hshields (name : DistinguishedName) :
      ∀ x ∈ name.sets.reverse.map setText, Shields ',' x.toList := by
    intro x hx
    obtain ⟨set, -, rfl⟩ := List.mem_map.mp hx
    exact shields_setText set
  have hsets : a.sets.reverse.map setText = b.sets.reverse.map setText ↔
      List.Forall₂ (List.Forall₂ NameAttribute.ReadsAs) a.sets b.sets := by
    rw [← List.forall₂_reverse_iff, ← List.forall₂_eq_eq_eq, List.forall₂_map_left_iff,
      List.forall₂_map_right_iff]
    simp only [setText_eq_iff]
  have hnone (name : DistinguishedName) : name.sets.reverse.map setText = [] ↔ name.sets = [] := by
    simp
  unfold ReadsAs
  rw [htext, htext, ← hsets, ← hnone a, ← hnone b, ← setTexts_eq_singleton, ← setTexts_eq_singleton]
  refine ⟨intercalate_text_inj (by decide) rfl (hshields a) (hshields b), ?_⟩
  rintro (hsame | ⟨ha, hb⟩ | ⟨ha, hb⟩)
  · rw [hsame]
  · rw [ha, hb]
    simp
  · rw [ha, hb]
    simp

end DistinguishedName

end KeyPool
