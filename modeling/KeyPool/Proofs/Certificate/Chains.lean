import KeyPool.Certificate.Chain
import KeyPool.Certificate.Labels
import KeyPool.Proofs.Certificate.Plain
import KeyPool.Proofs.Results

/-! What is kept of the octets of a chain. A certificate is encoded, and its signature checked, over its
plain form, which is not always what was received; but the plain form reads back as the same certificate,
so an encoded chain is judged like the chain that was received. -/

namespace KeyPool

open Der (maxLength wrap)

def WrittenCertificate.ReadsAs (w : WrittenCertificate) (c : Certificate) : Prop :=
  w.IsReadable ∧ w.KeptAs c

/-! ## Reading -/

namespace Certificate

open WrittenCertificate (ReadsAs)

theorem readAll_eq_ok {position : Nat} (hposition : position ≤ maxChainLength) {input : Bytes}
    {cs : List Certificate} : readAll position input = .ok cs ↔
      position + cs.length ≤ maxChainLength ∧
        ∃ ws, List.Forall₂ ReadsAs ws cs ∧ input = ws.flatMap WrittenCertificate.encode := by
  constructor
  · intro h
    fun_induction readAll position input generalizing cs with
    | case1 =>
        cases h
        exact ⟨hposition, [], .nil, rfl⟩
    | case2 => cases h
    | case3 => cases h
    | case4 position input hinput hlimit c rest hread hless ih =>
        cases hrest : readAll (position + 1) rest with
        | error e =>
            rw [hrest] at h
            cases h
        | ok others =>
            rw [hrest] at h
            cases h
            obtain ⟨hlength, ws, hws, rfl⟩ := ih (by omega) hrest
            obtain ⟨w, hw, rfl⟩ := WrittenCertificate.reader_eq_some.mp hread
            refine ⟨?_, w :: ws, .cons hw hws, rfl⟩
            rw [List.length_cons]
            omega
    | case5 => cases h
  · rintro ⟨hlength, ws, hws, rfl⟩
    induction hws generalizing position with
    | nil => simp [readAll]
    | cons hw hws ih =>
        rename_i w c ws cs
        rw [List.length_cons] at hlength
        have hread : reader (w.encode ++ ws.flatMap WrittenCertificate.encode) =
            some (c, ws.flatMap WrittenCertificate.encode) :=
          WrittenCertificate.reader_eq_some.mpr ⟨w, hw, rfl⟩
        have hless :=
          Bytes.length_lt_append w.encode_ne_nil (ws.flatMap WrittenCertificate.encode)
        have hinput : w.encode ++ ws.flatMap WrittenCertificate.encode ≠ [] :=
          List.append_ne_nil_of_left_ne_nil w.encode_ne_nil _
        rw [List.flatMap_cons, readAll, if_neg hinput, if_neg (by omega), hread]
        simp only [hless, ite_true, ih (by omega : position + 1 ≤ _) (by omega)]
        rfl

theorem readChain_oversized {encoded : Bytes} (h : maxLength < encoded.length) :
    readChain encoded = .error .oversized := by
  have hne : encoded ≠ [] := by
    rintro rfl
    cases h
  rw [readChain, if_neg hne, if_pos h]

theorem readChain_of_fits {encoded : Bytes} (hne : encoded ≠ []) (h : encoded.length ≤ maxLength) :
    readChain encoded = readAll 0 encoded := by
  rw [readChain, if_neg hne, if_neg (Nat.not_lt.mpr h)]

theorem length_le_of_readChain {encoded : Bytes} {cs : List Certificate}
    (h : readChain encoded = .ok cs) : encoded.length ≤ maxLength := by
  refine Nat.le_of_not_lt fun hover => ?_
  rw [readChain_oversized hover] at h
  cases h

/-- Octets are split into certificates exactly if they are written so, one to eight of them, and are not
too many to be read. -/
theorem readChain_eq_ok {encoded : Bytes} {cs : List Certificate} : readChain encoded = .ok cs ↔
    (cs ≠ [] ∧ cs.length ≤ maxChainLength) ∧ encoded.length ≤ maxLength ∧
      ∃ ws, List.Forall₂ ReadsAs ws cs ∧ encoded = ws.flatMap WrittenCertificate.encode := by
  have hempty {ws : List WrittenCertificate} (hws : List.Forall₂ ReadsAs ws cs) :
      ws.flatMap WrittenCertificate.encode = [] ↔ cs = [] := by
    cases hws with
    | nil => simp
    | cons => simp [WrittenCertificate.encode_ne_nil]
  constructor
  · intro h
    have hfits := length_le_of_readChain h
    have hne : encoded ≠ [] := by
      rintro rfl
      cases h
    rw [readChain_of_fits hne hfits] at h
    obtain ⟨hlength, ws, hws, rfl⟩ := (readAll_eq_ok (Nat.zero_le _)).mp h
    rw [Ne, hempty hws] at hne
    exact ⟨⟨hne, by omega⟩, hfits, ws, hws, rfl⟩
  · rintro ⟨⟨hne, hlength⟩, hfits, ws, hws, rfl⟩
    rw [readChain_of_fits (by rwa [Ne, hempty hws]) hfits]
    exact (readAll_eq_ok (Nat.zero_le _)).mpr ⟨by omega, ws, hws, rfl⟩

theorem issuedAt_of_readChain {encoded : Bytes} {leaf : Certificate} {issuers : List Certificate}
    (h : readChain encoded = .ok (leaf :: issuers)) : issuedAt encoded = .ok leaf.notBefore := by
  obtain ⟨-, hfits, _, hws, rfl⟩ := readChain_eq_ok.mp h
  cases hws with
  | cons hw =>
      rw [issuedAt, if_neg (Nat.not_lt.mpr hfits), List.flatMap_cons,
        WrittenCertificate.reader_eq_some.mpr ⟨_, hw, rfl⟩]

end Certificate

namespace WrittenCertificate

variable {ws : List WrittenCertificate} {cs : List Certificate}

theorem flatMap_ofCertificate (cs : List Certificate) :
    (cs.map ofCertificate).flatMap encode = cs.flatMap Certificate.encode := by
  simp only [List.flatMap_map, encode_ofCertificate]

theorem readsAs_plain (h : List.Forall₂ ReadsAs ws cs) :
    List.Forall₂ ReadsAs (cs.map ofCertificate) cs := by
  induction h with
  | nil => exact .nil
  | cons hw _ ih => exact .cons ⟨(hw.1.plain hw.2).1, hw.2.plain⟩ ih

theorem length_plain_le (h : List.Forall₂ ReadsAs ws cs) :
    (cs.flatMap Certificate.encode).length ≤ (ws.flatMap encode).length := by
  induction h with
  | nil => simp
  | cons hw _ ih =>
      have hless := (hw.1.plain hw.2).2
      rw [encode_ofCertificate] at hless
      simp only [List.flatMap_cons, List.length_append]
      omega

theorem isPlain_plain (h : List.Forall₂ ReadsAs ws cs) :
    ∀ w ∈ cs.map ofCertificate, w.body.IsPlain := by
  induction h with
  | nil => simp
  | cons hw _ ih =>
      rw [List.map_cons, List.forall_mem_cons]
      exact ⟨WrittenBody.isPlain_ofBody hw.2.body, ih⟩

theorem eq_plain (h : List.Forall₂ ReadsAs ws cs) (hplain : ∀ w ∈ ws, w.body.IsPlain) :
    ws = cs.map ofCertificate := by
  induction h with
  | nil => rfl
  | cons hw _ ih =>
      rw [List.forall_mem_cons] at hplain
      rw [List.map_cons, hw.2.eq_ofCertificate hplain.1, ← ih hplain.2]

theorem readable (h : List.Forall₂ ReadsAs ws cs) : ∀ w ∈ ws, w.IsReadable := by
  induction h with
  | nil => simp
  | cons hw _ ih => exact List.forall_mem_cons.mpr ⟨hw.1, ih⟩

theorem flatMap_unique {vs : List WrittenCertificate} (hws : ∀ w ∈ ws, w.IsReadable)
    (hvs : ∀ v ∈ vs, v.IsReadable) (h : ws.flatMap encode = vs.flatMap encode) : ws = vs :=
  Der.flatMap_unique encode_ne_nil encode_unique hws hvs h

theorem encodings_iff (h : List.Forall₂ ReadsAs ws cs) :
    cs.flatMap Certificate.encode = ws.flatMap encode ↔ ∀ w ∈ ws, w.body.IsPlain := by
  rw [← flatMap_ofCertificate]
  constructor
  · intro hsame
    rw [← flatMap_unique (readable (readsAs_plain h)) (readable h) hsame]
    exact isPlain_plain h
  · intro hplain
    rw [← eq_plain h hplain]

theorem body_infix {w : WrittenCertificate} (hw : w ∈ ws) : w.body.encode <:+: ws.flatMap encode := by
  have hcontent : w.body.encode <:+: w.content := (List.prefix_append _ _).isInfix
  have hcertificate : w.content <:+: w.encode := (List.suffix_append _ _).isInfix
  obtain ⟨before, after, rfl⟩ := List.append_of_mem hw
  have hchain : w.encode <:+: (before ++ w :: after).flatMap encode :=
    ⟨before.flatMap encode, after.flatMap encode, by simp⟩
  exact (hcontent.trans hcertificate).trans hchain

end WrittenCertificate

namespace CertificateChain

variable [AttributeLabels]

theorem ofCertificates_eq_ok {cs : List Certificate} {chain : CertificateChain} :
    ofCertificates cs = .ok chain ↔ chain.certificates = cs := by
  unfold ofCertificates
  constructor
  · intro h
    split at h
    · cases h
    · split at h <;> cases h
      rfl
  · rintro rfl
    obtain ⟨leaf, issuers, hvalid⟩ := chain
    simp only [certificates]
    split
    · rename_i hinvalid
      rw [hvalid] at hinvalid
      cases hinvalid
    · rfl

theorem ofBytes_eq_ok {encoded : Bytes} {chain : CertificateChain} :
    ofBytes encoded = .ok chain ↔ Certificate.readChain encoded = .ok chain.certificates := by
  unfold ofBytes
  cases Certificate.readChain encoded with
  | error e => simp
  | ok cs =>
      rw [Except.ok.injEq, eq_comm (a := cs)]
      exact ofCertificates_eq_ok

theorem certificates_of_readChain {encoded : Bytes} {cs : List Certificate} {chain : CertificateChain}
    (hread : Certificate.readChain encoded = .ok cs) (hchain : ofBytes encoded = .ok chain) :
    chain.certificates = cs := by
  rw [ofBytes_eq_ok, hread] at hchain
  exact (Except.ok.inj hchain).symm

end CertificateChain

/-! ## What is received and what is kept -/

section

open WrittenCertificate (ReadsAs)

variable [AttributeLabels]

/-- How certificates that were read relate to the octets they were read from. All octets are taken, in
one way only, and each certificate keeps what it keeps of its own. The certificates are encoded as they
were received, and a signature is checked over the body as it was received, exactly if that was plain.
Whatever else is kept as the same certificates is accepted as the same, but only one octet string of
them is plain. -/
structure ReceivingSpec (encoded : Bytes) (cs : List Certificate) (ws : List WrittenCertificate) :
    Prop where
  reads : List.Forall₂ ReadsAs ws cs ∧ encoded = ws.flatMap WrittenCertificate.encode
  only : ∀ vs : List WrittenCertificate, (∀ v ∈ vs, v.IsReadable) →
    encoded = vs.flatMap WrittenCertificate.encode → vs = ws
  within : ∀ w ∈ ws, w.body.encode <:+: encoded
  encodings : cs.flatMap Certificate.encode = encoded ↔ ∀ w ∈ ws, w.body.IsPlain
  chain : ∀ chain, CertificateChain.ofBytes encoded = .ok chain →
    (chain.encode = encoded ↔ ∀ w ∈ ws, w.body.IsPlain)
  signed : List.Forall₂ (fun w c => c.body.encode = w.body.encode ↔ w.body.IsPlain) ws cs
  others : ∀ vs, List.Forall₂ ReadsAs vs cs →
    (vs.flatMap WrittenCertificate.encode).length ≤ maxLength →
    Certificate.readChain (vs.flatMap WrittenCertificate.encode) = .ok cs
  plain : ∀ vs, List.Forall₂ ReadsAs vs cs → (∀ v ∈ vs, v.body.IsPlain) →
    vs.flatMap WrittenCertificate.encode = cs.flatMap Certificate.encode

/-- The octets received are the octets encoded, and the octets that signatures are checked over, as far
as they were plain: nothing said that goes without saying, nothing passed over, and names in order. -/
theorem receiving_spec {encoded : Bytes} {cs : List Certificate}
    (h : Certificate.readChain encoded = .ok cs) : ∃ ws, ReceivingSpec encoded cs ws := by
  obtain ⟨hbounds, -, ws, hws, rfl⟩ := Certificate.readChain_eq_ok.mp h
  refine ⟨ws, ⟨hws, rfl⟩, ?_, ?_, WrittenCertificate.encodings_iff hws, ?_, ?_, ?_, ?_⟩
  · intro vs hvs hsame
    exact WrittenCertificate.flatMap_unique hvs (WrittenCertificate.readable hws) hsame.symm
  · intro w hw
    exact WrittenCertificate.body_infix hw
  · intro chain hchain
    rw [CertificateChain.encode, CertificateChain.certificates_of_readChain h hchain]
    exact WrittenCertificate.encodings_iff hws
  · refine hws.imp ?_
    rintro w c ⟨hreadable, hkept⟩
    exact WrittenBody.encode_eq_iff hreadable.body hkept.body
  · intro vs hvs hfits
    exact Certificate.readChain_eq_ok.mpr ⟨hbounds, hfits, vs, hvs, rfl⟩
  · intro vs hvs hplain
    exact ((WrittenCertificate.encodings_iff hvs).mpr hplain).symm

end

/-- The encoding of one certificate of version 1 that says so, names itself, and is signed over its
plain form. -/
def Bytes.statedVersion : Bytes :=
  [0x30, 0x81, 0xc3, 0x30, 0x77, 0xa0, 0x03, 0x02, 0x01, 0x00, 0x02, 0x01, 0x01, 0x30, 0x05,
   0x06, 0x03, 0x2b, 0x65, 0x70, 0x30, 0x0c, 0x31, 0x0a, 0x30, 0x08, 0x06, 0x03, 0x55, 0x04,
   0x03, 0x0c, 0x01, 0x52, 0x30, 0x1e, 0x17, 0x0d, 0x32, 0x34, 0x30, 0x31, 0x30, 0x31, 0x30,
   0x30, 0x30, 0x30, 0x30, 0x30, 0x5a, 0x17, 0x0d, 0x33, 0x34, 0x30, 0x31, 0x30, 0x31, 0x30,
   0x30, 0x30, 0x30, 0x30, 0x30, 0x5a, 0x30, 0x0c, 0x31, 0x0a, 0x30, 0x08, 0x06, 0x03, 0x55,
   0x04, 0x03, 0x0c, 0x01, 0x52, 0x30, 0x2a, 0x30, 0x05, 0x06, 0x03, 0x2b, 0x65, 0x70, 0x03,
   0x21, 0x00, 0x9c, 0xfd, 0x67, 0x57, 0x20, 0xf8, 0x20, 0x5e, 0x9b, 0x51, 0x75, 0xe1, 0x99,
   0xf1, 0x6a, 0xea, 0x15, 0x5b, 0xed, 0x19, 0x23, 0x86, 0x54, 0x53, 0x63, 0x66, 0xb0, 0x60,
   0x52, 0x0f, 0x04, 0x6e, 0x30, 0x05, 0x06, 0x03, 0x2b, 0x65, 0x70, 0x03, 0x41, 0x00, 0x15,
   0xa0, 0x86, 0x5b, 0xf2, 0x49, 0xf9, 0x3f, 0xb8, 0x4e, 0xee, 0x00, 0x30, 0xd1, 0x0a, 0x99,
   0x46, 0x47, 0x29, 0x24, 0xe3, 0x83, 0x0d, 0x39, 0x75, 0x74, 0xe6, 0xdd, 0xa8, 0x44, 0xf5,
   0x5e, 0x3a, 0xab, 0x6b, 0x36, 0xe9, 0x79, 0xae, 0xe5, 0x45, 0x6b, 0xd9, 0xd2, 0x81, 0x08,
   0x9b, 0xa8, 0xc7, 0x70, 0x8e, 0x43, 0x43, 0x38, 0x55, 0x58, 0x25, 0xef, 0x55, 0x21, 0x36,
   0x6e, 0x26, 0x01]

theorem CertificateChain.ofBytes_statedVersion :
    ∃ chain, ofBytes Bytes.statedVersion = .ok chain ∧ chain.encode ≠ Bytes.statedVersion := by
  have h : (ofBytes Bytes.statedVersion).toOption.map
      (fun chain => decide (chain.encode = Bytes.statedVersion)) = some false := by
    decide +kernel
  obtain ⟨chain, hchain, hother⟩ := toOption_map_eq_some.mp h
  exact ⟨chain, hchain, of_decide_eq_false hother⟩

/-- A chain that is accepted is not encoded as it was received. -/
theorem receiving_spec_statedVersion : ∃ chain ws,
    CertificateChain.ofBytes Bytes.statedVersion = .ok chain ∧ chain.encode ≠ Bytes.statedVersion ∧
      ReceivingSpec Bytes.statedVersion chain.certificates ws := by
  obtain ⟨chain, hchain, hother⟩ := CertificateChain.ofBytes_statedVersion
  obtain ⟨ws, hspec⟩ := receiving_spec (CertificateChain.ofBytes_eq_ok.mp hchain)
  exact ⟨chain, ws, hchain, hother, hspec⟩

/-! ## The normal form -/

section

variable [AttributeLabels]

/-- What becomes of certificates that are encoded after they were read. They are read as they are, with
all that is told, encoded and checked of them, and the verdict on them is the same. So is the time at
which the leaf was issued. -/
structure NormalFormSpec (encoded : Bytes) (cs : List Certificate) : Prop where
  reread : Certificate.readChain (cs.flatMap Certificate.encode) = .ok cs
  verdict : CertificateChain.ofBytes (cs.flatMap Certificate.encode) = CertificateChain.ofBytes encoded
  chain : ∀ chain, CertificateChain.ofBytes encoded = .ok chain →
    chain.encode = cs.flatMap Certificate.encode ∧ CertificateChain.ofBytes chain.encode = .ok chain
  issued : Certificate.issuedAt (cs.flatMap Certificate.encode) = Certificate.issuedAt encoded
  shorter : (cs.flatMap Certificate.encode).length ≤ encoded.length

/-- To encode what was read is to bring it in normal form: it reads back as the same certificates. -/
theorem normal_form_spec {encoded : Bytes} {cs : List Certificate}
    (h : Certificate.readChain encoded = .ok cs) : NormalFormSpec encoded cs := by
  obtain ⟨hbounds, hfits, ws, hws, rfl⟩ := Certificate.readChain_eq_ok.mp h
  have hshorter := WrittenCertificate.length_plain_le hws
  have hreread : Certificate.readChain (cs.flatMap Certificate.encode) = .ok cs :=
    Certificate.readChain_eq_ok.mpr ⟨hbounds, Nat.le_trans hshorter hfits, cs.map .ofCertificate,
      WrittenCertificate.readsAs_plain hws, (WrittenCertificate.flatMap_ofCertificate cs).symm⟩
  have hverdict : CertificateChain.ofBytes (cs.flatMap Certificate.encode) =
      CertificateChain.ofBytes (ws.flatMap WrittenCertificate.encode) := by
    rw [CertificateChain.ofBytes, CertificateChain.ofBytes, hreread, h]
  refine ⟨hreread, hverdict, ?_, ?_, hshorter⟩
  · intro chain hchain
    rw [CertificateChain.encode, CertificateChain.certificates_of_readChain h hchain, hverdict]
    exact ⟨rfl, hchain⟩
  · obtain ⟨leaf, issuers, rfl⟩ := List.exists_cons_of_ne_nil hbounds.1
    rw [Certificate.issuedAt_of_readChain hreread, Certificate.issuedAt_of_readChain h]

end

/-- A certificate that states its version gets shorter, and is accepted again. -/
theorem normal_form_spec_statedVersion : ∃ chain,
    CertificateChain.ofBytes Bytes.statedVersion = .ok chain ∧ chain.encode ≠ Bytes.statedVersion ∧
      NormalFormSpec Bytes.statedVersion chain.certificates := by
  obtain ⟨chain, hchain, hother⟩ := CertificateChain.ofBytes_statedVersion
  exact ⟨chain, hchain, hother, normal_form_spec (CertificateChain.ofBytes_eq_ok.mp hchain)⟩

end KeyPool
