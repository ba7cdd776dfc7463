import KeyPool.Proofs.Certificate.Chains
import KeyPool.Proofs.Certificate.Links
import KeyPool.Proofs.Certificate.NameTexts

/-! What is asked of the names of a root. The issuer of any other certificate has to be the subject of the
next, but the two names of a root have only to read the same. So a root may be accepted that does not
name itself as its issuer, in the sense in which certificates name each other, and a second copy of it is
refused for names whose texts are the same. -/

namespace KeyPool

section

variable [AttributeLabels]

namespace Certificate

variable {cs : List Certificate} {root : Certificate}

theorem isSelfIssued_iff :
    root.info.isSelfIssued = true ↔ root.body.issuer.ReadsAs root.body.subject := by
  have htexts : root.info.isSelfIssued = true ↔ root.body.subject.toText = root.body.issuer.toText :=
    decide_eq_true_iff
  rw [htexts, eq_comm, DistinguishedName.toText_eq_iff]

/-- One more certificate behind linked ones is reached by the walk with the last of them. -/
theorem checkFrom_concat {position : Nat} (hcs : cs ≠ []) (h : AreLinked cs) (c : Certificate) :
    checkFrom position (cs ++ [c]) = checkFrom (position + (cs.length - 1)) [cs.getLast hcs, c] := by
  induction cs generalizing position with
  | nil => exact absurd rfl hcs
  | cons d cs ih =>
      cases cs with
      | nil => rfl
      | cons d' cs =>
          obtain ⟨hfirst, hrest⟩ := areLinked_cons.mp h
          have hstep : checkFrom position (d :: d' :: (cs ++ [c])) =
              checkFrom (position + 1) (d' :: cs ++ [c]) := by
            rw [checkFrom, checkLink_eq_ok.mpr hfirst]
            rfl
          have hcount : position + 1 + ((d' :: cs).length - 1) =
              position + ((d :: d' :: cs).length - 1) := by
            simp only [List.length_cons]
            omega
          change checkFrom position (d :: d' :: (cs ++ [c])) = _
          rw [hstep, ih (List.cons_ne_nil _ _) hrest, hcount, List.getLast_cons (List.cons_ne_nil _ _)]

/-- A root behind itself is linked to itself exactly if its names are the same, and told of by them if
they are not. -/
theorem checkFrom_twice {position : Nat} (hroot : root.SignsItself) :
    checkFrom position [root, root] =
      if root.body.issuer = root.body.subject then .ok ()
      else .error (.nameMismatch position root.body.issuer root.body.subject) := by
  by_cases hnames : root.body.issuer = root.body.subject
  · have hlink : checkLink position root root = .ok () := checkLink_eq_ok.mpr ⟨hnames, hroot.signed⟩
    have hself : checkRoot root = .ok () := checkRoot_eq_ok.mpr hroot
    simp only [checkFrom, hlink, hself, if_pos hnames]
  · have hlink : checkLink position root root =
        .error (.nameMismatch position root.body.issuer root.body.subject) :=
      checkLink_eq_error.mpr (.named hnames)
    simp only [checkFrom, hlink, if_neg hnames]

end Certificate

namespace CertificateChain

/-- Octets are judged by the certificates that they are split into. -/
theorem ofBytes_of_readChain {encoded : Bytes} {cs : List Certificate}
    (h : Certificate.readChain encoded = .ok cs) :
    ((∃ chain, ofBytes encoded = .ok chain) ↔ Certificate.checkChain cs = .ok ()) ∧
      ∀ e, ofBytes encoded = .error e ↔ Certificate.checkChain cs = .error e := by
  obtain ⟨⟨hcs, -⟩, -⟩ := Certificate.readChain_eq_ok.mp h
  obtain ⟨leaf, issuers, rfl⟩ := List.exists_cons_of_ne_nil hcs
  rw [ofBytes, h]
  simp only [ofCertificates]
  split
  · rename_i e he
    simp [he]
  · rename_i hok
    simp [hok]

/-- A copy of the root behind the octets of a chain is read as one more certificate, up to the length that
a chain may have. -/
theorem readChain_repeated {encoded : Bytes} {chain : CertificateChain}
    (h : ofBytes encoded = .ok chain) (hlength : chain.length < maxChainLength)
    (hfits : (encoded ++ chain.root.encode).length ≤ Der.maxLength) :
    Certificate.readChain (encoded ++ chain.root.encode) = .ok (chain.certificates ++ [chain.root]) := by
  obtain ⟨-, -, ws, hws, rfl⟩ := Certificate.readChain_eq_ok.mp (ofBytes_eq_ok.mp h)
  have hroot : chain.root ∈ chain.certificates := List.getLast_mem _
  have hplain : WrittenCertificate.ReadsAs (.ofCertificate chain.root) chain.root := by
    have hall := List.forall₂_map_left_iff.mp (WrittenCertificate.readsAs_plain hws)
    exact List.forall₂_same.mp hall _ hroot
  have hbound : (chain.certificates ++ [chain.root]).length ≤ maxChainLength := by
    rw [List.length_append, List.length_singleton]
    exact hlength
  refine Certificate.readChain_eq_ok.mpr ⟨⟨by simp, hbound⟩, hfits, ws ++ [.ofCertificate chain.root],
    List.rel_append hws (.cons hplain .nil), ?_⟩
  simp [WrittenCertificate.encode_ofCertificate]

end CertificateChain

/-- What is asked of the names of the last of some certificates, whatever attribute types are called. They
validate exactly if each is linked to the next, the names of the last read the same, and its own key
verifies its signature. Behind itself the last stands exactly if its names are the same, and otherwise
these are told as different, although they are one text. So it is with the octets of a chain, to the end
of which those of its root are added. -/
structure RootSpec (cs : List Certificate) : Prop where
  accepted : Certificate.checkChain cs = .ok () ↔ ∃ h : cs ≠ [], Certificate.AreLinked cs ∧
    (cs.getLast h).body.issuer.ReadsAs (cs.getLast h).body.subject ∧
    (cs.getLast h).checkSignature (cs.getLast h) = .ok ()
  repeated : Certificate.checkChain cs = .ok () → ∀ root ∈ cs.getLast?,
    (root.body.issuer = root.body.subject → Certificate.checkChain (cs ++ [root]) = .ok ()) ∧
    (root.body.issuer ≠ root.body.subject →
      Certificate.checkChain (cs ++ [root]) =
        .error (.nameMismatch (cs.length - 1) root.body.issuer root.body.subject) ∧
      root.body.issuer.toText = root.body.subject.toText)
  octets : ∀ encoded chain, CertificateChain.ofBytes encoded = .ok chain → chain.certificates = cs →
    chain.length < maxChainLength → (encoded ++ chain.root.encode).length ≤ Der.maxLength →
    ((∃ longer, CertificateChain.ofBytes (encoded ++ chain.root.encode) = .ok longer) ↔
      chain.root.body.issuer = chain.root.body.subject)

/-- The names of a root read the same. Whether they are the same is not asked, and decides whether the
root may stand there twice. -/
theorem root_spec (cs : List Certificate) : RootSpec cs := by
  have htwice : Certificate.checkChain cs = .ok () → ∀ root ∈ cs.getLast?, root.SignsItself ∧
      Certificate.checkChain (cs ++ [root]) =
        if root.body.issuer = root.body.subject then .ok ()
        else .error (.nameMismatch (cs.length - 1) root.body.issuer root.body.subject) := by
    intro hok root hlast
    obtain ⟨hcs, hlinked, hroot⟩ := Certificate.checkFrom_eq_ok.mp hok
    rw [List.getLast?_eq_some_getLast hcs, Option.mem_some] at hlast
    subst hlast
    refine ⟨hroot, ?_⟩
    rw [Certificate.checkChain, Certificate.checkFrom_concat hcs hlinked, Nat.zero_add,
      Certificate.checkFrom_twice hroot]
  refine ⟨?_, ?_, ?_⟩
  · rw [Certificate.checkChain, Certificate.checkFrom_eq_ok]
    refine exists_congr fun hcs => and_congr_right fun _ => ?_
    rw [← Certificate.isSelfIssued_iff]
    exact ⟨fun h => ⟨h.named, h.signed⟩, fun h => ⟨h.1, h.2⟩⟩
  · intro hok root hlast
    obtain ⟨hroot, hresult⟩ := htwice hok root hlast
    rw [hresult]
    refine ⟨fun hsame => if_pos hsame, fun hother => ⟨if_neg hother, ?_⟩⟩
    exact DistinguishedName.toText_eq_iff.mpr (Certificate.isSelfIssued_iff.mp hroot.named)
  · rintro encoded chain hchain rfl hlength hfits
    have hread := CertificateChain.readChain_repeated hchain hlength hfits
    have hlast : chain.root ∈ chain.certificates.getLast? := List.getLast?_eq_some_getLast _
    rw [(CertificateChain.ofBytes_of_readChain hread).1, (htwice chain.valid _ hlast).2]
    split
    · rename_i hsame
      exact ⟨fun _ => hsame, fun _ => rfl⟩
    · rename_i hother
      exact ⟨fun h => (by cases h), fun h => absurd h hother⟩

end

/-- The encoding of one certificate that names its subject in UTF-8 and its issuer, with the same
character, as a printable string, and is signed with its own key. -/
def Bytes.twoSpellings : Bytes :=
  [0x30, 0x81, 0xbe, 0x30, 0x72, 0x02, 0x01, 0x01, 0x30, 0x05, 0x06, 0x03, 0x2b, 0x65, 0x70,
   0x30, 0x0c, 0x31, 0x0a, 0x30, 0x08, 0x06, 0x03, 0x55, 0x04, 0x03, 0x13, 0x01, 0x52, 0x30,
   0x1e, 0x17, 0x0d, 0x32, 0x34, 0x30, 0x31, 0x30, 0x31, 0x30, 0x30, 0x30, 0x30, 0x30, 0x30,
   0x5a, 0x17, 0x0d, 0x33, 0x34, 0x30, 0x31, 0x30, 0x31, 0x30, 0x30, 0x30, 0x30, 0x30, 0x30,
   0x5a, 0x30, 0x0c, 0x31, 0x0a, 0x30, 0x08, 0x06, 0x03, 0x55, 0x04, 0x03, 0x0c, 0x01, 0x52,
   0x30, 0x2a, 0x30, 0x05, 0x06, 0x03, 0x2b, 0x65, 0x70, 0x03, 0x21, 0x00, 0xea, 0x4a, 0x6c,
   0x63, 0xe2, 0x9c, 0x52, 0x0a, 0xbe, 0xf5, 0x50, 0x7b, 0x13, 0x2e, 0xc5, 0xf9, 0x95, 0x47,
   0x76, 0xae, 0xbe, 0xbe, 0x7b, 0x92, 0x42, 0x1e, 0xea, 0x69, 0x14, 0x46, 0xd2, 0x2c, 0x30,
   0x05, 0x06, 0x03, 0x2b, 0x65, 0x70, 0x03, 0x41, 0x00, 0x9f, 0xc6, 0x79, 0x89, 0xb7, 0xeb,
   0xaf, 0x22, 0x7c, 0xb3, 0xc0, 0x02, 0x28, 0xdf, 0xd8, 0x19, 0x02, 0x89, 0xeb, 0x82, 0xea,
   0xde, 0xa3, 0xa7, 0xd7, 0xee, 0x70, 0xd5, 0x15, 0x43, 0x52, 0x08, 0x9b, 0x24, 0xaa, 0x07,
   0x28, 0x94, 0x2d, 0x42, 0x23, 0x53, 0xf7, 0xa3, 0xb4, 0xdb, 0xe7, 0x67, 0x82, 0x60, 0xf0,
   0x30, 0xb5, 0x7d, 0x37, 0x79, 0x9d, 0x4d, 0xa5, 0x15, 0x58, 0xc8, 0xd5, 0x05]

theorem CertificateChain.ofBytes_twoSpellings : ∃ chain, ofBytes Bytes.twoSpellings = .ok chain ∧
    chain.length = 1 ∧ (Bytes.twoSpellings ++ chain.root.encode).length ≤ Der.maxLength ∧
      chain.root.body.issuer ≠ chain.root.body.subject := by
  have h : (ofBytes Bytes.twoSpellings).toOption.map (fun chain =>
      decide (chain.length = 1 ∧ (Bytes.twoSpellings ++ chain.root.encode).length ≤ Der.maxLength ∧
        chain.root.body.issuer ≠ chain.root.body.subject)) = some true := by
    decide +kernel
  obtain ⟨chain, hchain, hfound⟩ := toOption_map_eq_some.mp h
  exact ⟨chain, hchain, of_decide_eq_true hfound⟩

/-- A root is accepted whose issuer is not its subject, and not accepted behind itself. -/
theorem root_spec_twoSpellings : ∃ chain, CertificateChain.ofBytes Bytes.twoSpellings = .ok chain ∧
    chain.root.body.issuer ≠ chain.root.body.subject ∧ RootSpec chain.certificates ∧
    ¬ ∃ longer, CertificateChain.ofBytes (Bytes.twoSpellings ++ chain.root.encode) = .ok longer := by
  obtain ⟨chain, hchain, hlength, hfits, hother⟩ := CertificateChain.ofBytes_twoSpellings
  have hspec := root_spec chain.certificates
  have hshort : chain.length < maxChainLength := by
    rw [hlength]
    decide
  refine ⟨chain, hchain, hother, hspec, fun hlonger => hother ?_⟩
  exact (hspec.octets _ chain hchain rfl hshort hfits).mp hlonger

end KeyPool
