import KeyPool.Proofs.Certificate.Written

/-! The plain form of a certificate states nothing that goes without saying, has nothing to pass over,
and has the sets of its names in order. It is the form that a certificate is encoded in, and no other
plain form is kept as the same certificate. -/

namespace KeyPool

open Der (maxLength wrap)

variable {x y : Bytes}

/-! ## Optional parts -/

namespace Der.WrittenPart

variable {τ : Type} {number : Nat} {constructed : Bool} {content : τ → Bytes}
  {IsReadable : τ → Prop} {found : Option τ} {p : WrittenPart τ}

def bare (found : Option τ) : WrittenPart τ := ⟨[], found⟩

theorem encode_bare : (bare found).encode number constructed content =
    field number constructed content found := rfl

theorem eq_bare (h : p.passed = []) : p = bare p.found := by
  obtain ⟨passed, found⟩ := p
  cases h
  rfl

theorem fits_bare (h : ∀ t ∈ found, IsReadable t ∧ (content t).length ≤ maxLength) :
    (bare found).Fits number content IsReadable :=
  ⟨by simp [bare], h⟩

theorem beginsFrom_bare {first : Nat} (hnumber : number < 31) (hfirst : first ≤ number)
    (hx : Reader.BeginsFrom first x) :
    Reader.BeginsFrom first ((bare found).encode number constructed content ++ x) := by
  cases found with
  | none => exact hx
  | some t => exact Reader.beginsFrom_context hnumber hfirst constructed (content t)

theorem length_encode_bare_le
    (h : ∀ t ∈ found, ∃ u ∈ p.found, (content t).length ≤ (content u).length) :
    ((bare found).encode number constructed content).length ≤
      (p.encode number constructed content).length := by
  have hfield : (field number constructed content found).length ≤
      (field number constructed content p.found).length := by
    cases found with
    | none => simp [field]
    | some t =>
        obtain ⟨u, hu, hless⟩ := h t rfl
        rw [Option.mem_def.mp hu]
        exact length_wrap_mono _ hless
  rw [encode_bare, encode, List.length_append]
  omega

end Der.WrittenPart

/-! ## Extensions -/

namespace WrittenExtension

/-- It is not said that an extension is not critical. -/
def IsPlain (e : WrittenExtension) : Prop := e.critical ≠ some false

def ofExtension (e : Extension) : WrittenExtension :=
  ⟨e.id, if e.critical then some true else none, e.value⟩

theorem encode_ofExtension (e : Extension) : (ofExtension e).encode = e.encode := by
  obtain ⟨id, critical, value⟩ := e
  cases critical <;>
    simp [encode, content, ofExtension, Extension.encode, encodeBoolean, Der.encodeTrue]

theorem kept_ofExtension (e : Extension) : (ofExtension e).kept = e := by
  obtain ⟨id, critical, value⟩ := e
  cases critical <;> rfl

theorem isPlain_ofExtension (e : Extension) : (ofExtension e).IsPlain := by
  unfold IsPlain ofExtension
  split <;> simp

theorem ofExtension_kept {e : WrittenExtension} (h : e.IsPlain) : ofExtension e.kept = e := by
  obtain ⟨id, critical, value⟩ := e
  rcases critical with _ | _ | _
  · rfl
  · exact absurd rfl h
  · rfl

theorem length_content_le (e : WrittenExtension) :
    (ofExtension e.kept).content.length ≤ e.content.length := by
  obtain ⟨id, critical, value⟩ := e
  rcases critical with _ | _ | _ <;> simp [content, ofExtension, kept]

theorem length_flatMap_le (es : List WrittenExtension) :
    ((es.map fun e => ofExtension e.kept).flatMap encode).length ≤ (es.flatMap encode).length := by
  induction es with
  | nil => simp
  | cons e es ih =>
      have hfirst : (ofExtension e.kept).encode.length ≤ e.encode.length :=
        Der.length_wrap_mono _ e.length_content_le
      simp only [List.map_cons, List.flatMap_cons, List.length_append]
      omega

theorem AreReadable.plain {es : List WrittenExtension} (h : AreReadable es) :
    AreReadable (es.map fun e => ofExtension e.kept) := by
  refine ⟨?_, Nat.le_trans (length_flatMap_le es) h.fits⟩
  intro _ hmem
  obtain ⟨e, he, rfl⟩ := List.mem_map.mp hmem
  obtain ⟨hid, hvalue, hfits⟩ := h.each e he
  exact ⟨hid, hvalue, Nat.le_trans e.length_content_le hfits⟩

end WrittenExtension

/-! ## Bodies -/

namespace WrittenBody

/-- Nothing goes without saying and is said, nothing is passed over, and names are in order. -/
structure IsPlain (w : WrittenBody) : Prop where
  version : w.version.passed = [] ∧ w.version.found ≠ some .v1
  issuer : w.issuer.IsOrdered
  subject : w.subject.IsOrdered
  issuerUniqueId : w.issuerUniqueId.passed = []
  subjectUniqueId : w.subjectUniqueId.passed = []
  extensions : w.extensions.passed = [] ∧ ∀ es ∈ w.extensions.found, ∀ e ∈ es, e.IsPlain

def ofBody (b : CertificateBody) : WrittenBody where
  version := .bare (if b.version = .v1 then none else some b.version)
  serial := b.serial
  signatureAlgorithm := b.signatureAlgorithm
  issuer := b.issuer
  notBefore := b.notBefore
  notAfter := b.notAfter
  subject := b.subject
  subjectKey := b.subjectKey
  issuerUniqueId := .bare b.issuerUniqueId
  subjectUniqueId := .bare b.subjectUniqueId
  extensions := .bare (b.extensions.map (List.map WrittenExtension.ofExtension))

theorem encode_ofBody (b : CertificateBody) : (ofBody b).encode = b.encode := by
  have hversion : (ofBody b).version.encode 0 true CertificateVersion.content = b.version.encode := by
    change Der.WrittenPart.field 0 true _ (if b.version = .v1 then none else some b.version) = _
    unfold CertificateVersion.encode
    split <;> rfl
  have hextensions : (ofBody b).encodeExtensions = CertificateBody.encodeExtensions b.extensions := by
    change Der.WrittenPart.field 3 true _ (b.extensions.map _) = _
    cases b.extensions <;> simp [Der.WrittenPart.field, CertificateBody.encodeExtensions,
      WrittenExtension.list, List.flatMap_map, WrittenExtension.encode_ofExtension]
  unfold encode content CertificateBody.encode encodeSubjectUniqueId
  rw [hversion, hextensions]
  simp only [List.append_assoc]
  rfl

variable {w : WrittenBody} {b : CertificateBody}

theorem isPlain_ofBody (h : w.KeptAs b) : (ofBody b).IsPlain where
  version := by
    refine ⟨rfl, ?_⟩
    change (if b.version = .v1 then none else some b.version) ≠ some CertificateVersion.v1
    split <;> simp [*]
  issuer := h.issuer.ordered
  subject := h.subject.ordered
  issuerUniqueId := rfl
  subjectUniqueId := rfl
  extensions := by
    refine ⟨rfl, ?_⟩
    intro es hes e he
    obtain ⟨_, -, rfl⟩ := Option.map_eq_some_iff.mp hes
    obtain ⟨e, -, rfl⟩ := List.mem_map.mp he
    exact WrittenExtension.isPlain_ofExtension e

theorem ofBody_keptAs (h : w.KeptAs b) : (ofBody b).KeptAs b where
  version := by
    change b.version = (if b.version = .v1 then none else some b.version).getD .v1
    split <;> simp [*]
  serial := rfl
  signatureAlgorithm := rfl
  issuer := h.issuer.ordered.keptAs
  notBefore := rfl
  notAfter := rfl
  subject := h.subject.ordered.keptAs
  subjectKey := rfl
  issuerUniqueId := rfl
  subjectUniqueId := rfl
  extensions := by
    change b.extensions = (b.extensions.map _).map _
    cases b.extensions <;> simp [Function.comp_def, WrittenExtension.kept_ofExtension]

/-- The version that a plain body states is the one that does not go without saying. -/
theorem KeptAs.mem_version (h : w.KeptAs b) {v : CertificateVersion}
    (hv : v ∈ (ofBody b).version.found) : v ∈ w.version.found := by
  change (if b.version = .v1 then none else some b.version) = some v at hv
  have hversion := h.version
  split at hv
  · cases hv
  · rename_i hlater
    cases hv
    cases hfound : w.version.found with
    | none =>
        rw [hfound] at hversion
        exact absurd hversion hlater
    | some stated =>
        rw [hfound] at hversion
        rw [hversion]
        rfl

/-- A plain body is the plain form of what is kept of it. -/
theorem KeptAs.eq_ofBody (h : w.KeptAs b) (hplain : w.IsPlain) : w = ofBody b := by
  have hversion : w.version = .bare (if b.version = .v1 then none else some b.version) := by
    obtain ⟨hpassed, hstated⟩ := hplain.version
    rw [Der.WrittenPart.eq_bare hpassed, h.version]
    cases hfound : w.version.found with
    | none => rfl
    | some v =>
        rw [hfound] at hstated
        have hlater : v ≠ .v1 := fun hv => hstated (congrArg some hv)
        rw [Option.getD_some, if_neg hlater]
  have hextensions :
      w.extensions = .bare (b.extensions.map (List.map WrittenExtension.ofExtension)) := by
    obtain ⟨hpassed, heach⟩ := hplain.extensions
    rw [Der.WrittenPart.eq_bare hpassed, h.extensions]
    cases hfound : w.extensions.found with
    | none => rfl
    | some es =>
        have hsame : es.map (fun e => WrittenExtension.ofExtension e.kept) = es := by
          conv_rhs => rw [← List.map_id es]
          exact List.map_congr_left fun e he => WrittenExtension.ofExtension_kept (heach es hfound e he)
        simp [Function.comp_def, hsame]
  have hissuerId : w.issuerUniqueId = .bare b.issuerUniqueId := by
    rw [h.issuerUniqueId]
    exact Der.WrittenPart.eq_bare hplain.issuerUniqueId
  have hsubjectId : w.subjectUniqueId = .bare b.subjectUniqueId := by
    rw [h.subjectUniqueId]
    exact Der.WrittenPart.eq_bare hplain.subjectUniqueId
  obtain ⟨version, serial, algorithm, issuer, notBefore, notAfter, subject, key, issuerId, subjectId,
    extensions⟩ := w
  rw [ofBody, WrittenBody.mk.injEq]
  exact ⟨hversion, h.serial.symm, h.signatureAlgorithm.symm, h.issuer.eq_of_ordered hplain.issuer,
    h.notBefore.symm, h.notAfter.symm, h.subject.eq_of_ordered hplain.subject, h.subjectKey.symm,
    hissuerId, hsubjectId, hextensions⟩

theorem KeptAs.length_content_le (h : w.KeptAs b) (hissuer : w.issuer.IsReadable)
    (hsubject : w.subject.IsReadable) : (ofBody b).content.length ≤ w.content.length := by
  have hversion : ((ofBody b).version.encode 0 true CertificateVersion.content).length ≤
      (w.version.encode 0 true CertificateVersion.content).length :=
    Der.WrittenPart.length_encode_bare_le fun v hv => ⟨v, h.mem_version hv, Nat.le_refl _⟩
  have hid {number : Nat} {found : Option Der.BitString} {p : Der.WrittenPart Der.BitString}
      (hfound : found = p.found) :
      ((Der.WrittenPart.bare found).encode number false Der.BitString.content).length ≤
        (p.encode number false Der.BitString.content).length :=
    Der.WrittenPart.length_encode_bare_le fun s hs => ⟨s, hfound ▸ hs, Nat.le_refl _⟩
  have hextensions : (ofBody b).encodeExtensions.length ≤ w.encodeExtensions.length := by
    refine Der.WrittenPart.length_encode_bare_le fun _ hmem => ?_
    rw [h.extensions, Option.map_map] at hmem
    obtain ⟨es, hes, rfl⟩ := Option.map_eq_some_iff.mp hmem
    refine ⟨es, hes, Der.length_wrap_mono _ ?_⟩
    rw [Function.comp_apply, List.map_map]
    exact WrittenExtension.length_flatMap_le es
  have hsubjectIds : (ofBody b).encodeSubjectUniqueId.length ≤ w.encodeSubjectUniqueId.length := by
    have hsubjectId : ((Der.WrittenPart.bare b.subjectUniqueId).encode 2 false _).length ≤ _ :=
      hid h.subjectUniqueId
    unfold encodeSubjectUniqueId
    rw [List.length_append, List.length_append]
    exact Nat.add_le_add hsubjectId hextensions
  have hissuerId : ((Der.WrittenPart.bare b.issuerUniqueId).encode 1 false _).length ≤ _ :=
    hid h.issuerUniqueId
  have hissuerLength := (h.issuer.readable hissuer).2
  have hsubjectLength := (h.subject.readable hsubject).2
  unfold content
  simp only [List.length_append]
  change _ + ((wrap _ b.serial).length + (b.signatureAlgorithm.encode.length + (b.issuer.encode.length +
    ((CertificateTime.encodePeriod b.notBefore b.notAfter).length + (b.subject.encode.length +
      (b.subjectKey.encode.length + (((Der.WrittenPart.bare b.issuerUniqueId).encode 1 false _).length +
        _))))))) ≤ _
  rw [h.serial, h.signatureAlgorithm, h.notBefore, h.notAfter, h.subjectKey]
  omega

/-- What is kept can be read back in its plain form, which takes no more octets. -/
theorem IsReadable.plain (h : w.IsReadable) (hkept : w.KeptAs b) :
    (ofBody b).IsReadable ∧ (ofBody b).encode.length ≤ w.encode.length := by
  have hless := hkept.length_content_le h.issuer h.subject
  refine ⟨?_, Der.length_wrap_mono _ hless⟩
  have hfits := Nat.le_trans hless h.fits
  have hversion : (ofBody b).version.Fits 0 CertificateVersion.content fun _ => True :=
    Der.WrittenPart.fits_bare fun v hv => h.version.found v (hkept.mem_version hv)
  have hissuer := (hkept.issuer.readable h.issuer).1
  have hsubject := (hkept.subject.readable h.subject).1
  -- nothing is passed over, so the parts stand in the order of their numbers
  have hextensionsEnd {first : Nat} (hfirst : first ≤ 3) :
      Der.Reader.BeginsFrom first (ofBody b).encodeExtensions := by
    rw [← List.append_nil (encodeExtensions _)]
    exact Der.WrittenPart.beginsFrom_bare (by decide) hfirst nofun
  have hsubjectEnd : Der.Reader.BeginsFrom 2 (ofBody b).encodeSubjectUniqueId :=
    Der.WrittenPart.beginsFrom_bare (by decide) (Nat.le_refl 2) (hextensionsEnd (by decide))
  have hextensions :
      (ofBody b).extensions.Fits 3 WrittenExtension.list WrittenExtension.AreReadable := by
    refine Der.WrittenPart.fits_bare fun _ hmem => ?_
    rw [hkept.extensions, Option.map_map] at hmem
    obtain ⟨es, hes, rfl⟩ := Option.map_eq_some_iff.mp hmem
    obtain ⟨hreadable, hlength⟩ := h.extensions.found es hes
    rw [Function.comp_apply, List.map_map]
    exact ⟨hreadable.plain, Nat.le_trans
      (Der.length_wrap_mono _ (WrittenExtension.length_flatMap_le es)) hlength⟩
  obtain ⟨version, serial, algorithm, issuer, notBefore, notAfter, subject, key, issuerId, subjectId,
    extensions⟩ := b
  obtain ⟨-, rfl, rfl, -, rfl, rfl, -, rfl, rfl, rfl, -⟩ := hkept
  exact ⟨hversion, h.serial, h.signatureAlgorithm, hissuer, h.notBefore, h.notAfter, hsubject,
    h.subjectKey, Der.WrittenPart.fits_bare h.issuerUniqueId.found, fun _ => hsubjectEnd,
    Der.WrittenPart.fits_bare h.subjectUniqueId.found, fun _ => hextensionsEnd (Nat.le_refl 3),
    hextensions, hfits⟩

theorem encode_unique {a b : WrittenBody} (ha : a.IsReadable) (hb : b.IsReadable)
    (h : a.encode ++ x = b.encode ++ y) : a = b ∧ x = y := by
  obtain ⟨hcontent, hrest⟩ := Der.wrap_unique (by decide) ha.fits hb.fits h
  have hserials {w : WrittenBody} (hw : w.IsReadable) : w.serial.length ≤ maxLength :=
    Nat.le_trans hw.serial.2 (by decide)
  have hbits {s t : Der.BitString} (hs : s.IsCounted) (ht : t.IsCounted) (hst : s.content = t.content) :
      s = t := by
    have hread := (Der.BitString.ofContent?_eq_some.mpr ⟨hs, rfl⟩).symm.trans
      (Der.BitString.ofContent?_eq_some.mpr ⟨ht, hst⟩)
    exact Option.some.inj hread
  -- field by field, each is told from the rest
  obtain ⟨hversion, h1⟩ := Der.WrittenPart.encode_unique (by decide)
    (fun _ _ => CertificateVersion.content_injective) ha.version
    (fun _ => beginsFrom_integer _ _) hb.version (fun _ => beginsFrom_integer _ _) hcontent
  obtain ⟨hserial, h2⟩ := Der.wrap_unique (by decide) (hserials ha) (hserials hb) h1
  obtain ⟨halgorithm, h3⟩ := Der.Reader.unique AlgorithmIdentifier.reader_eq_some ha.signatureAlgorithm
    hb.signatureAlgorithm h2
  obtain ⟨hissuer, h4⟩ := DistinguishedName.encode_unique ha.issuer hb.issuer h3
  obtain ⟨⟨hnotBefore, hnotAfter⟩, h5⟩ := CertificateTime.encodePeriod_unique
    ⟨ha.notBefore, ha.notAfter⟩ ⟨hb.notBefore, hb.notAfter⟩ h4
  obtain ⟨hsubject, h6⟩ := DistinguishedName.encode_unique ha.subject hb.subject h5
  obtain ⟨hkey, h7⟩ := Der.Reader.unique SubjectKey.reader_eq_some ha.subjectKey hb.subjectKey h6
  obtain ⟨hissuerId, h8⟩ := Der.WrittenPart.encode_unique (by decide) hbits ha.issuerUniqueId
    ha.issuerUniqueId_ends hb.issuerUniqueId hb.issuerUniqueId_ends h7
  obtain ⟨hsubjectId, h9⟩ := Der.WrittenPart.encode_unique (by decide) hbits ha.subjectUniqueId
    ha.subjectUniqueId_ends hb.subjectUniqueId hb.subjectUniqueId_ends h8
  obtain ⟨hextensions, -⟩ := Der.WrittenPart.encode_unique (x := []) (y := []) (by decide)
    WrittenExtension.list_unique ha.extensions nofun hb.extensions nofun
    (by simpa [encodeExtensions] using h9)
  obtain ⟨version, serial, algorithm, issuer, notBefore, notAfter, subject, key, issuerId, subjectId,
    extensions⟩ := a
  cases b
  rw [WrittenBody.mk.injEq]
  exact ⟨⟨hversion, hserial, halgorithm, hissuer, hnotBefore, hnotAfter, hsubject, hkey, hissuerId,
    hsubjectId, hextensions⟩, hrest⟩

/-- A body is encoded as it is written exactly if it is written in its plain form. -/
theorem encode_eq_iff (h : w.IsReadable) (hkept : w.KeptAs b) : b.encode = w.encode ↔ w.IsPlain := by
  rw [← encode_ofBody]
  constructor
  · intro hsame
    have hends : (ofBody b).encode ++ [] = w.encode ++ [] := by rw [hsame]
    obtain ⟨rfl, -⟩ := encode_unique (h.plain hkept).1 h hends
    exact isPlain_ofBody hkept
  · intro hplain
    rw [← hkept.eq_ofBody hplain]

end WrittenBody

/-! ## Certificates -/

namespace WrittenCertificate

def ofCertificate (c : Certificate) : WrittenCertificate :=
  ⟨.ofBody c.body, c.signatureAlgorithm, c.signature⟩

theorem encode_ofCertificate (c : Certificate) : (ofCertificate c).encode = c.encode := by
  change wrap _ ((WrittenBody.ofBody c.body).encode ++
    (c.signatureAlgorithm.encode ++ c.signature.encode)) = _
  rw [WrittenBody.encode_ofBody, ← List.append_assoc]
  rfl

variable {w : WrittenCertificate} {c : Certificate}

theorem KeptAs.plain (h : w.KeptAs c) : (ofCertificate c).KeptAs c :=
  ⟨WrittenBody.ofBody_keptAs h.body, rfl, rfl⟩

theorem KeptAs.eq_ofCertificate (h : w.KeptAs c) (hplain : w.body.IsPlain) : w = ofCertificate c := by
  obtain ⟨body, algorithm, signature⟩ := w
  rw [ofCertificate, WrittenCertificate.mk.injEq]
  exact ⟨h.body.eq_ofBody hplain, h.signatureAlgorithm.symm, h.signature.symm⟩

theorem IsReadable.plain (h : w.IsReadable) (hkept : w.KeptAs c) :
    (ofCertificate c).IsReadable ∧ (ofCertificate c).encode.length ≤ w.encode.length := by
  obtain ⟨hbody, hlength⟩ := h.body.plain hkept.body
  have hless : (ofCertificate c).content.length ≤ w.content.length := by
    change ((WrittenBody.ofBody c.body).encode ++
      (c.signatureAlgorithm.encode ++ c.signature.encode)).length ≤
        (w.body.encode ++ (w.signatureAlgorithm.encode ++ w.signature.encode)).length
    simp only [hkept.signatureAlgorithm, hkept.signature, List.length_append]
    omega
  have halgorithm := h.signatureAlgorithm
  have hsignature := h.signature
  rw [← hkept.signatureAlgorithm] at halgorithm
  rw [← hkept.signature] at hsignature
  exact ⟨⟨hbody, halgorithm, hsignature, Nat.le_trans hless h.fits⟩, Der.length_wrap_mono _ hless⟩

theorem encode_unique {v : WrittenCertificate} (hw : w.IsReadable) (hv : v.IsReadable)
    (h : w.encode ++ x = v.encode ++ y) : w = v ∧ x = y := by
  obtain ⟨hcontent, hrest⟩ := Der.wrap_unique (by decide) hw.fits hv.fits h
  obtain ⟨hbody, h1⟩ := WrittenBody.encode_unique hw.body hv.body hcontent
  obtain ⟨halgorithm, h2⟩ := Der.Reader.unique AlgorithmIdentifier.reader_eq_some hw.signatureAlgorithm
    hv.signatureAlgorithm h1
  obtain ⟨hsignature, -⟩ := Der.Reader.unique Der.BitString.reader_eq_some (x := []) (y := [])
    hw.signature hv.signature (by rw [h2])
  obtain ⟨body, algorithm, signature⟩ := w
  cases v
  rw [WrittenCertificate.mk.injEq]
  exact ⟨⟨hbody, halgorithm, hsignature⟩, hrest⟩

end WrittenCertificate

end KeyPool
