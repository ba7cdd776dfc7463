import KeyPool.Certificate.NameText

/-!
The labels that the program writes names with: those of the attributes of directories and pilots, and
of the few other identifiers that stand in names.
-/

namespace KeyPool.AttributeLabels

/-- Labels of the types 2.5.4.n. -/
def directory : List (Nat × String) :=
  [(0, "OBJECTCLASS"), (1, "ALIASEDOBJECTNAME"), (2, "KNOWLEDGEINFORMATION"), (3, "CN"),
   (4, "SN"), (5, "SERIALNUMBER"), (6, "C"), (7, "L"), (8, "ST"), (9, "STREET"), (10, "O"),
   (11, "OU"), (12, "TITLE"), (13, "DESCRIPTION"), (14, "SEARCHGUIDE"), (15, "BUSINESSCATEGORY"),
   (16, "POSTALADDRESS"), (17, "POSTALCODE"), (18, "POSTOFFICEBOX"),
   (19, "PHYSICALDELIVERYOFFICENAME"), (20, "TELEPHONENUMBER"), (21, "TELEXNUMBER"),
   (22, "TELETEXTERMINALIDENTIFIER"), (23, "FACSIMILETELEPHONENUMBER"), (24, "X121ADDRESS"),
   (25, "INTERNATIONALISDNNUMBER"), (26, "REGISTEREDADDRESS"), (27, "DESTINATIONINDICATOR"),
   (28, "PREFERREDDELIVERYMETHOD"), (29, "PRESENTATIONADDRESS"),
   (30, "SUPPORTEDAPPLICATIONCONTEXT"), (31, "MEMBER"), (32, "OWNER"), (33, "ROLEOCCUPANT"),
   (34, "SEEALSO"), (35, "USERPASSWORD"), (36, "USERCERTIFICATE"), (37, "CACERTIFICATE"),
   (38, "AUTHORITYREVOCATIONLIST"), (39, "CERTIFICATEREVOCATIONLIST"),
   (40, "CROSSCERTIFICATEPAIR"), (41, "NAME"), (42, "GIVENNAME"), (43, "INITIALS"),
   (44, "GENERATIONQUALIFIER"), (45, "X500UNIQUEIDENTIFIER"), (46, "DNQUALIFIER"),
   (47, "ENHANCEDSEARCHGUIDE"), (48, "PROTOCOLINFORMATION"), (49, "DISTINGUISHEDNAME"),
   (50, "UNIQUEMEMBER"), (51, "HOUSEIDENTIFIER"), (52, "SUPPORTEDALGORITHMS"),
   (53, "DELTAREVOCATIONLIST"), (54, "DMDNAME"), (65, "PSEUDONYM"), (72, "ID-AT-ROLE")]

/-- Labels of the types 0.9.2342.19200300.100.1.n. -/
def pilot : List (Nat × String) :=
  [(1, "UID"), (2, "TEXTENCODEDORADDRESS"), (3, "MAIL"), (25, "DC"), (60, "JPEGPHOTO")]

/-- Labels of types outside the two families, by their octets. -/
def others : List (Bytes × String) :=
  [([0x2a, 0x86, 0x48, 0x86, 0xf7, 0x0d, 0x01, 0x09, 0x01], "EMAIL"),
   ([0x2a, 0x86, 0x48, 0x86, 0xf7, 0x0d, 0x01, 0x09, 0x0e], "ID-EXTENSIONREQ"),
   ([0x55, 0x1d, 0x0f], "ID-CE-KEYUSAGE"), ([0x55, 0x1d, 0x13], "ID-CE-BASICCONSTRAINTS"),
   ([0x2b, 0x06, 0x01, 0x05, 0x05, 0x07, 0x03, 0x01], "ID-KP-SERVERAUTH"),
   ([0x2b, 0x65, 0x70], "ID-ED25519"),
   ([0x2a, 0x86, 0x48, 0xce, 0x3d, 0x04, 0x03, 0x02], "ECDSA-WITH-SHA256"),
   ([0x60, 0x86, 0x48, 0x01, 0x65, 0x03, 0x04, 0x02, 0x01], "ID-SHA256"),
   ([0x2a, 0x86, 0x48, 0x86, 0xf7, 0x0d, 0x01, 0x01, 0x01], "RSAENCRYPTION")]

def known? (type : Der.Oid) : Option String :=
  match type.octets with
  | [0x55, 0x04, n] => directory.lookup n.toNat
  | [0x09, 0x92, 0x26, 0x89, 0x93, 0xf2, 0x2c, 0x64, 0x01, n] => pilot.lookup n.toNat
  | octets => others.lookup octets

theorem plain_of_lookup {α : Type} [BEq α] [LawfulBEq α] {table : List (α × String)} {a : α}
    {label : String} (hplain : table.all (·.2.toList.all (· ∉ NameAttribute.joints)) = true)
    (h : table.lookup a = some label) : ∀ c ∈ label.toList, c ∉ NameAttribute.joints := by
  obtain ⟨before, after, rfl, -⟩ := List.lookup_eq_some_iff.mp h
  have hlabel := List.all_eq_true.mp hplain (a, label) (by simp)
  intro c hc
  exact of_decide_eq_true (List.all_eq_true.mp hlabel c hc)

theorem plain_known? {type : Der.Oid} {label : String} (h : known? type = some label) :
    ∀ c ∈ label.toList, c ∉ NameAttribute.joints := by
  unfold known? at h
  split at h
  · exact plain_of_lookup (by decide +kernel) h
  · exact plain_of_lookup (by decide +kernel) h
  · exact plain_of_lookup (by decide +kernel) h

instance : AttributeLabels := ⟨known?, plain_known?⟩

end KeyPool.AttributeLabels
