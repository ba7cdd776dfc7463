import KeyPool.Json.Records
import KeyPool.Proofs.Json.Formats

/-! The JSON text of what the pool keeps reads back as the same value, times with their offsets, and
whatever is read from some text has such a text of its own. -/

namespace KeyPool

open Json (Format HasForm encode decode)

/-- Values of a type against their JSON texts, of which the values of one kind have one. What is read
from a text, however it is written there, has a text of its own, which is the normal form of the first. -/
structure RoundTripSpec (α : Type) [HasForm α] (HasText : α → Prop) : Prop where
  written : ∀ a : α, HasText a → ∃ text, encode a = some text ∧ decode text = .ok a
  read : ∀ (text : String) (a : α), decode text = .ok a → HasText a
  normal : ∀ (text : String) (a : α), decode text = .ok a →
    ∃ again, encode a = some again ∧ decode again = .ok a

namespace Json

variable {α : Type} [HasForm α] {a : α}

theorem decode_of_roundTrips (h : (HasForm.format α).RoundTrips (HasForm.toValue a))
    (hvalue : HasForm.ofValue? (HasForm.toValue a) = some a) :
    ∃ text, encode a = some text ∧ decode text = .ok a := by
  obtain ⟨text, htext⟩ := h
  refine ⟨String.ofList text, ?_, ?_⟩
  · rw [encode, htext.written, Option.map_some]
  · have hread := htext.read [] ends_nil
    rw [List.append_nil] at hread
    have hrun : (HasForm.format α).read.run (String.ofList text) = .ok (HasForm.toValue a) := by
      rw [Reader.run, String.toList_ofList, hread]
      rfl
    rw [decode, hrun]
    simp only [hvalue]

theorem yields_of_decode {text : String} (h : decode text = .ok a) :
    ∃ v, (HasForm.format α).Yields v ∧ HasForm.ofValue? v = some a := by
  unfold decode at h
  cases hrun : (HasForm.format α).read.run text with
  | error e =>
      rw [hrun] at h
      cases h
  | ok v =>
      rw [hrun] at h
      refine ⟨v, ?_, ?_⟩
      · unfold Reader.run at hrun
        split at hrun
        · cases hrun
        · rename_i rest hread
          split at hrun
          · cases hrun
            exact .inr ⟨_, rest, hread⟩
          · cases hrun
      · dsimp only at h
        cases hvalue : (HasForm.ofValue? v : Option α) with
        | none =>
            rw [hvalue] at h
            cases h
        | some b =>
            rw [hvalue] at h
            cases h
            rfl

/-- A type keeps its values if the values with a text round-trip in its format, and only such values are
made of what the format yields. -/
theorem roundTripSpec {HasText : α → Prop}
    (hwritten : ∀ a : α, HasText a → (HasForm.format α).RoundTrips (HasForm.toValue a) ∧
      HasForm.ofValue? (HasForm.toValue a) = some a)
    (hread : ∀ (v : Value) (a : α), (HasForm.format α).Yields v → HasForm.ofValue? v = some a →
      HasText a) : RoundTripSpec α HasText := by
  have hback (a : α) (ha : HasText a) := decode_of_roundTrips (hwritten a ha).1 (hwritten a ha).2
  have htext (text : String) (a : α) (h : decode text = .ok a) : HasText a := by
    obtain ⟨v, hv, ha⟩ := yields_of_decode h
    exact hread v a hv ha
  exact ⟨hback, htext, fun text a h => hback a (htext text a h)⟩

end Json

open Json.Format (integer_roundTrips integer_yields time_roundTrips time_yields text_roundTrips
  text_yields bytes_roundTrips bytes_yields null_roundTrips optional_roundTrips optional_yields
  record_roundTrips record_yields)

namespace Assignment

def HasText (a : Assignment) : Prop := a.assignedAt.HasRfc3339

variable {a : Assignment}

theorem int32_roundTrips (n : Int32) :
    (Json.Format.integer (-2147483648) 2147483647).RoundTrips (.integer n.toInt) := by
  have hlow := n.le_toInt
  have hhigh := n.toInt_lt
  exact integer_roundTrips (by omega) (by omega)

theorem HasText.roundTrips (h : a.HasText) : format.RoundTrips a.toValue :=
  record_roundTrips (by decide) <|
    .cons (int32_roundTrips _) <| .cons (int32_roundTrips _) <| .cons (time_roundTrips h) .nil

theorem ofValue?_toValue (a : Assignment) : ofValue? a.toValue = some a := by
  simp only [toValue, ofValue?, Int32.ofInt_toInt]

theorem hasText_of_yields {v : Json.Value} (h : format.Yields v) (ha : ofValue? v = some a) :
    a.HasText := by
  obtain ⟨values, rfl, hvalues⟩ := record_yields h
  obtain _ | ⟨hclient, _ | ⟨hirpc, _ | ⟨hassignedAt, ⟨⟩⟩⟩⟩ := hvalues
  obtain ⟨_, rfl, -⟩ := integer_yields hclient
  obtain ⟨_, rfl, -⟩ := integer_yields hirpc
  obtain ⟨t, rfl, ht⟩ := time_yields hassignedAt
  cases ha
  exact ht

end Assignment

namespace BadWindow

/-- The windows that have a JSON text. -/
structure HasText (window : BadWindow) : Prop where
  start : window.start.HasRfc3339
  stop : window.stop.HasRfc3339

variable {window : BadWindow}

theorem HasText.roundTrips (h : window.HasText) : format.RoundTrips window.toValue :=
  record_roundTrips (by decide) <|
    .cons (time_roundTrips h.start) <| .cons (time_roundTrips h.stop) .nil

theorem hasText_of_yields {v : Json.Value} (h : format.Yields v) (hwindow : ofValue? v = some window) :
    window.HasText := by
  obtain ⟨values, rfl, hvalues⟩ := record_yields h
  obtain _ | ⟨hstart, _ | ⟨hstop, ⟨⟩⟩⟩ := hvalues
  obtain ⟨t, rfl, ht⟩ := time_yields hstart
  obtain ⟨u, rfl, hu⟩ := time_yields hstop
  cases hwindow
  exact ⟨ht, hu⟩

end BadWindow

namespace BadWindowRecord

def HasText (record : BadWindowRecord) : Prop := record.window.HasText

variable {record : BadWindowRecord}

theorem HasText.roundTrips (h : record.HasText) : format.RoundTrips record.toValue := by
  have hversion := record.version.toNat_lt
  exact record_roundTrips (by decide) <|
    .cons (BadWindow.HasText.roundTrips h) <| .cons (integer_roundTrips (by omega) (by omega)) .nil

theorem ofValue?_toValue (record : BadWindowRecord) : ofValue? record.toValue = some record := by
  have hsmall : ((record.version.toNat : Int) % 2 ^ 64).toNat = record.version.toNat := by
    have hlt := record.version.toNat_lt
    omega
  have hversion : UInt64.ofInt record.version.toNat = record.version := by
    rw [UInt64.ofInt, hsmall, UInt64.ofNat_toNat]
  simp only [toValue, ofValue?, BadWindow.toValue, BadWindow.ofValue?, Option.map_some, hversion]

theorem hasText_of_yields {v : Json.Value} (h : format.Yields v) (hrecord : ofValue? v = some record) :
    record.HasText := by
  obtain ⟨values, rfl, hvalues⟩ := record_yields h
  obtain _ | ⟨hwindow, _ | ⟨hversion, ⟨⟩⟩⟩ := hvalues
  obtain ⟨_, rfl, -⟩ := integer_yields hversion
  obtain ⟨_, hof, rfl⟩ := Option.map_eq_some_iff.mp hrecord
  exact BadWindow.hasText_of_yields hwindow hof

end BadWindowRecord

namespace CertificateInfo

/-- The contents of certificates that have a JSON text. -/
structure HasText (info : CertificateInfo) : Prop where
  notBefore : info.notBefore.HasRfc3339
  notAfter : info.notAfter.HasRfc3339

variable {info : CertificateInfo}

theorem HasText.roundTrips (h : info.HasText) : format.RoundTrips info.toValue :=
  record_roundTrips (by decide) <|
    .cons (text_roundTrips _) <| .cons (text_roundTrips _) <| .cons (text_roundTrips _) <|
    .cons (time_roundTrips h.notBefore) <| .cons (time_roundTrips h.notAfter) <|
    .cons (bytes_roundTrips _) <| .cons (text_roundTrips _) .nil

theorem hasText_of_yields {v : Json.Value} (h : format.Yields v) (hinfo : ofValue? v = some info) :
    info.HasText := by
  obtain ⟨values, rfl, hvalues⟩ := record_yields h
  obtain _ | ⟨hserialNumber, _ | ⟨hsubject, _ | ⟨hissuer, _ | ⟨hnotBefore, _ | ⟨hnotAfter,
    _ | ⟨hpublicKey, _ | ⟨halgorithm, ⟨⟩⟩⟩⟩⟩⟩⟩⟩ := hvalues
  obtain ⟨_, rfl⟩ := text_yields hserialNumber
  obtain ⟨_, rfl⟩ := text_yields hsubject
  obtain ⟨_, rfl⟩ := text_yields hissuer
  obtain ⟨t, rfl, ht⟩ := time_yields hnotBefore
  obtain ⟨u, rfl, hu⟩ := time_yields hnotAfter
  obtain ⟨_, rfl⟩ := bytes_yields hpublicKey
  obtain ⟨_, rfl⟩ := text_yields halgorithm
  cases hinfo
  exact ⟨ht, hu⟩

end CertificateInfo

namespace AttestationKey

/-- The keys that have a JSON text: the row of one is a number of sixty-four bits, if it is known. -/
structure HasText (key : AttestationKey) : Prop where
  id : ∀ id ∈ key.id, -9223372036854775808 ≤ id ∧ id ≤ 9223372036854775807
  expiration : key.expiration.HasRfc3339
  assignment : ∀ a ∈ key.assignment, a.HasText

variable {key : AttestationKey}

theorem idValue_roundTrips {id : Option Int}
    (h : ∀ n ∈ id, -9223372036854775808 ≤ n ∧ n ≤ 9223372036854775807) :
    (Json.Format.optional (.integer (-9223372036854775808) 9223372036854775807)).RoundTrips
      (idValue id) := by
  cases id with
  | none => exact null_roundTrips
  | some n =>
      have hn := h n rfl
      exact optional_roundTrips (integer_roundTrips hn (by omega)) (fun hnull => nomatch hnull)

theorem assignmentValue_roundTrips {assignment : Option Assignment}
    (h : ∀ a ∈ assignment, a.HasText) :
    (Json.Format.optional Assignment.format).RoundTrips (assignmentValue assignment) := by
  cases assignment with
  | none => exact null_roundTrips
  | some a => exact optional_roundTrips (h a rfl).roundTrips (fun hnull => nomatch hnull)

theorem HasText.roundTrips (h : key.HasText) : format.RoundTrips key.toValue :=
  record_roundTrips (by decide) <|
    .cons (idValue_roundTrips h.id) <| .cons (bytes_roundTrips _) <| .cons (text_roundTrips _) <|
    .cons (bytes_roundTrips _) <| .cons (bytes_roundTrips _) <|
    .cons (time_roundTrips h.expiration) <| .cons (assignmentValue_roundTrips h.assignment) .nil

theorem ofIdValue?_idValue (id : Option Int) : ofIdValue? (idValue id) = some id := by
  cases id <;> rfl

theorem ofAssignmentValue?_assignmentValue (assignment : Option Assignment) :
    ofAssignmentValue? (assignmentValue assignment) = some assignment := by
  cases assignment with
  | none => rfl
  | some a => exact congrArg (Option.map some) a.ofValue?_toValue

theorem ofValue?_toValue (key : AttestationKey) : ofValue? key.toValue = some key := by
  simp [toValue, ofValue?, ofIdValue?_idValue, ofAssignmentValue?_assignmentValue]

theorem ofIdValue?_of_yields {v : Json.Value} {id : Option Int}
    (h : (Json.Format.optional (.integer (-9223372036854775808) 9223372036854775807)).Yields v)
    (hid : ofIdValue? v = some id) :
    ∀ n ∈ id, -9223372036854775808 ≤ n ∧ n ≤ 9223372036854775807 := by
  rcases optional_yields h with rfl | h
  · cases hid
    exact fun _ hn => nomatch hn
  · obtain ⟨n, rfl, hn⟩ := integer_yields h
    cases hid
    rintro _ ⟨⟩
    exact hn

theorem ofAssignmentValue?_of_yields {v : Json.Value} {assignment : Option Assignment}
    (h : (Json.Format.optional Assignment.format).Yields v)
    (hassignment : ofAssignmentValue? v = some assignment) : ∀ a ∈ assignment, a.HasText := by
  rcases optional_yields h with rfl | h
  · cases hassignment
    exact fun _ ha => nomatch ha
  · obtain ⟨values, rfl, -⟩ := record_yields h
    obtain ⟨a, ha, rfl⟩ := Option.map_eq_some_iff.mp hassignment
    rintro _ ⟨⟩
    exact Assignment.hasText_of_yields h ha

theorem hasText_of_yields {v : Json.Value} (h : format.Yields v) (hkey : ofValue? v = some key) :
    key.HasText := by
  obtain ⟨values, rfl, hvalues⟩ := record_yields h
  obtain _ | ⟨hid, _ | ⟨hkeyBlob, _ | ⟨hcomponent, _ | ⟨hpublicKey, _ | ⟨hchain, _ | ⟨hexpiration,
    _ | ⟨hassignment, ⟨⟩⟩⟩⟩⟩⟩⟩⟩ := hvalues
  obtain ⟨_, rfl⟩ := bytes_yields hkeyBlob
  obtain ⟨_, rfl⟩ := text_yields hcomponent
  obtain ⟨_, rfl⟩ := bytes_yields hpublicKey
  obtain ⟨_, rfl⟩ := bytes_yields hchain
  obtain ⟨t, rfl, ht⟩ := time_yields hexpiration
  obtain ⟨id, hofId, hkey⟩ := Option.bind_eq_some_iff.mp hkey
  obtain ⟨assignment, hofAssignment, hkey⟩ := Option.bind_eq_some_iff.mp hkey
  cases hkey
  exact ⟨ofIdValue?_of_yields hid hofId, ht, ofAssignmentValue?_of_yields hassignment hofAssignment⟩

end AttestationKey

/-! ## All that is kept -/

/-- Whatever the pool keeps is kept by its JSON text, and what is read from any JSON text has one. -/
theorem json_round_trip_spec :
    RoundTripSpec AttestationKey AttestationKey.HasText ∧
    RoundTripSpec Assignment Assignment.HasText ∧
    RoundTripSpec BadWindow BadWindow.HasText ∧
    RoundTripSpec BadWindowRecord BadWindowRecord.HasText ∧
    RoundTripSpec CertificateInfo CertificateInfo.HasText := by
  refine ⟨?_, ?_, ?_, ?_, ?_⟩
  · exact Json.roundTripSpec (fun key h => ⟨h.roundTrips, key.ofValue?_toValue⟩)
      (fun _ _ => AttestationKey.hasText_of_yields)
  · exact Json.roundTripSpec (fun a h => ⟨Assignment.HasText.roundTrips h, a.ofValue?_toValue⟩)
      (fun _ _ => Assignment.hasText_of_yields)
  · exact Json.roundTripSpec (fun _ h => ⟨h.roundTrips, rfl⟩) (fun _ _ => BadWindow.hasText_of_yields)
  · exact Json.roundTripSpec
      (fun record h => ⟨BadWindowRecord.HasText.roundTrips h, record.ofValue?_toValue⟩)
      (fun _ _ => BadWindowRecord.hasText_of_yields)
  · exact Json.roundTripSpec (fun _ h => ⟨h.roundTrips, rfl⟩)
      (fun _ _ => CertificateInfo.hasText_of_yields)

end KeyPool
