import KeyPool.Proofs.Json.Reading
import KeyPool.Proofs.Time.Texts
import Mathlib.Data.List.Forall2

/-! What a format writes it reads back, whatever may follow a value: shown of each kind of format from
what is shown of the formats inside it. And whatever is read by a format is a value of its kind. -/

namespace KeyPool.Json

namespace Format

open Reader (bind_of_ok map_of_ok peek_cons isBlank)

variable {f : Format} {v : Value}

/-- A text that a value is written as, and is read back from. By its first character it can be told from
a closing bracket, and from `null` unless it is that. -/
structure ReadsBack (f : Format) (v : Value) (text : List Char) : Prop where
  written : f.write v = some text
  head : ∃ c tail, text = c :: tail ∧ isBlank c = false ∧ c ∉ [',', ']', '}'] ∧ (c = 'n' → v = .null)
  read : ∀ rest, Ends rest → f.read (text ++ rest) = .ok (v, rest)

def RoundTrips (f : Format) (v : Value) : Prop := ∃ text, f.ReadsBack v text

/-- A value that reading may give for a field, be it because the field is left out. -/
def Yields (f : Format) (v : Value) : Prop :=
  f.absent = some v ∨ ∃ cs rest, f.read cs = .ok (v, rest)

/-! ## Integers -/

theorem plain_digit {c : Char} (hc : c.isDigit = true) :
    isBlank c = false ∧ c ∉ [',', ']', '}'] ∧ c ≠ 'n' ∧ c ≠ '-' := by
  have hnot : ∀ d ∈ [' ', '\n', '\t', '\r', ',', ']', '}', 'n', '-'], d.isDigit = false := by simp
  have hne : ∀ d ∈ [' ', '\n', '\t', '\r', ',', ']', '}', 'n', '-'], c ≠ d := by
    rintro d hd rfl
    rw [hnot c hd] at hc
    cases hc
  simp only [List.forall_mem_cons, List.not_mem_nil, false_implies, implies_true, and_true] at hne
  simp [isBlank, hne]

/-- The digits of a number, behind a sign if it is negative, are read as the integer that it tells. -/
theorem integer_read {low high n : Int} (negative : Bool) {m : Nat} (hm : m < 18446744073709551616)
    (htold : (Numeral.mk negative m 0 true).integer? = some n) (h : low ≤ n ∧ n ≤ high)
    {rest : List Char} (hrest : Ends rest) :
    (integer low high).read ((if negative then ['-'] else []) ++ Nat.toDigits 10 m ++ rest) =
      .ok (.integer n, rest) := by
  have hread := Reader.numeral_toDigits negative hm (by rw [htold]; rfl) hrest
  simp only [integer]
  cases negative with
  | false =>
      obtain ⟨first, others, hdigits, hall, -⟩ := Numeral.exists_toDigits m
      obtain ⟨hblank, -, -, hsign⟩ := plain_digit (hall first List.mem_cons_self)
      have hcond : first = '-' ∨ first.isDigit = true := .inr (hall first List.mem_cons_self)
      rw [if_neg Bool.false_ne_true, List.nil_append]
      rw [hdigits, List.cons_append] at hread ⊢
      rw [bind_of_ok (peek_cons hblank), if_pos hcond, if_neg hsign, decide_eq_false hsign,
        bind_of_ok hread, htold]
      simp only
      rw [if_pos h]
      rfl
  | true =>
      rw [if_pos rfl, List.singleton_append, List.cons_append, bind_of_ok (peek_cons (by decide)),
        if_pos (.inl rfl), if_pos rfl, bind_of_ok Reader.discard_char_cons, decide_eq_true rfl,
        bind_of_ok hread, htold]
      simp only
      rw [if_pos h]
      rfl

theorem integer_roundTrips {low high n : Int} (h : low ≤ n ∧ n ≤ high)
    (hfits : -9223372036854775808 ≤ n ∧ n < 18446744073709551616) :
    (integer low high).RoundTrips (.integer n) := by
  cases n with
  | ofNat n =>
      obtain ⟨first, others, hdigits, hall, -⟩ := Numeral.exists_toDigits n
      obtain ⟨hblank, hend, hnull, -⟩ := plain_digit (hall first List.mem_cons_self)
      exact ⟨Nat.toDigits 10 n, congrArg some Nat.toList_repr,
        ⟨first, others, hdigits, hblank, hend, fun hn => absurd hn hnull⟩,
        fun rest hrest => integer_read false (Int.ofNat_lt.mp hfits.2) rfl h hrest⟩
  | negSucc n =>
      have htold : (Numeral.mk true (n + 1) 0 true).integer? = some (Int.negSucc n) := by
        have hrange : 1 ≤ n + 1 ∧ n + 1 ≤ 9223372036854775808 := by omega
        simp only [Numeral.integer?, hrange]
        rfl
      have htext : (toString (Int.negSucc n)).toList = '-' :: Nat.toDigits 10 (n + 1) := by
        change ("-" ++ Nat.repr (n + 1)).toList = _
        rw [String.toList_append, Nat.toList_repr]
        rfl
      exact ⟨'-' :: Nat.toDigits 10 (n + 1), congrArg some htext,
        ⟨'-', _, rfl, by decide, by decide, fun h => absurd h (by decide)⟩,
        fun rest hrest => integer_read true (by omega) htold h hrest⟩

theorem integer_yields {low high : Int} (h : (integer low high).Yields v) :
    ∃ n, v = .integer n ∧ low ≤ n ∧ n ≤ high := by
  rcases h with h | ⟨cs, rest, h⟩
  · cases h
  · simp only [integer] at h
    obtain ⟨c, r, -, h⟩ := Reader.bind_eq_ok.mp h
    split at h
    · split at h
      on_goal 1 => obtain ⟨_, r, -, h⟩ := Reader.bind_eq_ok.mp h
      all_goals
        obtain ⟨m, r', -, h⟩ := Reader.bind_eq_ok.mp h
        cases hm : m.integer? with
        | none =>
            rw [hm] at h
            exact absurd h Reader.throw_ne_ok
        | some n =>
            rw [hm] at h
            dsimp only at h
            split at h
            · obtain ⟨rfl, -⟩ := Reader.pure_eq_ok.mp h
              exact ⟨_, rfl, ‹_›⟩
            · exact absurd h Reader.throw_ne_ok
    · exact absurd h Reader.otherKind_ne_ok

/-! ## Strings -/

theorem readString_quoted (s : String) (rest : List Char) :
    readString (quoted s ++ rest) = .ok (s, rest) := by
  rw [quoted, List.cons_append, List.cons_append, List.append_assoc, readString,
    bind_of_ok (peek_cons (by decide)), if_pos rfl, bind_of_ok Reader.discard_char_cons]
  exact Reader.string_quoted s

theorem quoted_head (s : String) (v : Value) : ∃ c tail, quoted s = c :: tail ∧ isBlank c = false ∧
    c ∉ [',', ']', '}'] ∧ (c = 'n' → v = .null) :=
  ⟨'"', _, rfl, by decide, by decide, fun h => absurd h (by decide)⟩

theorem text_roundTrips (s : String) : Format.text.RoundTrips (.text s) :=
  ⟨quoted s, rfl, quoted_head s _, fun rest _ => map_of_ok (readString_quoted s rest)⟩

theorem text_yields (h : Format.text.Yields v) : ∃ s, v = .text s := by
  rcases h with h | ⟨cs, rest, h⟩
  · cases h
  · obtain ⟨s, -, rfl⟩ := Reader.map_eq_ok.mp h
    exact ⟨s, rfl⟩

theorem time_roundTrips {t : Timestamp} (h : t.HasRfc3339) : time.RoundTrips (.time t) := by
  obtain ⟨s, hs, -⟩ := h.toRfc3339?
  have hback := Timestamp.ofRfc3339?_toRfc3339? hs
  refine ⟨quoted s, ?_, quoted_head s _, ?_⟩
  · simp only [time, hs, Option.map_some]
  · intro rest _
    simp only [time]
    rw [bind_of_ok (readString_quoted s rest), hback]
    rfl

theorem time_yields (h : time.Yields v) : ∃ t, v = .time t ∧ t.HasRfc3339 := by
  rcases h with h | ⟨cs, rest, h⟩
  · cases h
  · simp only [time] at h
    obtain ⟨s, r, -, h⟩ := Reader.bind_eq_ok.mp h
    cases ht : Timestamp.ofRfc3339? s with
    | none =>
        rw [ht] at h
        exact absurd h Reader.throw_ne_ok
    | some t =>
        rw [ht] at h
        obtain ⟨rfl, -⟩ := Reader.pure_eq_ok.mp h
        exact ⟨t, rfl, Timestamp.hasRfc3339_of_read ht⟩

/-! ## One after another -/

/-- Texts with commas between them, and one before the first if others stand before. -/
def joined (first : Bool) (texts : List (List Char)) : List Char :=
  if first then commaSeparated texts else texts.flatMap (',' :: ·)

theorem joined_cons (first : Bool) (item : List Char) (texts : List (List Char)) :
    joined first (item :: texts) = (if first then [] else [',']) ++ item ++ joined false texts := by
  cases first with
  | false => simp [joined]
  | true =>
      induction texts generalizing item with
      | nil => simp [joined, commaSeparated]
      | cons next texts ih =>
          have hnext := ih next
          simp only [joined, ite_true] at hnext
          simp [joined, commaSeparated, hnext]

/-- Behind the last of joined texts comes a comma or what closes them. -/
theorem ends_joined {closer : Char} (hcloser : closer ∈ [',', ']', '}']) (texts : List (List Char))
    (rest : List Char) : Ends (joined false texts ++ closer :: rest) := by
  cases texts with
  | nil => exact ends_cons hcloser
  | cons item texts => exact ends_cons (by decide)

theorem another_closer {closer : Char} (hcloser : isBlank closer = false) (first : Bool)
    (rest : List Char) :
    another closer first (joined first [] ++ closer :: rest) = .ok (false, closer :: rest) := by
  have hnil : joined first [] = [] := by cases first <;> rfl
  rw [hnil, List.nil_append, another, bind_of_ok (peek_cons hcloser), if_pos rfl]
  rfl

theorem another_item {closer c : Char} {item tail : List Char}
    (hclosing : isBlank closer = false ∧ closer ≠ ',') (first : Bool) (texts : List (List Char))
    (rest : List Char) (hitem : item = c :: tail) (hc : isBlank c = false ∧ c ≠ closer) :
    another closer first (joined first (item :: texts) ++ rest) =
      .ok (true, item ++ (joined false texts ++ rest)) := by
  have hblank : isBlank ',' = false := by decide
  subst hitem
  rw [joined_cons]
  cases first with
  | true =>
      simp only [ite_true, List.nil_append, List.cons_append, List.append_assoc]
      rw [another, bind_of_ok (peek_cons hc.1), if_neg hc.2, if_pos rfl]
      rfl
  | false =>
      simp only [Bool.false_eq_true, ite_false, List.cons_append, List.nil_append, List.append_assoc]
      rw [another, bind_of_ok (peek_cons hblank), if_neg hclosing.2.symm, if_neg Bool.false_ne_true,
        if_pos rfl, bind_of_ok Reader.discard_char_cons, bind_of_ok (peek_cons hc.1), if_neg hc.2]
      rfl

/-! ## Arrays -/

theorem loop_itemStep {item : Format} {values : List Value} {texts : List (List Char)}
    (h : List.Forall₂ item.ReadsBack values texts) (read : List Value) (rest : List Char) :
    Reader.loop (itemStep item.read) read (joined read.isEmpty texts ++ ']' :: rest) =
      .ok (read.reverse ++ values, ']' :: rest) := by
  induction h generalizing read with
  | nil =>
      apply Reader.loop_inr
      rw [itemStep, bind_of_ok (another_closer (by decide) _ _), if_neg Bool.false_ne_true,
        List.append_nil]
      rfl
  | @cons v text values texts hitem _ ih =>
      obtain ⟨c, tail, htext, hblank, hend, -⟩ := hitem.head
      have hclosing : c ≠ ']' := fun hc => hend (by simp [hc])
      have hstep : itemStep item.read read (joined read.isEmpty (text :: texts) ++ ']' :: rest) =
          .ok (.inl (v :: read), joined false texts ++ ']' :: rest) := by
        rw [itemStep, bind_of_ok (another_item (by decide) _ _ _ htext ⟨hblank, hclosing⟩), if_pos rfl,
          bind_of_ok (hitem.read _ (ends_joined (by decide) texts rest))]
        rfl
      have hless : (joined false texts ++ ']' :: rest).length <
          (joined read.isEmpty (text :: texts) ++ ']' :: rest).length := by
        rw [joined_cons, htext]
        simp only [List.length_append, List.length_cons]
        omega
      have hlater : Reader.loop (itemStep item.read) (v :: read) (joined false texts ++ ']' :: rest) =
          .ok ((v :: read).reverse ++ values, ']' :: rest) := ih (v :: read)
      rw [Reader.loop_inl hstep hless, hlater]
      simp

theorem readItems_joined {item : Format} {values : List Value} {texts : List (List Char)}
    (h : List.Forall₂ item.ReadsBack values texts) (rest : List Char) :
    readItems item.read ('[' :: commaSeparated texts ++ [']'] ++ rest) = .ok (values, rest) := by
  have hitems := loop_itemStep h [] rest
  simp only [List.isEmpty_nil, joined, ite_true, List.reverse_nil, List.nil_append] at hitems
  simp only [List.cons_append, List.append_assoc, List.nil_append]
  rw [readItems, bind_of_ok (peek_cons (by decide)), if_pos rfl, bind_of_ok Reader.discard_char_cons,
    bind_of_ok hitems, bind_of_ok (Reader.symbol_cons (by decide))]
  rfl

theorem octet_readsBack (x : UInt8) :
    octet.ReadsBack (.integer x.toNat) (toString x.toNat).toList := by
  have hx := x.toNat_lt
  obtain ⟨text, htext⟩ : octet.RoundTrips (.integer x.toNat) :=
    integer_roundTrips (by omega) (by omega)
  have hsame : (toString (x.toNat : Int)).toList = text := Option.some.inj htext.written
  rw [← hsame] at htext
  exact htext

theorem bytes_roundTrips (b : Bytes) : bytes.RoundTrips (.bytes b) := by
  have hitems : List.Forall₂ octet.ReadsBack (b.map fun x => .integer x.toNat)
      (b.map fun x => (toString x.toNat).toList) := by
    rw [List.forall₂_map_left_iff, List.forall₂_map_right_iff]
    exact List.forall₂_same.mpr fun x _ => octet_readsBack x
  refine ⟨_, rfl, ⟨'[', _, rfl, by decide, by decide, fun h => absurd h (by decide)⟩, ?_⟩
  intro rest _
  have hoctets : (b.map fun x => Value.integer x.toNat).map octetOf = b := by
    rw [List.map_map]
    exact List.map_id'' (fun x => UInt8.ofNat_toNat) b
  have hread := map_of_ok (f := fun items => Value.bytes (items.map octetOf))
    (readItems_joined hitems rest)
  rw [hoctets] at hread
  exact hread

theorem bytes_yields (h : bytes.Yields v) : ∃ b, v = .bytes b := by
  rcases h with h | ⟨cs, rest, h⟩
  · cases h
  · obtain ⟨items, -, rfl⟩ := Reader.map_eq_ok.mp h
    exact ⟨_, rfl⟩

/-! ## Values that may be missing -/

theorem null_roundTrips : (optional f).RoundTrips .null := by
  refine ⟨_, rfl, ⟨'n', _, rfl, by decide, by decide, fun _ => rfl⟩, ?_⟩
  intro rest _
  have hword : Reader.word "null".toList ("null".toList ++ rest) = .ok ((), rest) := rfl
  have hpeek : Reader.peek ("null".toList ++ rest) = .ok ('n', "null".toList ++ rest) :=
    peek_cons (by decide)
  simp only [optional]
  rw [bind_of_ok hpeek, if_pos rfl, bind_of_ok hword]
  rfl

theorem optional_roundTrips (h : f.RoundTrips v) (hv : v ≠ .null) : (optional f).RoundTrips v := by
  obtain ⟨text, hwritten, ⟨c, tail, rfl, hblank, hend, hnull⟩, hread⟩ := h
  have hn : ¬ c = 'n' := fun hc => hv (hnull hc)
  refine ⟨c :: tail, ?_, ⟨c, tail, rfl, hblank, hend, hnull⟩, ?_⟩
  · cases v <;> first | exact absurd rfl hv | exact hwritten
  · intro rest hrest
    have hpeek : Reader.peek (c :: tail ++ rest) = .ok (c, c :: tail ++ rest) := peek_cons hblank
    simp only [optional]
    rw [bind_of_ok hpeek, if_neg hn]
    exact hread rest hrest

theorem optional_yields (h : (optional f).Yields v) : v = .null ∨ f.Yields v := by
  rcases h with h | ⟨cs, rest, h⟩
  · exact .inl (Option.some.inj h).symm
  · simp only [optional] at h
    obtain ⟨c, r, -, h⟩ := Reader.bind_eq_ok.mp h
    split at h
    · obtain ⟨_, r', -, h⟩ := Reader.bind_eq_ok.mp h
      exact .inl (Reader.pure_eq_ok.mp h).1.symm
    · exact .inr (.inr ⟨r, rest, h⟩)

/-! ## Records -/

def member (field : Field) (text : List Char) : List Char := quoted field.name ++ ':' :: text

/-- Values of fields with the texts that they are read back from. -/
inductive Written : List Field → List Value → List (List Char) → Prop where
  | nil : Written [] [] []
  | cons {field : Field} {fields : List Field} {v : Value} {values : List Value} {text : List Char}
      {texts : List (List Char)} (hfield : field.format.ReadsBack v text)
      (hfields : Written fields values texts) :
      Written (field :: fields) (v :: values) (member field text :: texts)

theorem exists_written {fields : List Field} {values : List Value}
    (h : List.Forall₂ (fun field v => field.format.RoundTrips v) fields values) :
    ∃ texts, Written fields values texts := by
  induction h with
  | nil => exact ⟨[], .nil⟩
  | cons hfield _ ih =>
      obtain ⟨text, hfield⟩ := hfield
      obtain ⟨texts, hfields⟩ := ih
      exact ⟨_, .cons hfield hfields⟩

theorem Written.writeFields {fields : List Field} {values : List Value} {texts : List (List Char)}
    (h : Written fields values texts) : writeFields fields values = some texts := by
  induction h with
  | nil => rfl
  | cons hfield _ ih =>
      simp only [Format.writeFields, hfield.written, ih, member]
      rfl

theorem position?_append {before after : List Field} {field : Field}
    (h : ∀ other ∈ before, other.name ≠ field.name) :
    position? field.name (before ++ field :: after) = some (before.length, field) := by
  rw [position?, List.zipIdx_append, List.find?_append, List.find?_eq_none.mpr ?_, Option.none_or,
    List.zipIdx_cons, List.find?_cons_of_pos (by simp)]
  · simp
  · rintro ⟨other, i⟩ hother
    simpa using h other (List.fst_mem_of_mem_zipIdx hother)

theorem readMember_member {field : Field} {v : Value} {text : List Char}
    (h : field.format.ReadsBack v text) (slots later : Slots) {rest : List Char} (hrest : Ends rest) :
    readMember (slots ++ none :: later) slots.length field (':' :: text ++ rest) =
      .ok (slots ++ some v :: later, rest) := by
  have hempty : ¬ ((slots ++ none :: later)[slots.length]?.join).isSome = true := by simp
  have hset : (slots ++ none :: later).set slots.length (some v) = slots ++ some v :: later := by simp
  rw [readMember, if_neg hempty, List.cons_append, bind_of_ok (Reader.symbol_cons (by decide)),
    bind_of_ok (h.read rest hrest), hset]
  rfl

theorem memberStep_member {before : List Field} (after : List Field) {field : Field} {v : Value}
    {text : List Char} {slots : Slots} (later : Slots) {first : Bool} {input rest : List Char}
    (hinput : another '}' first input = .ok (true, member field text ++ rest))
    (hname : ∀ other ∈ before, other.name ≠ field.name) (hslots : slots.length = before.length)
    (h : field.format.ReadsBack v text) (hrest : Ends rest) :
    memberStep (before ++ field :: after) (slots ++ none :: later, first) input =
      .ok (.inl (slots ++ some v :: later, false), rest) := by
  have hmember : member field text ++ rest =
      '"' :: (field.name.toList.flatMap escape ++ '"' :: (':' :: text ++ rest)) := by
    simp [member, quoted]
  have hread := readMember_member h slots later hrest
  rw [hslots] at hread
  rw [hmember] at hinput
  rw [memberStep, bind_of_ok hinput, if_pos rfl, bind_of_ok (Reader.symbol_cons (by decide)),
    bind_of_ok (Reader.string_quoted field.name), position?_append hname]
  simp only
  rw [bind_of_ok hread]
  rfl

/-- Fields are read one by one into their slots. -/
theorem loop_memberStep {before after : List Field} {values : List Value}
    {texts : List (List Char)} (h : Written after values texts)
    (hnames : ((before ++ after).map Field.name).Nodup) {slots : Slots}
    (hslots : slots.length = before.length) (first : Bool) (rest : List Char) :
    Reader.loop (memberStep (before ++ after)) (slots ++ after.map (fun _ => none), first)
      (joined first texts ++ '}' :: rest) = .ok (slots ++ values.map some, '}' :: rest) := by
  induction h generalizing before slots first with
  | nil =>
      apply Reader.loop_inr
      rw [memberStep, bind_of_ok (another_closer (by decide) _ _), if_neg Bool.false_ne_true]
      rfl
  | @cons field fields v values text texts hfield _ ih =>
      have hname : ∀ other ∈ before, other.name ≠ field.name := by
        intro other hother
        rw [List.map_append, List.nodup_append] at hnames
        exact hnames.2.2 _ (List.mem_map_of_mem hother) _ (List.mem_map_of_mem List.mem_cons_self)
      have hmember : member field text = '"' :: (member field text).tail := rfl
      have hclosing : isBlank '}' = false ∧ '}' ≠ ',' := by decide
      have hinput := another_item hclosing first texts ('}' :: rest) hmember (by decide)
      have hstep := memberStep_member fields (fields.map fun _ => none) hinput hname hslots hfield
        (ends_joined (by decide) texts rest)
      have hless : (joined false texts ++ '}' :: rest).length <
          (joined first (member field text :: texts) ++ '}' :: rest).length := by
        rw [joined_cons, hmember]
        simp only [List.length_append, List.length_cons]
        omega
      have hnames' : (((before ++ [field]) ++ fields).map Field.name).Nodup := by simpa using hnames
      have hslots' : (slots ++ [some v]).length = (before ++ [field]).length := by simp [hslots]
      have hlater := ih hnames' hslots' false
      simp only [List.append_assoc, List.singleton_append] at hlater
      rw [List.map_cons, Reader.loop_inl hstep hless, hlater]
      simp

/-- Slots that are all filled are the values. -/
theorem complete_some {fields : List Field} {values : List Value} (h : fields.length = values.length) :
    complete fields (values.map some) = some values := by
  induction fields generalizing values with
  | nil =>
      rw [List.length_eq_zero_iff.mp h.symm]
      rfl
  | cons field fields ih =>
      cases values with
      | nil => cases h
      | cons v values =>
          have hrest : complete fields (values.map some) = some values := ih (by simpa using h)
          simp [complete, hrest]

theorem Written.length_eq {fields : List Field} {values : List Value} {texts : List (List Char)}
    (h : Written fields values texts) : fields.length = values.length := by
  induction h with
  | nil => rfl
  | cons _ _ ih => simp [ih]

/-- A record is read back if its fields are, which must have names of their own. -/
theorem record_roundTrips {fields : List Field} {values : List Value}
    (hnames : (fields.map Field.name).Nodup)
    (h : List.Forall₂ (fun field v => field.format.RoundTrips v) fields values) :
    (record fields).RoundTrips (.record values) := by
  obtain ⟨texts, hwritten⟩ := exists_written h
  refine ⟨'{' :: commaSeparated texts ++ ['}'], ?_,
    ⟨'{', _, rfl, by decide, by decide, fun hn => absurd hn (by decide)⟩, ?_⟩
  · simp only [record, hwritten.writeFields, Option.map_some]
  · intro rest _
    have hnone : ((([] : List Field) ++ fields).map Field.name).Nodup := hnames
    have hslots : ([] : Slots).length = ([] : List Field).length := rfl
    have hread := loop_memberStep hwritten hnone hslots true rest
    simp only [List.nil_append, joined, ite_true] at hread
    simp only [List.cons_append, List.append_assoc, List.nil_append, record]
    rw [bind_of_ok (peek_cons (by decide)), if_pos rfl, bind_of_ok Reader.discard_char_cons, readObject,
      bind_of_ok hread, complete_some hwritten.length_eq]
    simp only
    rw [bind_of_ok (Reader.symbol_cons (by decide))]
    rfl

/-- Slots hold what their fields were read as. -/
def Filled (fields : List Field) (slots : Slots) : Prop :=
  ∀ (i : Nat) (field : Field) (v : Value), fields[i]? = some field → slots[i]? = some (some v) →
    field.format.Yields v

theorem position?_eq_some {name : String} {fields : List Field} {i : Nat} {field : Field}
    (h : position? name fields = some (i, field)) : fields[i]? = some field := by
  obtain ⟨⟨found, j⟩, hfound, hpair⟩ := Option.map_eq_some_iff.mp h
  cases hpair
  exact List.mk_mem_zipIdx_iff_getElem?.mp (List.mem_of_find?_eq_some hfound)

theorem readMember_filled {fields : List Field} {slots slots' : Slots} {i : Nat} {field : Field}
    {cs rest : List Char} (hs : Filled fields slots) (hfield : fields[i]? = some field)
    (h : readMember slots i field cs = .ok (slots', rest)) : Filled fields slots' := by
  rw [readMember] at h
  split at h
  · exact absurd h Reader.throw_ne_ok
  · obtain ⟨_, r₁, -, h⟩ := Reader.bind_eq_ok.mp h
    obtain ⟨v, r₂, hread, h⟩ := Reader.bind_eq_ok.mp h
    obtain ⟨rfl, -⟩ := Reader.pure_eq_ok.mp h
    intro j other w hother hw
    by_cases hj : i = j
    · subst hj
      cases hfield.symm.trans hother
      rw [List.getElem?_set_self'] at hw
      obtain ⟨_, -, hsame⟩ := Option.map_eq_some_iff.mp hw
      cases hsame
      exact .inr ⟨_, _, hread⟩
    · rw [List.getElem?_set_ne hj] at hw
      exact hs j other w hother hw

theorem memberStep_filled {fields : List Field} {s : Slots × Bool} {cs rest : List Char}
    {r : Slots × Bool ⊕ Slots} (hs : Filled fields s.1)
    (h : memberStep fields s cs = .ok (r, rest)) :
    Sum.elim (fun s => Filled fields s.1) (Filled fields) r := by
  obtain ⟨slots, first⟩ := s
  rw [memberStep] at h
  obtain ⟨more, r₁, -, h⟩ := Reader.bind_eq_ok.mp h
  split at h
  · obtain ⟨_, r₂, -, h⟩ := Reader.bind_eq_ok.mp h
    obtain ⟨name, r₃, -, h⟩ := Reader.bind_eq_ok.mp h
    cases hposition : position? name fields with
    | none =>
        rw [hposition] at h
        obtain ⟨_, r₄, -, h⟩ := Reader.bind_eq_ok.mp h
        obtain ⟨_, r₅, -, h⟩ := Reader.bind_eq_ok.mp h
        obtain ⟨rfl, -⟩ := Reader.pure_eq_ok.mp h
        exact hs
    | some found =>
        obtain ⟨i, field⟩ := found
        rw [hposition] at h
        obtain ⟨slots', r₄, hmember, h⟩ := Reader.bind_eq_ok.mp h
        obtain ⟨rfl, -⟩ := Reader.pure_eq_ok.mp h
        exact readMember_filled hs (position?_eq_some hposition) hmember
  · obtain ⟨rfl, -⟩ := Reader.pure_eq_ok.mp h
    exact hs

theorem complete_yields {fields : List Field} {slots : Slots} {values : List Value}
    (hslots : Filled fields slots) (h : complete fields slots = some values) :
    List.Forall₂ (fun field v => field.format.Yields v) fields values := by
  induction fields generalizing slots values with
  | nil =>
      cases h
      exact .nil
  | cons field fields ih =>
      rw [complete] at h
      obtain ⟨v, hv, h⟩ := Option.bind_eq_some_iff.mp h
      obtain ⟨others, hothers, h⟩ := Option.bind_eq_some_iff.mp h
      cases h
      refine .cons ?_ (ih ?_ hothers)
      · cases hslot : slots.head?.join with
        | none =>
            rw [hslot] at hv
            exact .inl hv
        | some w =>
            rw [hslot] at hv
            cases hv
            rw [Option.join_eq_some_iff, List.head?_eq_getElem?] at hslot
            exact hslots 0 field v rfl hslot
      · intro i other w hother hw
        rw [List.getElem?_tail] at hw
        exact hslots (i + 1) other w hother hw

theorem readObject_yields {fields : List Field} {cs rest : List Char}
    (h : readObject fields cs = .ok (v, rest)) : ∃ values, v = .record values ∧
      List.Forall₂ (fun field v => field.format.Yields v) fields values := by
  rw [readObject] at h
  obtain ⟨slots, r₁, hslots, h⟩ := Reader.bind_eq_ok.mp h
  have hempty : Filled fields (fields.map fun _ => none) := by
    intro i field v _ hv
    rw [List.getElem?_map] at hv
    obtain ⟨_, -, hnone⟩ := Option.map_eq_some_iff.mp hv
    cases hnone
  have hfilled : Filled fields slots := Reader.loop_keeps
    (P := fun s => Filled fields s.1) (fun _ _ _ _ => memberStep_filled) hempty hslots
  cases hvalues : complete fields slots with
  | none =>
      rw [hvalues] at h
      exact absurd h Reader.throw_ne_ok
  | some values =>
      rw [hvalues] at h
      obtain ⟨_, r₂, -, h⟩ := Reader.bind_eq_ok.mp h
      obtain ⟨rfl, -⟩ := Reader.pure_eq_ok.mp h
      exact ⟨values, rfl, complete_yields hfilled hvalues⟩

theorem readPositional_yields {fields : List Field} {first : Bool} {cs rest : List Char}
    {values : List Value} (h : readPositional first fields cs = .ok (values, rest)) :
    List.Forall₂ (fun field v => field.format.Yields v) fields values := by
  induction fields generalizing first cs values with
  | nil =>
      obtain ⟨rfl, -⟩ := Reader.pure_eq_ok.mp h
      exact .nil
  | cons field fields ih =>
      rw [readPositional] at h
      obtain ⟨more, r₁, -, h⟩ := Reader.bind_eq_ok.mp h
      split at h
      · obtain ⟨v, r₂, hread, h⟩ := Reader.bind_eq_ok.mp h
        obtain ⟨others, r₃, hothers, h⟩ := Reader.bind_eq_ok.mp h
        obtain ⟨rfl, rfl⟩ := Reader.pure_eq_ok.mp h
        exact .cons (.inr ⟨_, _, hread⟩) (ih hothers)
      · exact absurd h Reader.throw_ne_ok

theorem record_yields {fields : List Field} (h : (record fields).Yields v) :
    ∃ values, v = .record values ∧
      List.Forall₂ (fun field v => field.format.Yields v) fields values := by
  rcases h with h | ⟨cs, rest, h⟩
  · cases h
  · simp only [record] at h
    obtain ⟨c, r₁, -, h⟩ := Reader.bind_eq_ok.mp h
    split at h
    · obtain ⟨_, r₂, -, h⟩ := Reader.bind_eq_ok.mp h
      exact readObject_yields h
    · split at h
      · obtain ⟨_, r₂, -, h⟩ := Reader.bind_eq_ok.mp h
        obtain ⟨values, r₃, hvalues, h⟩ := Reader.bind_eq_ok.mp h
        obtain ⟨_, r₄, -, h⟩ := Reader.bind_eq_ok.mp h
        obtain ⟨rfl, -⟩ := Reader.pure_eq_ok.mp h
        exact ⟨values, rfl, readPositional_yields hvalues⟩
      · exact absurd h Reader.otherKind_ne_ok

end Format

end KeyPool.Json
