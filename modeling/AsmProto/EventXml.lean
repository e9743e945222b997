import AsmProto.EventLog
import AsmProto.Lib.ClassPattern
import AsmProto.Lib.Delimited

set_option autoImplicit false

/-! # The XML of a log record

`render_event_xml` puts four escaped fields between fixed tags. Escaping leaves no angle bracket and
no bare ampersand in a field, so the brackets of the text are those of the tags, and reading the
fields back and unescaping them gives the record again, whatever bytes it holds. -/

namespace AsmProto

open ClassPattern Numeral

/-! ## Escaping -/

/-- The five predefined entities. -/
def entities : List StdString :=
  [ascii "&amp;", ascii "&lt;", ascii "&gt;", ascii "&quot;", ascii "&apos;"]

/-- Every ampersand starts an entity. -/
def AmpersandsEscaped (text : StdString) : Prop :=
  ∀ i, text[i]? = some 0x26 → ∃ entity ∈ entities, entity <+: text.drop i

/-- The character an entity stands for, by its name. -/
def entityChar (name : StdString) : UInt8 :=
  if name = ascii "amp" then 0x26
  else if name = ascii "lt" then 0x3c
  else if name = ascii "gt" then 0x3e
  else if name = ascii "quot" then 0x22
  else 0x27

/-- Replace every entity by its character. -/
def unescapeXml (text : StdString) : StdString :=
  (Delimited.scan 0x26 0x3b text).map (Sum.elim id entityChar)

/-- A character is one of the five that are escaped, or stands for itself. -/
theorem escapeChar_cases (c : UInt8) :
    (∃ name, escapeChar c = 0x26 :: (name ++ [0x3b]) ∧ 0x3b ∉ name ∧ entityChar name = c ∧
      escapeChar c ∈ entities ∧ 0x26 ∉ name ∧ 0x3c ∉ name ∧ 0x3e ∉ name) ∨
    (escapeChar c = [c] ∧ c ≠ 0x26 ∧ c ≠ 0x3c ∧ c ≠ 0x3e) := by
  by_cases hamp : c = 0x26
  · subst hamp
    exact Or.inl ⟨ascii "amp", by decide⟩
  by_cases hlt : c = 0x3c
  · subst hlt
    exact Or.inl ⟨ascii "lt", by decide⟩
  by_cases hgt : c = 0x3e
  · subst hgt
    exact Or.inl ⟨ascii "gt", by decide⟩
  by_cases hquot : c = 0x22
  · subst hquot
    exact Or.inl ⟨ascii "quot", by decide⟩
  by_cases hapos : c = 0x27
  · subst hapos
    exact Or.inl ⟨ascii "apos", by decide⟩
  · refine Or.inr ⟨?_, hamp, hlt, hgt⟩
    rw [escapeChar, if_neg hamp, if_neg hlt, if_neg hgt, if_neg hquot, if_neg hapos]

theorem escapeXml_cons (c : UInt8) (text : StdString) :
    escapeXml (c :: text) = escapeChar c ++ escapeXml text := List.flatMap_cons

/-- **Unescaping undoes escaping**, also of a text that already has entities in it. -/
theorem unescapeXml_escapeXml (text : StdString) : unescapeXml (escapeXml text) = text := by
  induction text with
  | nil => rfl
  | cons c text ih =>
      unfold unescapeXml at ih ⊢
      rw [escapeXml_cons]
      rcases escapeChar_cases c with ⟨name, hescape, hname, hchar, -⟩ | ⟨hescape, hne, -⟩
      · rw [hescape, List.cons_append, List.append_assoc, List.singleton_append,
          Delimited.scan_token 0x26 0x3b hname, List.map_cons, ih, Sum.elim_inr, hchar]
      · rw [hescape, List.singleton_append, Delimited.scan_cons_of_ne 0x26 0x3b hne, List.map_cons,
          ih, Sum.elim_inl, id_eq]

/-- No angle bracket is left. -/
theorem bracket_not_mem_escapeXml (text : StdString) :
    0x3c ∉ escapeXml text ∧ 0x3e ∉ escapeXml text := by
  have hchar : ∀ c, 0x3c ∉ escapeChar c ∧ 0x3e ∉ escapeChar c := by
    intro c
    rcases escapeChar_cases c with ⟨name, hescape, -, -, -, -, hlt, hgt⟩ | ⟨hescape, -, hlt, hgt⟩
    · rw [hescape]
      simp [hlt, hgt]
    · rw [hescape]
      exact ⟨by simpa using hlt.symm, by simpa using hgt.symm⟩
  simp only [escapeXml, List.mem_flatMap, not_exists, not_and]
  exact ⟨fun c _ => (hchar c).1, fun c _ => (hchar c).2⟩

/-! ## Ampersands -/

theorem AmpersandsEscaped.append {text text' : StdString} (h : AmpersandsEscaped text)
    (h' : AmpersandsEscaped text') : AmpersandsEscaped (text ++ text') := by
  intro i hi
  rcases Nat.lt_or_ge i text.length with hlt | hge
  · rw [List.getElem?_append_left hlt] at hi
    obtain ⟨entity, hmem, hstarts⟩ := h i hi
    refine ⟨entity, hmem, ?_⟩
    rw [List.drop_append_of_le_length hlt.le]
    exact hstarts.trans (List.prefix_append _ _)
  · rw [List.getElem?_append_right hge] at hi
    obtain ⟨entity, hmem, hstarts⟩ := h' _ hi
    exact ⟨entity, hmem, by rwa [List.drop_append, List.drop_eq_nil_of_le hge, List.nil_append]⟩

theorem ampersandsEscaped_of_not_mem {text : StdString} (h : 0x26 ∉ text) :
    AmpersandsEscaped text := by
  intro i hi
  exact absurd (List.mem_of_getElem? hi) h

theorem ampersandsEscaped_escapeXml (text : StdString) : AmpersandsEscaped (escapeXml text) := by
  induction text with
  | nil => exact ampersandsEscaped_of_not_mem (by simp [escapeXml])
  | cons c text ih =>
      rw [escapeXml_cons]
      refine AmpersandsEscaped.append ?_ ih
      rcases escapeChar_cases c with ⟨name, hescape, -, -, hentity, hamp, -⟩ | ⟨hescape, hne, -⟩
      · intro i hi
        refine ⟨escapeChar c, hentity, ?_⟩
        -- the only ampersand of an entity is its first character
        cases i with
        | zero => rw [List.drop_zero]
        | succ i =>
            rw [hescape, List.getElem?_cons_succ] at hi
            have hmem := List.mem_of_getElem? hi
            simp [hamp] at hmem
      · rw [hescape]
        exact ampersandsEscaped_of_not_mem (by simpa using hne.symm)

/-! ## The tags of a record -/

def tag (name : StdString) : StdString := 0x3c :: (name ++ [0x3e])

/-- The names of the tags of a text, in order. -/
def tagsOf (xml : StdString) : List StdString :=
  (Delimited.scan 0x3c 0x3e xml).filterMap Sum.getRight?

def recordTags : List StdString :=
  [ascii "LogRecord", ascii "EventID", ascii "/EventID", ascii "Timestamp", ascii "/Timestamp",
    ascii "Severity", ascii "/Severity", ascii "Summary", ascii "/Summary", ascii "/LogRecord"]

/-- A text of fields (`inl`) and tags (`inr`). -/
def assemble (parts : List (StdString ⊕ StdString)) : StdString := parts.flatMap (Sum.elim id tag)

/-- What a field or the name of a tag may hold. -/
def Clean : StdString ⊕ StdString → Prop
  | .inl field => 0x3c ∉ field ∧ 0x3e ∉ field ∧ AmpersandsEscaped field
  | .inr name => 0x3c ∉ name ∧ 0x3e ∉ name ∧ 0x26 ∉ name

theorem assemble_cons (part : StdString ⊕ StdString) (parts : List (StdString ⊕ StdString)) :
    assemble (part :: parts) = Sum.elim id tag part ++ assemble parts := List.flatMap_cons

/-- The record as tags and fields. -/
def recordParts (event : EventRecord) : List (StdString ⊕ StdString) :=
  [.inr (ascii "LogRecord"),
    .inr (ascii "EventID"), .inl (print 10 event.eventId.toNat), .inr (ascii "/EventID"),
    .inr (ascii "Timestamp"), .inl (escapeXml event.timestampText), .inr (ascii "/Timestamp"),
    .inr (ascii "Severity"), .inl (escapeXml event.severity.toText), .inr (ascii "/Severity"),
    .inr (ascii "Summary"), .inl (escapeXml event.summary), .inr (ascii "/Summary"),
    .inr (ascii "/LogRecord")]

theorem renderEventXml_eq (event : EventRecord) :
    renderEventXml event = assemble (recordParts event) := by
  simp only [renderEventXml, recordParts, assemble_cons, List.append_assoc]
  rfl

theorem clean_escapeXml (text : StdString) : Clean (.inl (escapeXml text)) :=
  ⟨(bracket_not_mem_escapeXml text).1, (bracket_not_mem_escapeXml text).2,
    ampersandsEscaped_escapeXml text⟩

theorem clean_print (n : ℕ) : Clean (.inl (print 10 n)) :=
  ⟨not_mem_print rfl n, not_mem_print rfl n, ampersandsEscaped_of_not_mem (not_mem_print rfl n)⟩

theorem clean_recordTags : ∀ name ∈ recordTags, Clean (.inr name) := by
  unfold recordTags Clean
  decide

theorem clean_recordParts (event : EventRecord) : ∀ part ∈ recordParts event, Clean part := by
  intro part hpart
  cases part with
  | inl field =>
      obtain rfl | rfl | rfl | rfl : field = print 10 event.eventId.toNat ∨
          field = escapeXml event.timestampText ∨ field = escapeXml event.severity.toText ∨
          field = escapeXml event.summary := by simpa [recordParts] using hpart
      · exact clean_print _
      · exact clean_escapeXml _
      · exact clean_escapeXml _
      · exact clean_escapeXml _
  | inr name =>
      refine clean_recordTags name ?_
      simpa [recordParts, recordTags] using hpart

theorem tagsOf_tag_append {name : StdString} (h : 0x3e ∉ name) (text : StdString) :
    tagsOf (tag name ++ text) = name :: tagsOf text := by
  have hscan := Delimited.scan_token (0x3c : UInt8) 0x3e h text
  rw [tag, List.cons_append, List.append_assoc, List.singleton_append, tagsOf, hscan]
  rfl

theorem tagsOf_append {segment : StdString} (h : 0x3c ∉ segment) (text : StdString) :
    tagsOf (segment ++ text) = tagsOf text := by
  have hplain : (segment.map Sum.inl : List (UInt8 ⊕ StdString)).filterMap Sum.getRight? = [] := by
    simp
  rw [tagsOf, Delimited.scan_append_of_not_mem (0x3c : UInt8) 0x3e h, List.filterMap_append, hplain,
    List.nil_append, tagsOf]

/-- **The tags of a text of clean parts** are the tags it is made of. -/
theorem tagsOf_assemble {parts : List (StdString ⊕ StdString)} (h : ∀ part ∈ parts, Clean part) :
    tagsOf (assemble parts) = parts.filterMap Sum.getRight? := by
  induction parts with
  | nil => rfl
  | cons part parts ih =>
      rw [List.forall_mem_cons] at h
      obtain ⟨hpart, hparts⟩ := h
      rw [assemble_cons]
      cases part with
      | inl field => rw [Sum.elim_inl, id, tagsOf_append hpart.1, ih hparts]; rfl
      | inr name => rw [Sum.elim_inr, tagsOf_tag_append hpart.2.1, ih hparts]; rfl

/-- Each tag has one bracket of each kind, and the fields have none. -/
theorem count_assemble {parts : List (StdString ⊕ StdString)} (h : ∀ part ∈ parts, Clean part) :
    (assemble parts).count 0x3c = (parts.filterMap Sum.getRight?).length ∧
      (assemble parts).count 0x3e = (parts.filterMap Sum.getRight?).length := by
  induction parts with
  | nil => exact ⟨rfl, rfl⟩
  | cons part parts ih =>
      rw [List.forall_mem_cons] at h
      obtain ⟨hpart, hparts⟩ := h
      obtain ⟨hopen, hclose⟩ := ih hparts
      rw [assemble_cons, List.count_append, List.count_append, hopen, hclose]
      cases part with
      | inl field =>
          simp [List.filterMap_cons, List.count_eq_zero_of_not_mem hpart.1,
            List.count_eq_zero_of_not_mem hpart.2.1]
      | inr name =>
          simp [tag, Nat.add_comm, List.count_eq_zero_of_not_mem hpart.1,
            List.count_eq_zero_of_not_mem hpart.2.1]

theorem ampersandsEscaped_assemble {parts : List (StdString ⊕ StdString)}
    (h : ∀ part ∈ parts, Clean part) : AmpersandsEscaped (assemble parts) := by
  induction parts with
  | nil => exact ampersandsEscaped_of_not_mem (by simp [assemble])
  | cons part parts ih =>
      rw [List.forall_mem_cons] at h
      obtain ⟨hpart, hparts⟩ := h
      rw [assemble_cons]
      refine AmpersandsEscaped.append ?_ (ih hparts)
      cases part with
      | inl field => exact hpart.2.2
      | inr name => exact ampersandsEscaped_of_not_mem (by simp [tag, hpart.2.2])

/-! ## Reading a record back -/

/-- Every character but an opening bracket. -/
def notBracket (c : UInt8) : Bool := c ≠ 0x3c

def logRecordPattern : List (Piece UInt8) :=
  literal (tag (ascii "LogRecord")) ++ (literal (tag (ascii "EventID"))
    ++ Piece.captureMany1 (isDigit 10) :: (literal (tag (ascii "/EventID"))
    ++ (literal (tag (ascii "Timestamp")) ++ Piece.captureMany notBracket
    :: (literal (tag (ascii "/Timestamp")) ++ (literal (tag (ascii "Severity"))
    ++ Piece.captureMany notBracket :: (literal (tag (ascii "/Severity"))
    ++ (literal (tag (ascii "Summary")) ++ Piece.captureMany notBracket
    :: (literal (tag (ascii "/Summary")) ++ (literal (tag (ascii "/LogRecord")) ++ [])))))))))

theorem separated_logRecordPattern : Separated logRecordPattern := by
  have hfield : ∀ (p : Piece UInt8) (name : StdString) (ps : List (Piece UInt8)),
      p.accepts 0x3c = false → Separated ps → Separated (p :: (literal (tag name) ++ ps)) := by
    intro p name ps hexcl h
    exact separated_repeat_char hexcl (separated_literal.2 h)
  unfold logRecordPattern
  refine separated_literal.2 (separated_literal.2 (hfield _ _ _ (by decide) ?_))
  refine separated_literal.2 (hfield _ _ _ (by decide) ?_)
  refine separated_literal.2 (hfield _ _ _ (by decide) ?_)
  refine separated_literal.2 (hfield _ _ _ (by decide) ?_)
  exact separated_literal.2 separated_nil

/-- The severity of a text. -/
def severityOf (text : StdString) : Option EventSeverity :=
  [EventSeverity.info, EventSeverity.warning, EventSeverity.error].find? fun severity =>
    severity.toText = text

theorem severityOf_toText (severity : EventSeverity) : severityOf severity.toText = some severity := by
  cases severity <;> rfl

/-- Event id, timestamp text, severity and summary of a record. -/
def readEventXml (xml : StdString) : Option (UInt32 × StdString × EventSeverity × StdString) :=
  match fullMatch logRecordPattern xml with
  | some [eventId, timestamp, severity, summary] =>
      (severityOf (unescapeXml severity)).map fun severity =>
        (UInt32.ofNat (value 10 eventId), unescapeXml timestamp, severity, unescapeXml summary)
  | _ => none

theorem matches_renderEventXml (event : EventRecord) :
    Matches logRecordPattern (renderEventXml event)
      [print 10 event.eventId.toNat, escapeXml event.timestampText,
        escapeXml event.severity.toText, escapeXml event.summary] := by
  have hfield : ∀ text, ∀ c ∈ escapeXml text, notBracket c = true := by
    intro text c hc
    rw [notBracket, decide_eq_true_eq]
    intro hbracket
    exact (bracket_not_mem_escapeXml text).1 (hbracket ▸ hc)
  rw [renderEventXml_eq]
  simp only [recordParts, assemble_cons, Sum.elim_inl, Sum.elim_inr, id]
  refine Matches.literal (Matches.literal (Matches.captureMany1 ?_ (digits_print _).1
    (digits_print _).2))
  refine Matches.literal (Matches.literal (Matches.captureMany ?_ (hfield _)))
  refine Matches.literal (Matches.literal (Matches.captureMany ?_ (hfield _)))
  refine Matches.literal (Matches.literal (Matches.captureMany ?_ (hfield _)))
  exact Matches.literal (Matches.literal matches_nil)

/-- **A rendered record reads back.** -/
theorem readEventXml_renderEventXml (event : EventRecord) :
    readEventXml (renderEventXml event)
      = some (event.eventId, event.timestampText, event.severity, event.summary) := by
  rw [readEventXml, (fullMatch_eq_some_iff separated_logRecordPattern).2 (matches_renderEventXml event)]
  simp only [unescapeXml_escapeXml, severityOf_toText, Option.map_some,
    value_print_ten, UInt32.ofNat_toNat]

/-- Two records render to the same text when they agree in the four fields it shows. -/
theorem renderEventXml_eq_iff {event event' : EventRecord} :
    renderEventXml event = renderEventXml event' ↔
      event.eventId = event'.eventId ∧ event.timestampText = event'.timestampText ∧
      event.severity = event'.severity ∧ event.summary = event'.summary := by
  constructor
  · intro h
    have hread := readEventXml_renderEventXml event
    rw [h, readEventXml_renderEventXml] at hread
    simp only [Option.some.injEq, Prod.mk.injEq] at hread
    exact ⟨hread.1.symm, hread.2.1.symm, hread.2.2.1.symm, hread.2.2.2.symm⟩
  · intro h
    rcases h with ⟨hid, htimestamp, hseverity, hsummary⟩
    rw [renderEventXml, hid, htimestamp, hseverity, hsummary, ← renderEventXml]

/-- What holds of the text of a record. -/
structure RecordXml (event : EventRecord) (xml : StdString) : Prop where
  openBrackets : xml.count 0x3c = 10
  closeBrackets : xml.count 0x3e = 10
  tags : tagsOf xml = recordTags
  ampersands : AmpersandsEscaped xml
  recovered : readEventXml xml
    = some (event.eventId, event.timestampText, event.severity, event.summary)
  received : GetEventIdPayloadCodec.decodeResponse (GetEventIdPayloadCodec.encodeResponse xml) = .ok xml

/-- **Rendering is free of injection and loses nothing.** Whatever bytes a record holds, the text of it
    has the brackets of its ten tags and no others and only escaped ampersands, gives the four fields
    back, and reaches the client unchanged; records that differ in one of these fields have different
    texts. -/
theorem event_xml_lossless :
    (∀ events eventId xml, getEventXml events eventId = some xml →
      ∃ event ∈ events, event.eventId = eventId ∧ xml = renderEventXml event) ∧
    (∀ event, RecordXml event (renderEventXml event)) ∧
    ∀ event event', renderEventXml event = renderEventXml event' →
      event.eventId = event'.eventId ∧ event.timestampText = event'.timestampText ∧
      event.severity = event'.severity ∧ event.summary = event'.summary := by
  refine ⟨?_, ?_, fun event event' => renderEventXml_eq_iff.1⟩
  · intro events eventId xml hxml
    obtain ⟨event, hfind, rfl⟩ := Option.map_eq_some_iff.1 hxml
    exact ⟨event, List.mem_of_find?_eq_some hfind, by simpa using List.find?_some hfind, rfl⟩
  · intro event
    have hclean := clean_recordParts event
    refine ⟨?_, ?_, ?_, ?_, readEventXml_renderEventXml event, rfl⟩
    · rw [renderEventXml_eq, (count_assemble hclean).1]
      rfl
    · rw [renderEventXml_eq, (count_assemble hclean).2]
      rfl
    · rw [renderEventXml_eq, tagsOf_assemble hclean]
      rfl
    · rw [renderEventXml_eq]
      exact ampersandsEscaped_assemble hclean

end AsmProto
