import AsmProto.EventTimes
import AsmProto.Lib.JsonString

set_option autoImplicit false

/-! # Event summaries in the JSONL file

A line of the event file is a JSON object, and its summary a JSON string. The loader takes the bytes
between the quotation marks as they are: it knows no escapes, and ends the summary at the first
quotation mark. So a summary survives the file exactly when it is written without escapes. -/

namespace AsmProto

open ClassPattern Numeral

namespace JsonlEventLogProvider

/-- A timestamp that `parse_utc_timestamp` accepts and a JSON string can hold as it is. -/
structure ValidTimestamp (reader : TimeReader) (timestamp : StdString) : Prop where
  nonempty : timestamp ≠ []
  unquoted : ∀ c ∈ timestamp, notQuote c = true
  oneLine : newline ∉ timestamp
  fromEpoch : ∃ tm, reader.read timestamp = some tm ∧ 0 ≤ timegm tm

/-- The file of this one line, with or without a last `\n`, is accepted; its one event has the summary,
    and the text fetched for its id carries it escaped. -/
def SummarySurvives (reader : TimeReader) (eventId : UInt32) (severity : EventSeverity)
    (timestamp literal summary : StdString) : Prop :=
  ∀ ending ∈ [[], [newline]], ∃ event,
    construct reader (some (eventLine (print 10 eventId.toNat) severity.toText timestamp literal
      ++ ending)) = .ok [event] ∧
    event.summary = summary ∧
    ∃ start, getEventXml [event] eventId
      = some (start ++ ascii "<Summary>" ++ escapeXml summary ++ ascii "</Summary>"
          ++ ascii "</LogRecord>")

section Line

variable {reader : TimeReader} {eventId : UInt32} {severity : EventSeverity}
  {timestamp literal : StdString}

/-- No part of the line ends it. -/
theorem newline_not_mem_eventLine (htimestamp : ValidTimestamp reader timestamp)
    (hliteral : newline ∉ literal) :
    newline ∉ eventLine (print 10 eventId.toNat) severity.toText timestamp literal := by
  have hseverity : newline ∉ severity.toText := by
    cases severity with
    | info => decide
    | warning => decide
    | error => decide
  have hprint : newline ∉ print 10 eventId.toNat := not_mem_print rfl _
  have hnames : ∀ text ∈ [ascii "event_id\"", ascii "severity\"", ascii "timestamp\"",
      ascii "summary\"", [0x22, 0x7d]], newline ∉ text := by decide
  have hsigns : newline ≠ 0x7b ∧ newline ≠ 0x22 ∧ newline ≠ 0x3a ∧ newline ≠ 0x2c := by decide
  simp only [List.forall_mem_cons, List.not_mem_nil, false_implies, implies_true, and_true] at hnames
  simp only [eventLine, List.mem_cons, List.mem_append, not_or, hnames, hsigns, hprint, hseverity,
    htimestamp.oneLine, hliteral, not_false_eq_true, and_self]

/-- A file of one line is accepted when that line is. -/
theorem construct_line_eq_ok_iff {ending line : StdString} (hending : ending ∈ [[], [newline]])
    (hne : line ≠ []) (hline : newline ∉ line) {event : EventRecord} :
    construct reader (some (line ++ ending)) = .ok [event] ↔
      parseJsonlLine reader line = .ok event := by
  have hlines : Lines.getLines newline (line ++ ending) = [line] := by
    simp only [List.mem_cons, List.not_mem_nil, or_false] at hending
    rcases hending with rfl | rfl
    · rw [List.append_nil, Lines.getLines_of_not_mem newline hline, if_neg hne]
    · rw [Lines.getLines_append_sep newline hline, Lines.getLines_nil]
  have hfilter : [line].filter (fun line => line ≠ []) = [line] :=
    List.filter_eq_self.2 (by simpa using hne)
  rw [construct, readJsonl, readJsonlLines_eq_ok_iff, hlines, hfilter, List.forall₂_cons,
    and_iff_left List.Forall₂.nil]

/-- The pattern has fourteen quotation marks, and none in a repeated class. -/
theorem quotes_eventPattern :
    (∀ p ∈ eventPattern, p.accepts 0x22 = false ∨ p.max = some 1) ∧
      (eventPattern.countP fun p => p.accepts 0x22) = 14 := by
  decide

/-- A line with a quotation mark in its summary is refused. -/
theorem quote_not_mem_of_matches {captured : List StdString}
    (h : Matches eventPattern
      (eventLine (print 10 eventId.toNat) severity.toText timestamp literal) captured) :
    0x22 ∉ literal := by
  have hmost := h.count_le quotes_eventPattern.1
  rw [quotes_eventPattern.2] at hmost
  intro hmem
  have hone : 0 < literal.count 0x22 := List.count_pos_iff.2 hmem
  have hnames : (ascii "event_id\"").count 0x22 = 1 ∧ (ascii "severity\"").count 0x22 = 1 ∧
      (ascii "timestamp\"").count 0x22 = 1 ∧ (ascii "summary\"").count 0x22 = 1 := by decide
  simp [eventLine, List.count_append, hnames] at hmost
  omega

/-- **What a line is accepted as**: an event with the literal as its summary, byte for byte. -/
theorem parse_eventLine_eq_ok_iff (htimestamp : ValidTimestamp reader timestamp) {tm : Tm}
    (hread : reader.read timestamp = some tm) (hpos : 0 ≤ timegm tm) {event : EventRecord} :
    parseJsonlLine reader
        (eventLine (print 10 eventId.toNat) severity.toText timestamp literal) = .ok event ↔
      0x22 ∉ literal ∧ event = { eventId := eventId, severity := severity,
                                 timestampEpoch := UInt32.ofNat (timegm tm).toNat,
                                 timestampText := timestamp, summary := literal } := by
  have hparse : 0x22 ∉ literal → parseJsonlLine reader
      (eventLine (print 10 eventId.toNat) severity.toText timestamp literal)
      = .ok { eventId := eventId, severity := severity,
              timestampEpoch := UInt32.ofNat (timegm tm).toNat, timestampText := timestamp,
              summary := literal } := by
    intro hquote
    have hsummary : ∀ c ∈ literal, notQuote c = true := fun c hc =>
      decide_eq_true fun heq => hquote (heq ▸ hc)
    have hline := (@parseJsonlLine_eventLine reader _ severity _ _ _
      (eventId.toNat_lt.trans (by decide)) ⟨htimestamp.nonempty, htimestamp.unquoted⟩ hsummary hread
      hpos).1
    rwa [UInt32.ofNat_toNat] at hline
  refine ⟨fun hevent => ?_, fun h => ?_⟩
  · obtain ⟨_, _, _, _, _, hmatch, -⟩ := parseJsonlLine_eq_ok_iff.1 hevent
    have hquote := quote_not_mem_of_matches hmatch
    exact ⟨hquote, Except.ok.inj (hevent.symm.trans (hparse hquote))⟩
  · obtain ⟨hquote, rfl⟩ := h
    exact hparse hquote

/-- The text fetched for an event ends in its summary. -/
theorem getEventXml_summary {event : EventRecord} (hid : event.eventId = eventId) :
    ∃ start, getEventXml [event] eventId
      = some (start ++ ascii "<Summary>" ++ escapeXml event.summary ++ ascii "</Summary>"
          ++ ascii "</LogRecord>") := by
  have hfind : [event].find? (fun event => event.eventId = eventId) = some event :=
    List.find?_cons_of_pos (by simpa using hid)
  rw [getEventXml, hfind, Option.map_some, renderEventXml]
  exact ⟨_, rfl⟩

/-- **A summary survives as it is written**, if there is no quotation mark in it. -/
theorem summarySurvives_iff (htimestamp : ValidTimestamp reader timestamp) (hliteral : newline ∉ literal)
    {summary : StdString} :
    SummarySurvives reader eventId severity timestamp literal summary ↔
      0x22 ∉ literal ∧ literal = summary := by
  obtain ⟨tm, hread, hpos⟩ := htimestamp.fromEpoch
  have hline := @newline_not_mem_eventLine reader eventId severity _ _ htimestamp hliteral
  have hne : eventLine (print 10 eventId.toNat) severity.toText timestamp literal ≠ [] :=
    List.cons_ne_nil _ _
  have haccepts : ∀ {ending event}, ending ∈ [[], [newline]] → _ := fun {ending event} hending =>
    (@construct_line_eq_ok_iff reader ending _ hending hne hline event).trans
      (parse_eventLine_eq_ok_iff htimestamp hread hpos)
  refine ⟨fun hsurvives => ?_, fun h ending hending => ?_⟩
  · obtain ⟨event, hconstruct, hsummary, -⟩ := hsurvives [] List.mem_cons_self
    obtain ⟨hquote, rfl⟩ := (haccepts List.mem_cons_self).1 hconstruct
    exact ⟨hquote, hsummary⟩
  · obtain ⟨hquote, rfl⟩ := h
    have hconstruct := (haccepts hending).2 ⟨hquote, rfl⟩
    exact ⟨_, hconstruct, rfl, @getEventXml_summary eventId
      { eventId := eventId, severity := severity, timestampEpoch := UInt32.ofNat (timegm tm).toNat,
        timestampText := timestamp, summary := literal } rfl⟩

end Line

/-- **When an event summary survives the file.** For every text and every JSON string literal that
    denotes it, on a line with any id, severity and valid timestamp: the line is accepted, the summary
    of its event is the text, and the text fetched for its id carries it escaped, if and only if there
    is no escape in the literal. -/
theorem event_summary_survives_iff (reader : TimeReader) (eventId : UInt32) (severity : EventSeverity)
    (timestamp literal : StdString) (text : List Char) (htimestamp : ValidTimestamp reader timestamp)
    (hliteral : JsonString.Denotes literal text) :
    SummarySurvives reader eventId severity timestamp literal (JsonString.utf8 text) ↔
      JsonString.backslash ∉ literal := by
  have hnewline : newline ∉ literal := fun hmem =>
    absurd (hliteral.not_control_of_mem _ hmem) (by decide)
  rw [summarySurvives_iff htimestamp hnewline, hliteral.eq_utf8_iff]
  exact and_iff_right_of_imp hliteral.quotationMark_not_mem

theorem validTimestamp_getTime : ValidTimestamp .getTime (ascii "2026-04-21T08:00:00Z") :=
  ⟨by decide, List.all_eq_true.1 (by decide), by decide,
    { year := 126, mon := 3, mday := 21, hour := 8 }, by decide, by decide⟩

/-- Two plain letters. -/
theorem event_summary_survives_plain :
    SummarySurvives .getTime 1001 .info (ascii "2026-04-21T08:00:00Z") (JsonString.utf8 ['o', 'k'])
      (JsonString.utf8 ['o', 'k']) :=
  (event_summary_survives_iff .getTime 1001 .info (ascii "2026-04-21T08:00:00Z") _ ['o', 'k']
    validTimestamp_getTime (JsonString.denotes_utf8 (by simp))).2 (by decide)

/-- A line whose summary is an escaped quotation mark. -/
def escapedQuoteLine : StdString :=
  eventLine (print 10 1001) (ascii "info") (ascii "2026-04-21T08:00:00Z") (ascii "\\\"")

theorem construct_escapedQuoteLine :
    construct .getTime (some escapedQuoteLine)
      = .error (.asmError "failed to parse event JSONL line 1: invalid event JSONL line format") := by
  have hline : newline ∉ escapedQuoteLine :=
    @newline_not_mem_eventLine .getTime 1001 .info _ _ validTimestamp_getTime (by decide)
  have hne : escapedQuoteLine ≠ [] := List.cons_ne_nil _ _
  have hrefused : fullMatch eventPattern escapedQuoteLine = none := by
    by_contra hmatch
    obtain ⟨captured, hcaptured⟩ := Option.ne_none_iff_exists'.1 hmatch
    have hsplit := (fullMatch_eq_some_iff separated_eventPattern).1 hcaptured
    exact absurd (@quote_not_mem_of_matches 1001 .info _ _ _ hsplit) (by decide)
  rw [construct, readJsonl, Lines.getLines_of_not_mem newline hline, if_neg hne, readJsonlLines,
    if_neg hne, parseJsonlLine, hrefused]
  rfl

/-- An escaped quotation mark stops the responder, and an escaped tab is logged as a backslash and a
    letter. -/
theorem escaped_summary_lost :
    JsonString.Denotes (ascii "\\\"") [Char.ofNat 0x22] ∧
    construct .getTime (some escapedQuoteLine)
      = .error (.asmError "failed to parse event JSONL line 1: invalid event JSONL line format") ∧
    ¬ SummarySurvives .getTime 1001 .info (ascii "2026-04-21T08:00:00Z") (ascii "\\\"")
      (JsonString.utf8 [Char.ofNat 0x22]) ∧
    JsonString.Denotes (ascii "\\t") [Char.ofNat 0x09] ∧
    ¬ SummarySurvives .getTime 1001 .info (ascii "2026-04-21T08:00:00Z") (ascii "\\t")
      (JsonString.utf8 [Char.ofNat 0x09]) := by
  refine ⟨.short (by decide) .nil, construct_escapedQuoteLine, ?_, .short (by decide) .nil, ?_⟩
  · rw [summarySurvives_iff validTimestamp_getTime (by decide)]
    decide
  · rw [summarySurvives_iff validTimestamp_getTime (by decide)]
    decide

end JsonlEventLogProvider

end AsmProto
