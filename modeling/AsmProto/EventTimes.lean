import AsmProto.EventFile

set_option autoImplicit false

/-! # The ids and times of a loaded event log

A line of the pattern writes a number and an instant. The loader stores both in 32 bits, and what it
stores is what the line writes exactly when both fit. -/

namespace AsmProto

open ClassPattern Numeral

namespace JsonlEventLogProvider

/-! ## What a line writes -/

/-- The id on a line, as a number, and the instant its timestamp denotes. -/
def writtenEvent (reader : TimeReader) (line : StdString) : Option (ℕ × ℤ) :=
  match fullMatch eventPattern line with
  | some [eventId, _, timestamp, _] =>
      (reader.read timestamp).map fun tm => (value 10 eventId, tm.instant)
  | _ => none

/-- The record holds the number and the instant of its line. -/
def RecordsLine (reader : TimeReader) (line : StdString) (event : EventRecord) : Prop :=
  writtenEvent reader line = some (event.eventId.toNat, (event.timestampEpoch.toNat : ℤ))

/-- A line with an id of at most 64 bits, a severity and an instant from 1970 on, of which the id or
    the instant takes more than 32 bits. -/
def WideLine (reader : TimeReader) (line : StdString) : Prop :=
  ∃ (eventId timestamp summary : StdString) (severity : EventSeverity) (tm : Tm),
    Matches eventPattern line [eventId, severity.toText, timestamp, summary] ∧
    value 10 eventId < 2 ^ 64 ∧ reader.read timestamp = some tm ∧ 0 ≤ tm.instant ∧
    (2 ^ 32 ≤ value 10 eventId ∨ 2 ^ 32 ≤ tm.instant)

section Line

variable {reader : TimeReader} {line : StdString}

theorem writtenEvent_of_matches {eventId severity timestamp summary : StdString} {tm : Tm}
    (h : Matches eventPattern line [eventId, severity, timestamp, summary])
    (hread : reader.read timestamp = some tm) :
    writtenEvent reader line = some (value 10 eventId, tm.instant) := by
  rw [writtenEvent, (fullMatch_eq_some_iff separated_eventPattern).2 h]
  simp only [hread, Option.map_some]

/-- A line without blanks, with these fields. -/
def eventLine (eventId severity timestamp summary : StdString) : StdString :=
  0x7b :: 0x22 :: (ascii "event_id\"" ++ 0x3a :: (eventId ++ 0x2c :: 0x22
    :: (ascii "severity\"" ++ 0x3a :: 0x22 :: (severity ++ 0x22 :: 0x2c :: 0x22
    :: (ascii "timestamp\"" ++ 0x3a :: 0x22 :: (timestamp ++ 0x22 :: 0x2c :: 0x22
    :: (ascii "summary\"" ++ 0x3a :: 0x22 :: (summary ++ [0x22, 0x7d]))))))))

theorem matches_eventLine {eventId severity timestamp summary : StdString}
    (heventId : eventId ≠ [] ∧ ∀ c ∈ eventId, isDigit 10 c = true)
    (hseverity : severity ≠ [] ∧ ∀ c ∈ severity, notQuote c = true)
    (htimestamp : timestamp ≠ [] ∧ ∀ c ∈ timestamp, notQuote c = true)
    (hsummary : ∀ c ∈ summary, notQuote c = true) :
    Matches eventPattern (eventLine eventId severity timestamp summary)
      [eventId, severity, timestamp, summary] := by
  -- one line a field
  refine (Matches.literal ?_).char.none.char.none
  refine (Matches.captureMany1 ?_ heventId.1 heventId.2).none.char.none
  refine (Matches.literal ?_).char.none.char.none
  refine (Matches.captureMany1 ?_ hseverity.1 hseverity.2).char.none.char.none
  refine (Matches.literal ?_).char.none.char.none.char
  refine (Matches.captureMany1 ?_ htimestamp.1 htimestamp.2).char.none.char.none
  refine (Matches.literal ?_).char.none.char.none.char
  refine (Matches.captureMany ?_ hsummary).char.none.char.none
  exact matches_nil.none.char.none.char

theorem captures_eventPattern : eventPattern.filter Piece.capture =
    [Piece.captureMany1 (isDigit 10), Piece.captureMany1 notQuote, Piece.captureMany1 notQuote,
      Piece.captureMany notQuote] := rfl

theorem digits_of_matches {eventId severity timestamp summary : StdString}
    (h : Matches eventPattern line [eventId, severity, timestamp, summary]) :
    eventId ≠ [] ∧ ∀ c ∈ eventId, isDigit 10 c = true := by
  have hfits := h.forall₂_fits
  rw [captures_eventPattern, List.forall₂_cons] at hfits
  exact ⟨List.length_pos_iff.1 hfits.1.2.1, hfits.1.1⟩

theorem severityFromString_eq_ok_iff {text : StdString} {severity : EventSeverity} :
    severityFromString text = .ok severity ↔ text = severity.toText := by
  constructor
  · intro h
    unfold severityFromString at h
    split at h
    · next htext => rw [htext, ← Except.ok.inj h, EventSeverity.toText]
    · split at h
      · next htext => rw [htext, ← Except.ok.inj h, EventSeverity.toText]
      · split at h
        · next htext => rw [htext, ← Except.ok.inj h, EventSeverity.toText]
        · exact nomatch h
  · intro h
    subst h
    cases severity with
    | info => rfl
    | warning => rfl
    | error => rfl

theorem parseUtcTimestamp_eq_ok_iff {text : StdString} {epoch : UInt32} :
    parseUtcTimestamp reader text = .ok epoch ↔
      ∃ tm, reader.read text = some tm ∧ 0 ≤ tm.instant ∧ epoch = UInt32.ofNat tm.instant.toNat := by
  unfold parseUtcTimestamp
  cases hread : reader.read text with
  | none => simp
  | some tm =>
      simp only [timegm_eq_instant (reader.inRange hread), Option.some.injEq, exists_eq_left']
      split
      · next hneg => exact iff_of_false (by simp) (fun h => by omega)
      · next hpos => rw [Except.ok.injEq, and_iff_right (by omega), eq_comm]

/-- **What the loader accepts on a line**, and the record it makes of it. -/
theorem parseJsonlLine_eq_ok_iff {event : EventRecord} :
    parseJsonlLine reader line = .ok event ↔
      ∃ (eventId timestamp summary : StdString) (severity : EventSeverity) (tm : Tm),
        Matches eventPattern line [eventId, severity.toText, timestamp, summary] ∧
        value 10 eventId < 2 ^ 64 ∧ reader.read timestamp = some tm ∧ 0 ≤ tm.instant ∧
        event = { eventId := UInt32.ofNat (value 10 eventId), severity := severity,
                  timestampEpoch := UInt32.ofNat tm.instant.toNat, timestampText := timestamp,
                  summary := summary } := by
  unfold parseJsonlLine
  constructor
  · intro hparse
    split at hparse
    · next eventId severityText timestamp summary hmatch =>
        have hsplit := (fullMatch_eq_some_iff separated_eventPattern).1 hmatch
        obtain ⟨hne, hdigits⟩ := digits_of_matches hsplit
        simp only [Except.bind_eq_ok_iff, stoul, stoUnsigned_digits_eq_ok_iff hne hdigits,
          severityFromString_eq_ok_iff, parseUtcTimestamp_eq_ok_iff, Except.ok.injEq] at hparse
        obtain ⟨_, ⟨hid, rfl⟩, severity, rfl, _, ⟨tm, hread, hpos, rfl⟩, rfl⟩ := hparse
        exact ⟨eventId, timestamp, summary, severity, tm, hsplit, hid, hread, hpos, by simp⟩
    · exact nomatch hparse
  · intro hparts
    obtain ⟨eventId, timestamp, summary, severity, tm, hsplit, hid, hread, hpos, rfl⟩ := hparts
    obtain ⟨hne, hdigits⟩ := digits_of_matches hsplit
    rw [(fullMatch_eq_some_iff separated_eventPattern).2 hsplit]
    simp only [Except.bind_eq_ok_iff, stoul, stoUnsigned_digits_eq_ok_iff hne hdigits,
      severityFromString_eq_ok_iff, parseUtcTimestamp_eq_ok_iff, Except.ok.injEq]
    exact ⟨_, ⟨hid, rfl⟩, severity, rfl, _, ⟨tm, hread, hpos, rfl⟩, by simp⟩

/-- **An accepted line writes a number and an instant**, of which the record keeps 32 bits each. -/
theorem written_of_parse {event : EventRecord} (hparse : parseJsonlLine reader line = .ok event) :
    ∃ number instant, writtenEvent reader line = some (number, instant) ∧ 0 ≤ instant ∧
      event.eventId = UInt32.ofNat number ∧ event.timestampEpoch = UInt32.ofNat instant.toNat ∧
      (WideLine reader line ↔ 2 ^ 32 ≤ number ∨ 2 ^ 32 ≤ instant) := by
  obtain ⟨eventId, timestamp, summary, severity, tm, hmatch, hid, hread, hpos, rfl⟩ :=
    parseJsonlLine_eq_ok_iff.1 hparse
  have hwritten := writtenEvent_of_matches hmatch hread
  refine ⟨_, _, hwritten, hpos, rfl, rfl, ?_⟩
  constructor
  · intro hwide
    obtain ⟨_, _, _, _, _, hmatch', -, hread', -, hlarge⟩ := hwide
    -- the line writes one number and one instant
    have hsame := (writtenEvent_of_matches hmatch' hread').symm.trans hwritten
    simp only [Option.some.injEq, Prod.mk.injEq] at hsame
    rwa [hsame.1, hsame.2] at hlarge
  · intro hlarge
    exact ⟨eventId, timestamp, summary, severity, tm, hmatch, hid, hread, hpos, hlarge⟩

/-- A line with these fields is accepted when its instant is not before the Epoch. -/
theorem parseJsonlLine_eventLine {eventId : ℕ} {severity : EventSeverity}
    {timestamp summary : StdString} {tm : Tm} (hid : eventId < 2 ^ 64)
    (htimestamp : timestamp ≠ [] ∧ ∀ c ∈ timestamp, notQuote c = true)
    (hsummary : ∀ c ∈ summary, notQuote c = true) (hread : reader.read timestamp = some tm)
    (hpos : 0 ≤ timegm tm) :
    parseJsonlLine reader (eventLine (print 10 eventId) severity.toText timestamp summary)
        = .ok { eventId := UInt32.ofNat eventId, severity := severity,
                timestampEpoch := UInt32.ofNat (timegm tm).toNat, timestampText := timestamp,
                summary := summary } ∧
      writtenEvent reader (eventLine (print 10 eventId) severity.toText timestamp summary)
        = some (eventId, timegm tm) := by
  have hseverity : severity.toText ≠ [] ∧ ∀ c ∈ severity.toText, notQuote c = true := by
    rw [← List.all_eq_true]
    cases severity with
    | info => decide
    | warning => decide
    | error => decide
  have hmatch := matches_eventLine (digits_print eventId) hseverity htimestamp hsummary
  have hvalue := value_print_ten eventId
  have hinstant := timegm_eq_instant (reader.inRange hread)
  constructor
  · rw [hinstant] at hpos ⊢
    exact parseJsonlLine_eq_ok_iff.2
      ⟨_, _, _, severity, tm, hmatch, by rwa [hvalue], hread, hpos, by rw [hvalue]⟩
  · rw [writtenEvent_of_matches hmatch hread, hvalue, hinstant]

/-- An accepted line is recorded as it is written when its id and its instant fit 32 bits. -/
theorem recordsLine_iff {event : EventRecord} (hparse : parseJsonlLine reader line = .ok event) :
    RecordsLine reader line event ↔ ¬ WideLine reader line := by
  obtain ⟨number, instant, hwritten, hpos, hid, hepoch, hwide⟩ := written_of_parse hparse
  rw [RecordsLine, hwritten, hwide, hid, hepoch]
  simp only [Option.some.injEq, Prod.mk.injEq, UInt32.toNat_ofNat']
  have hnumber := Nat.mod_lt number (show 2 ^ 32 > 0 by decide)
  have hinstant := Nat.mod_lt instant.toNat (show 2 ^ 32 > 0 by decide)
  constructor
  · intro hexact
    omega
  · intro hfits
    rw [Nat.mod_eq_of_lt (show number < 2 ^ 32 by omega),
      Nat.mod_eq_of_lt (show instant.toNat < 2 ^ 32 by omega)]
    exact ⟨rfl, (Int.toNat_of_nonneg hpos).symm⟩

/-- A wide line is accepted. -/
theorem returns_of_wideLine (h : WideLine reader line) : (parseJsonlLine reader line).Returns := by
  obtain ⟨eventId, timestamp, summary, severity, tm, hmatch, hid, hread, hpos, -⟩ := h
  exact ⟨_, parseJsonlLine_eq_ok_iff.2
    ⟨eventId, timestamp, summary, severity, tm, hmatch, hid, hread, hpos, rfl⟩⟩

end Line

/-! ## Windows -/

/-- The numbers of the lines whose instant lies in the window. -/
def writtenWindow (reader : TimeReader) (lines : List StdString) (timeStart timeStop : UInt32) : List ℕ :=
  ((lines.filterMap (writtenEvent reader)).filter fun event =>
    (timeStart.toNat : ℤ) ≤ event.2 ∧ event.2 ≤ (timeStop.toNat : ℤ)).map Prod.fst

section Window

variable {reader : TimeReader} {lines : List StdString} {events : List EventRecord}
  (hparse : List.Forall₂ (fun line event => parseJsonlLine reader line = .ok event) lines events)

include hparse

/-- Between narrow lines every window lists what is written. -/
theorem window_of_narrow (hnarrow : ∀ line ∈ lines, ¬ WideLine reader line)
    (timeStart timeStop : UInt32) :
    (listEventIds events timeStart timeStop).map UInt32.toNat
      = writtenWindow reader lines timeStart timeStop := by
  induction hparse with
  | nil => rfl
  | @cons line event lines events hline hlines ih =>
      have hrest := ih fun l hl => hnarrow l (by simp [hl])
      have hexact := (recordsLine_iff hline).2 (hnarrow line (by simp))
      have hcond : decide (event.timestampEpoch ≥ timeStart ∧ event.timestampEpoch ≤ timeStop)
          = decide ((timeStart.toNat : ℤ) ≤ (event.timestampEpoch.toNat : ℤ)
            ∧ (event.timestampEpoch.toNat : ℤ) ≤ (timeStop.toNat : ℤ)) := by
        simp only [ge_iff_le, UInt32.le_iff_toNat_le, Nat.cast_le]
      unfold listEventIds writtenWindow at hrest ⊢
      rw [List.filterMap_cons_some hexact, List.filter_cons, List.filter_cons, hcond]
      split
      · rw [List.map_cons, List.map_cons, List.map_cons, hrest]
      · exact hrest

/-- The largest window shows a wide line. -/
theorem narrow_of_window
    (hwindow : (listEventIds events 0 0xffffffff).map UInt32.toNat
      = writtenWindow reader lines 0 0xffffffff) : ∀ line ∈ lines, ¬ WideLine reader line := by
  -- every record is in this window
  have hall : ∀ events : List EventRecord,
      listEventIds events 0 0xffffffff = events.map EventRecord.eventId := by
    intro events
    rw [listEventIds, List.filter_eq_self.2]
    intro event _
    simp only [ge_iff_le, decide_eq_true_eq, UInt32.le_iff_toNat_le]
    exact ⟨Nat.zero_le _, Nat.le_of_lt_succ event.timestampEpoch.toNat_lt⟩
  rw [hall] at hwindow
  have hcount : ∀ lines, (writtenWindow reader lines 0 0xffffffff).length ≤ lines.length := by
    intro lines
    rw [writtenWindow, List.length_map]
    exact (List.length_filter_le _ _).trans (List.length_filterMap_le _ _)
  induction hparse with
  | nil => simp
  | @cons line event lines events hline hlines ih =>
      obtain ⟨number, instant, hwritten, hpos, hid, hepoch, hwide⟩ := written_of_parse hline
      unfold writtenWindow at hwindow
      rw [List.filterMap_cons_some hwritten, List.filter_cons, List.map_cons, List.map_cons]
        at hwindow
      split at hwindow
      · next hin =>
          rw [List.map_cons, List.cons.injEq] at hwindow
          simp only [decide_eq_true_eq] at hin
          refine List.forall_mem_cons.2 ⟨?_, ih hwindow.2⟩
          have hlt := event.eventId.toNat_lt
          rw [hwide]
          have hmax : ((0xffffffff : UInt32).toNat : ℤ) < 2 ^ 32 := by decide
          omega
      · -- a record more than the window has lines
        have hlength := congrArg List.length hwindow
        have hshort := hcount lines
        have hsame := hlines.length_eq
        rw [writtenWindow] at hshort
        simp only [List.length_cons, List.length_map] at hlength hshort
        omega

end Window

/-- An empty line writes nothing. -/
theorem writtenWindow_lines (reader : TimeReader) (lines : List StdString)
    (timeStart timeStop : UInt32) :
    writtenWindow reader lines timeStart timeStop
      = writtenWindow reader (lines.filter fun line => line ≠ []) timeStart timeStop := by
  have hfilter : (lines.filter fun line => line ≠ []).filterMap (writtenEvent reader)
      = lines.filterMap (writtenEvent reader) := by
    rw [List.filterMap_filter]
    refine List.filterMap_congr fun line _ => ?_
    by_cases hline : line = []
    · subst hline
      rfl
    · rw [if_pos (by simpa using hline)]
  rw [writtenWindow, writtenWindow, hfilter]

theorem forall_narrow_iff {reader : TimeReader} {lines : List StdString} :
    (∀ line ∈ lines, ¬ WideLine reader line) ↔
      ∀ line ∈ lines.filter fun line => line ≠ [], ¬ WideLine reader line := by
  constructor
  · intro h line hline
    exact h line (List.mem_of_mem_filter hline)
  · intro h line hline hwide
    refine h line (List.mem_filter.2 ⟨hline, ?_⟩) hwide
    obtain ⟨_, _, _, _, _, hmatch, -⟩ := hwide
    rw [decide_eq_true_eq]
    intro hnil
    rw [hnil] at hmatch
    have hnone : fullMatch eventPattern [] = none := rfl
    rw [(fullMatch_eq_some_iff separated_eventPattern).2 hmatch] at hnone
    exact nomatch hnone

/-- **When loaded ids and times are exact.** Every record that is accepted from a line holds the number
    and the instant written there if and only if the line is not wide; between such lines the order of
    the instants is the order of the epochs; and in a file that is accepted, every window lists the
    events whose written instant lies in it, under their written ids, if and only if no line is
    wide. -/
theorem event_times_exact_iff (reader : TimeReader) :
    (∀ line, (∀ event, parseJsonlLine reader line = .ok event → RecordsLine reader line event) ↔
      ¬ WideLine reader line) ∧
    (∀ line line' event event' written written', parseJsonlLine reader line = .ok event →
      parseJsonlLine reader line' = .ok event' → ¬ WideLine reader line → ¬ WideLine reader line' →
      writtenEvent reader line = some written → writtenEvent reader line' = some written' →
        (event.timestampEpoch ≤ event'.timestampEpoch ↔ written.2 ≤ written'.2)) ∧
    ∀ content events, construct reader (some content) = .ok events →
      ((∀ timeStart timeStop, (listEventIds events timeStart timeStop).map UInt32.toNat
          = writtenWindow reader (Lines.getLines newline content) timeStart timeStop) ↔
        ∀ line ∈ Lines.getLines newline content, ¬ WideLine reader line) := by
  refine ⟨fun line => ?_, fun line line' event event' written written' => ?_, fun content events => ?_⟩
  · constructor
    · intro hexact hwide
      obtain ⟨event, hparse⟩ := returns_of_wideLine hwide
      exact (recordsLine_iff hparse).1 (hexact event hparse) hwide
    · intro hnarrow event hparse
      exact (recordsLine_iff hparse).2 hnarrow
  · intro hparse hparse' hnarrow hnarrow' hwritten hwritten'
    have hexact := (recordsLine_iff hparse).2 hnarrow
    have hexact' := (recordsLine_iff hparse').2 hnarrow'
    obtain rfl := Option.some.inj (hwritten.symm.trans hexact)
    obtain rfl := Option.some.inj (hwritten'.symm.trans hexact')
    rw [UInt32.le_iff_toNat_le, Nat.cast_le]
  · intro hload
    have hlines := readJsonlLines_eq_ok_iff.1 hload
    -- the empty lines write nothing
    rw [forall_narrow_iff]
    constructor
    · intro hwindow
      have hlargest := hwindow 0 0xffffffff
      rw [writtenWindow_lines] at hlargest
      exact narrow_of_window hlines hlargest
    · intro hnarrow timeStart timeStop
      rw [writtenWindow_lines]
      exact window_of_narrow hlines hnarrow timeStart timeStop

/-- An event of 2106-02-07T06:28:16Z, 2³² seconds after the Epoch. -/
def wideTimeLine : StdString :=
  eventLine (print 10 1) (ascii "info") (ascii "2106-02-07T06:28:16Z") []

/-- The line is accepted and stored under the time 0. -/
theorem wide_event_time_wraps :
    parseJsonlLine .getTime wideTimeLine
      = .ok { eventId := 1, timestampText := ascii "2106-02-07T06:28:16Z" } ∧
    writtenEvent .getTime wideTimeLine = some (1, 4294967296) ∧
    ¬ RecordsLine .getTime wideTimeLine
      { eventId := 1, timestampText := ascii "2106-02-07T06:28:16Z" } := by
  have hread : TimeReader.getTime.read (ascii "2106-02-07T06:28:16Z")
      = some { year := 206, mon := 1, mday := 7, hour := 6, min := 28, sec := 16 } := by decide
  obtain ⟨hparse, hwritten⟩ := @parseJsonlLine_eventLine .getTime 1 .info _ [] _ (by decide)
    ⟨by decide, List.all_eq_true.1 (by decide)⟩ (by simp) hread (by decide)
  refine ⟨hparse, hwritten, ?_⟩
  intro hrecords
  have hsame := hwritten.symm.trans hrecords
  exact absurd hsame (by decide)

end JsonlEventLogProvider

end AsmProto
