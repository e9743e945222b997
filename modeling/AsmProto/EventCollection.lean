import AsmProto.EventTimes
import AsmProto.EventXml
import AsmProto.Lib.KeyedList
import AsmProto.Replies

set_option autoImplicit false

/-! # Collecting events through the protocol

`GetEventList` lists the id of every record of the window, `GetEventID` renders the first record with
the id. A record can be collected when the two mean the same record; neither provider makes sure that
ids are distinct. -/

namespace AsmProto

/-! ## The two requests -/

def eventListRequest (timeStart timeStop : UInt32) (requestId : RequestId) : StandardRequest :=
  { command := .getEventList, requestId := requestId,
    payload := GetEventListPayloadCodec.encodeRequest { timeStart := timeStart, timeStop := timeStop } }

def eventIdRequest (eventId : UInt32) (requestId : RequestId) : StandardRequest :=
  { command := .getEventId, requestId := requestId,
    payload := GetEventIdPayloadCodec.encodeRequest eventId }

section Requests

variable {σ : Type} (service : AsmService σ) (now : UInt64) (store : σ)

/-- Every `GetEventList` for the window is answered with these ids. -/
def ListsEvents (timeStart timeStop : UInt32) (eventIds : List UInt32) : Prop :=
  ∀ message requestId, requestId ≠ 0 →
    decodeRequestFrame message = .ok (eventListRequest timeStart timeStop requestId) →
    ∃ payload, (service.receiveOn now message store).1.response
        = regularResponse (eventListRequest timeStart timeStop requestId) payload .successful ∧
      GetEventListPayloadCodec.decodeResponse payload = .ok eventIds

/-- Every `GetEventID` for the id is answered with this text. This is the answer of the service: where
    the text is longer than 16777210 bytes no frame holds it, and the server sends BadRequest. -/
def FetchesEvent (eventId : UInt32) (xml : StdString) : Prop :=
  ∀ message requestId, requestId ≠ 0 →
    decodeRequestFrame message = .ok (eventIdRequest eventId requestId) →
    ∃ payload, (service.receiveOn now message store).1.response
        = regularResponse (eventIdRequest eventId requestId) payload .successful ∧
      GetEventIdPayloadCodec.decodeResponse payload = .ok xml

/-- The event is listed once for the window, and its id fetches its own rendering. -/
def CollectsEvent (timeStart timeStop : UInt32) (event : EventRecord) : Prop :=
  ∃ eventIds, ListsEvents service now store timeStart timeStop eventIds ∧
    eventIds.count event.eventId = 1 ∧
    FetchesEvent service now store event.eventId (renderEventXml event)

end Requests

/-- The records of the window. -/
def eventsIn (events : List EventRecord) (timeStart timeStop : UInt32) : List EventRecord :=
  events.filter fun event => event.timestampEpoch ≥ timeStart ∧ event.timestampEpoch ≤ timeStop

/-- The id, the batch of the window's ids and the response code fit a frame. -/
def WindowFits (events : List EventRecord) (timeStart timeStop : UInt32) : Prop :=
  4 + (8 + (eventsIn events timeStart timeStop).length * 4) + 1 ≤ Klv.maxLength

/-- The event is the only record of the window with its id, and the first record of the log with its
    id reads the same. -/
def Unambiguous (events : List EventRecord) (timeStart timeStop : UInt32) (event : EventRecord) : Prop :=
  (KeyedList.records EventRecord.eventId (eventsIn events timeStart timeStop) event.eventId).length = 1 ∧
    ∃ first, KeyedList.lookup EventRecord.eventId events event.eventId = some first ∧
      first.timestampText = event.timestampText ∧ first.severity = event.severity ∧
      first.summary = event.summary

theorem listEventIds_eq (events : List EventRecord) (timeStart timeStop : UInt32) :
    listEventIds events timeStart timeStop
      = (eventsIn events timeStart timeStop).map EventRecord.eventId := rfl

theorem getEventXml_eq (events : List EventRecord) (eventId : UInt32) :
    getEventXml events eventId
      = (KeyedList.lookup EventRecord.eventId events eventId).map renderEventXml := rfl

theorem mem_eventsIn {events : List EventRecord} {timeStart timeStop : UInt32} {event : EventRecord} :
    event ∈ eventsIn events timeStart timeStop ↔
      event ∈ events ∧ timeStart ≤ event.timestampEpoch ∧ event.timestampEpoch ≤ timeStop := by
  simp [eventsIn]

/-- A request with a short payload has a frame. -/
theorem exists_requestFrame {request : StandardRequest} (hcommand : request.command ≠ .badRequest)
    (hlen : request.payload.length ≤ 8) : ∃ message, decodeRequestFrame message = .ok request := by
  obtain ⟨message, hmessage⟩ := (returns_encodeRequestFrame_iff request).2
    ⟨hcommand, (Nat.add_le_add_left hlen 4).trans (by decide)⟩
  exact ⟨message, decodeRequestFrame_eq_ok_iff.2 hmessage⟩

section Log

variable {σ : Type} {service : AsmService σ} {events : List EventRecord} {now : UInt64} {store : σ}
  {timeStart timeStop : UInt32} (hlog : service.eventLogStore = .ofEvents events)

/-- The ids of a window that fits decode as they were listed. -/
theorem decodeResponse_listEventIds (hfits : WindowFits events timeStart timeStop) :
    GetEventListPayloadCodec.decodeResponse
      (GetEventListPayloadCodec.encodeResponse (listEventIds events timeStart timeStop))
      = .ok (listEventIds events timeStart timeStop) := by
  refine GetEventListPayloadCodec.decodeResponse_eq_ok_iff.2
    ⟨?_, GetEventListPayloadCodec.encodeResponse_eq _⟩
  rw [listEventIds_eq, List.length_map]
  have hmax : Klv.maxLength < 2 ^ 32 := by decide
  unfold WindowFits at hfits
  omega

theorem decodeRequest_eventListRequest (timeStart timeStop : UInt32) (requestId : RequestId) :
    GetEventListPayloadCodec.decodeRequest (eventListRequest timeStart timeStop requestId).payload
      = .ok { timeStart := timeStart, timeStop := timeStop } := by
  rw [eventListRequest, GetEventListPayloadCodec.decodeRequest_eq_ok_iff,
    GetEventListPayloadCodec.encodeRequest, appendBeU32_eq, appendBeU32_eq, List.nil_append]

include hlog

theorem replies_eventList (hordered : timeStart ≤ timeStop) (requestId : RequestId) :
    Replies service now store (eventListRequest timeStart timeStop requestId)
      (GetEventListPayloadCodec.encodeResponse (listEventIds events timeStart timeStop))
      .successful := by
  refine .eventList rfl { timeStart := timeStart, timeStop := timeStop }
    (decodeRequest_eventListRequest timeStart timeStop requestId) (UInt32.not_lt.2 hordered) _ ?_
  rw [hlog]
  rfl

/-- **What a window lists**, to a client that decodes the answer. -/
theorem listsEvents_iff (hordered : timeStart ≤ timeStop)
    (hfits : WindowFits events timeStart timeStop) {eventIds : List UInt32} :
    ListsEvents service now store timeStart timeStop eventIds ↔
      eventIds = listEventIds events timeStart timeStop := by
  have hreply : ∀ {message requestId}, requestId ≠ 0 →
      decodeRequestFrame message = .ok (eventListRequest timeStart timeStop requestId) →
      (service.receiveOn now message store).1.response
        = regularResponse (eventListRequest timeStart timeStop requestId)
            (GetEventListPayloadCodec.encodeResponse (listEventIds events timeStart timeStop))
            .successful := by
    intro message requestId hid hmessage
    exact response_of_replies hmessage hid (replies_eventList hlog hordered requestId)
  constructor
  · intro hlists
    obtain ⟨message, hmessage⟩ := @exists_requestFrame (eventListRequest timeStart timeStop 1)
      (by simp [eventListRequest])
      (by simp [eventListRequest, GetEventListPayloadCodec.encodeRequest, appendBeU32_eq])
    obtain ⟨payload, hresponse, hids⟩ := hlists message 1 (by decide) hmessage
    rw [hreply (by decide) hmessage, regularResponse, regularResponse,
      StandardResponse.mk.injEq] at hresponse
    rw [← hresponse.2.2.1] at hids
    exact Except.ok.inj (hids.symm.trans (decodeResponse_listEventIds hfits))
  · intro heq message requestId hid hmessage
    subst heq
    exact ⟨_, hreply hid hmessage, decodeResponse_listEventIds hfits⟩

/-- **What an id fetches.** -/
theorem fetchesEvent_iff {eventId : UInt32} {xml : StdString} :
    FetchesEvent service now store eventId xml ↔ getEventXml events eventId = some xml := by
  have hpayload : GetEventIdPayloadCodec.decodeRequest
      (GetEventIdPayloadCodec.encodeRequest eventId) = .ok eventId := by
    rw [GetEventIdPayloadCodec.decodeRequest, decodeIdPayload_eq_ok_iff,
      GetEventIdPayloadCodec.encodeRequest, appendBeU32_eq, List.nil_append]
  have hstored : service.eventLogStore.getEventXml eventId = .ok (getEventXml events eventId) := by
    rw [hlog]
    rfl
  constructor
  · intro hfetches
    obtain ⟨message, hmessage⟩ := @exists_requestFrame (eventIdRequest eventId 1)
      (by simp [eventIdRequest])
      (by simp [eventIdRequest, GetEventIdPayloadCodec.encodeRequest, appendBeU32_eq])
    obtain ⟨payload, hresponse, hxml⟩ := hfetches message 1 (by decide) hmessage
    obtain rfl := Except.ok.inj hxml
    cases hget : getEventXml events eventId with
    | none =>
        rw [hget] at hstored
        rw [response_of_replies hmessage (show (1 : UInt32) ≠ 0 by decide)
          (.missingEvent rfl eventId hpayload hstored)] at hresponse
        simp [regularResponse] at hresponse
    | some stored =>
        rw [hget] at hstored
        rw [response_of_replies hmessage (show (1 : UInt32) ≠ 0 by decide)
          (.event rfl eventId hpayload stored hstored)] at hresponse
        simp only [regularResponse, StandardResponse.mk.injEq, GetEventIdPayloadCodec.encodeResponse,
          true_and, and_true] at hresponse
        rw [hresponse]
  · intro hget message requestId hid hmessage
    rw [hget] at hstored
    exact ⟨_, response_of_replies hmessage hid (.event rfl eventId hpayload xml hstored), rfl⟩

/-- A record of the window can be collected when nothing hides it. -/
theorem collectsEvent_iff (hordered : timeStart ≤ timeStop)
    (hfits : WindowFits events timeStart timeStop) {event : EventRecord} :
    CollectsEvent service now store timeStart timeStop event ↔
      Unambiguous events timeStart timeStop event := by
  unfold CollectsEvent Unambiguous
  simp only [listsEvents_iff hlog hordered hfits, fetchesEvent_iff hlog, exists_eq_left,
    listEventIds_eq, KeyedList.count_map_key, getEventXml_eq, Option.map_eq_some_iff,
    renderEventXml_eq_iff]
  refine and_congr_right fun _ => exists_congr fun first => and_congr_right fun hfirst => ?_
  exact and_iff_right (KeyedList.mem_of_lookup EventRecord.eventId hfirst).2

end Log

/-! ## The whole log -/

/-- The last second of the 32-bit time line. -/
theorem le_last (time : UInt32) : time ≤ 0xffffffff := by
  have hlast : (0xffffffff : UInt32).toNat = 4294967295 := by decide
  have := time.toNat_lt
  rw [UInt32.le_iff_toNat_le, hlast]
  omega

theorem eventsIn_full (events : List EventRecord) : eventsIn events 0 0xffffffff = events := by
  refine List.filter_eq_self.2 fun event _ => decide_eq_true ⟨?_, le_last event.timestampEpoch⟩
  exact UInt32.le_iff_toNat_le.2 (Nat.zero_le _)

/-- Without repeated ids nothing is hidden in any window. -/
theorem unambiguous_of_nodup {events : List EventRecord}
    (hnodup : (events.map EventRecord.eventId).Nodup) {timeStart timeStop : UInt32}
    {event : EventRecord} (h : event ∈ eventsIn events timeStart timeStop) :
    Unambiguous events timeStart timeStop event := by
  have hwindow : ((eventsIn events timeStart timeStop).map EventRecord.eventId).Nodup :=
    hnodup.sublist (List.filter_sublist.map EventRecord.eventId)
  have hone := KeyedList.records_of_nodup EventRecord.eventId hwindow
    (KeyedList.lookup_of_mem EventRecord.eventId hwindow h)
  refine ⟨by rw [hone, List.length_singleton], event, ?_, rfl, rfl, rfl⟩
  exact KeyedList.lookup_of_mem EventRecord.eventId hnodup (mem_eventsIn.1 h).1

theorem nodup_of_unambiguous {events : List EventRecord}
    (h : ∀ event ∈ eventsIn events 0 0xffffffff, Unambiguous events 0 0xffffffff event) :
    (events.map EventRecord.eventId).Nodup := by
  rw [List.nodup_iff_count_le_one]
  intro eventId
  by_cases hmem : eventId ∈ events.map EventRecord.eventId
  · obtain ⟨event, hevent, rfl⟩ := List.mem_map.1 hmem
    rw [eventsIn_full] at h
    have hone := (h event hevent).1
    rw [eventsIn_full] at hone
    rw [KeyedList.count_map_key, hone]
  · rw [List.count_eq_zero_of_not_mem hmem]
    exact Nat.zero_le 1

/-- **When every event can be collected.** A record of a window is listed exactly once, and fetched as
    itself, if and only if it is the only record of the window with its id and the first record of the
    log with its id reads the same; when all records of a window are collected, every id listed for it
    fetches a record of the window. Over all windows of a log this means that no id is repeated. -/
theorem events_collectable_iff {σ : Type} (events : List EventRecord) (leKeyStore : LeKeyStore σ)
    (spbStatusProvider : QuerySpbStatusProvider) (now : UInt64) (store : σ) :
    let service : AsmService σ :=
      { eventLogStore := .ofEvents events, leKeyStore := leKeyStore,
        spbStatusProvider := spbStatusProvider }
    (∀ timeStart timeStop, WindowFits events timeStart timeStop →
      ∀ event ∈ eventsIn events timeStart timeStop,
        (CollectsEvent service now store timeStart timeStop event ↔
          Unambiguous events timeStart timeStop event)) ∧
    (∀ timeStart timeStop eventIds, timeStart ≤ timeStop → WindowFits events timeStart timeStop →
      (∀ event ∈ eventsIn events timeStart timeStop,
        CollectsEvent service now store timeStart timeStop event) →
      ListsEvents service now store timeStart timeStop eventIds → ∀ eventId ∈ eventIds,
        ∃ event ∈ eventsIn events timeStart timeStop,
          FetchesEvent service now store eventId (renderEventXml event)) ∧
    (WindowFits events 0 0xffffffff →
      ((∀ timeStart timeStop, ∀ event ∈ eventsIn events timeStart timeStop,
        CollectsEvent service now store timeStart timeStop event) ↔
          (events.map EventRecord.eventId).Nodup)) := by
  intro service
  have hlog : service.eventLogStore = .ofEvents events := rfl
  have hordered : ∀ {timeStart timeStop event}, event ∈ eventsIn events timeStart timeStop →
      timeStart ≤ timeStop :=
    fun h => UInt32.le_trans (mem_eventsIn.1 h).2.1 (mem_eventsIn.1 h).2.2
  refine ⟨?_, ?_, ?_⟩
  · intro timeStart timeStop hfits event hevent
    exact collectsEvent_iff hlog (hordered hevent) hfits
  · intro timeStart timeStop eventIds hle hfits hall hlists eventId hmem
    rw [listsEvents_iff hlog hle hfits] at hlists
    rw [hlists, listEventIds_eq] at hmem
    obtain ⟨event, hevent, rfl⟩ := List.mem_map.1 hmem
    obtain ⟨_, -, -, hfetches⟩ := hall event hevent
    exact ⟨event, hevent, hfetches⟩
  · intro hfits
    -- every other window holds fewer records
    have hsmaller : ∀ timeStart timeStop, WindowFits events timeStart timeStop := by
      intro timeStart timeStop
      have hle : (eventsIn events timeStart timeStop).length ≤ events.length :=
        List.length_filter_le _ _
      unfold WindowFits at hfits ⊢
      rw [eventsIn_full] at hfits
      omega
    constructor
    · intro hall
      refine nodup_of_unambiguous fun event hevent => ?_
      exact (collectsEvent_iff hlog (by decide) hfits).1 (hall _ _ event hevent)
    · intro hnodup timeStart timeStop event hevent
      exact (collectsEvent_iff hlog (hordered hevent) (hsmaller timeStart timeStop)).2
        (unambiguous_of_nodup hnodup hevent)

/-- Two events five minutes apart under one id. -/
def repeatedIdEvents : List EventRecord :=
  [{ eventId := 1, timestampEpoch := 1776758400, timestampText := ascii "2026-04-21T08:00:00Z",
     summary := ascii "first" },
   { eventId := 1, timestampEpoch := 1776758700, timestampText := ascii "2026-04-21T08:05:00Z",
     summary := ascii "second" }]

/-- A line with id 1. -/
def idOneLine (timestamp summary : String) : StdString :=
  JsonlEventLogProvider.eventLine (Numeral.print 10 1) (ascii "info") (ascii timestamp) (ascii summary)

def repeatedIdFile : StdString :=
  idOneLine "2026-04-21T08:00:00Z" "first" ++ newline :: idOneLine "2026-04-21T08:05:00Z" "second"

theorem construct_repeatedIdFile :
    JsonlEventLogProvider.construct .getTime (some repeatedIdFile) = .ok repeatedIdEvents := by
  have hread : TimeReader.getTime.read (ascii "2026-04-21T08:00:00Z")
      = some { year := 126, mon := 3, mday := 21, hour := 8 } := by decide
  have hread' : TimeReader.getTime.read (ascii "2026-04-21T08:05:00Z")
      = some { year := 126, mon := 3, mday := 21, hour := 8, min := 5 } := by decide
  have hlines : Lines.getLines newline repeatedIdFile
      = [idOneLine "2026-04-21T08:00:00Z" "first", idOneLine "2026-04-21T08:05:00Z" "second"] := by
    rw [repeatedIdFile, Lines.getLines_append_sep newline (by decide),
      Lines.getLines_of_not_mem newline (by decide), if_neg (by decide)]
  refine readJsonlLines_eq_ok_iff.2 ?_
  rw [hlines]
  refine List.Forall₂.cons ?_ (List.Forall₂.cons ?_ List.Forall₂.nil)
  · exact (@JsonlEventLogProvider.parseJsonlLine_eventLine .getTime 1 .info _ _ _ (by decide)
      ⟨by decide, List.all_eq_true.1 (by decide)⟩ (List.all_eq_true.1 (by decide)) hread (by decide)).1
  · exact (@JsonlEventLogProvider.parseJsonlLine_eventLine .getTime 1 .info _ _ _ (by decide)
      ⟨by decide, List.all_eq_true.1 (by decide)⟩ (List.all_eq_true.1 (by decide)) hread' (by decide)).1

/-- The file is accepted. The window of the second event lists its id, which fetches the first. -/
theorem repeated_event_id_masked :
    JsonlEventLogProvider.construct .getTime (some repeatedIdFile) = .ok repeatedIdEvents ∧
    ∃ event ∈ eventsIn repeatedIdEvents 1776758700 1776758700,
      ListsEvents (AsmService.ofEvents repeatedIdEvents) 0 {} 1776758700 1776758700 [1] ∧
      ¬ FetchesEvent (AsmService.ofEvents repeatedIdEvents) 0 {} 1 (renderEventXml event) ∧
      ¬ CollectsEvent (AsmService.ofEvents repeatedIdEvents) 0 {} 1776758700 1776758700 event := by
  have hlog : (AsmService.ofEvents repeatedIdEvents).eventLogStore = .ofEvents repeatedIdEvents := rfl
  have hfits : WindowFits repeatedIdEvents 1776758700 1776758700 := by
    unfold WindowFits
    decide
  have hmissed : ¬ FetchesEvent (AsmService.ofEvents repeatedIdEvents) 0 {} 1
      (renderEventXml repeatedIdEvents[1]) := by
    intro hfetches
    have hget := (fetchesEvent_iff hlog).1 hfetches
    have hfirst : getEventXml repeatedIdEvents 1 = some (renderEventXml repeatedIdEvents[0]) := rfl
    rw [hfirst, Option.some.injEq, renderEventXml_eq_iff] at hget
    exact absurd hget (by decide)
  refine ⟨construct_repeatedIdFile, repeatedIdEvents[1], by decide,
    (listsEvents_iff hlog (by decide) hfits).2 (by decide), hmissed, ?_⟩
  intro hcollects
  obtain ⟨_, -, -, hfetches⟩ := hcollects
  exact hmissed hfetches

end AsmProto
