import AsmProto.Batch
import AsmProto.Lib.Numeral

set_option autoImplicit false

/-! # Event log

`event_log.cpp` without its file loader: the records, the two queries every provider answers from
them, the XML a record is rendered to, and the payload codecs of `GetEventList` and `GetEventID`.
The two providers hold a vector of records and run the same two loops over it, so both are
`EventLogStore.ofEvents` of their vector. -/

namespace AsmProto

inductive EventSeverity where
  | info
  | warning
  | error
deriving Repr, DecidableEq

def EventSeverity.toText : EventSeverity → StdString
  | .info => ascii "info"
  | .warning => ascii "warning"
  | .error => ascii "error"

structure EventRecord where
  eventId : UInt32 := 0
  severity : EventSeverity := .info
  timestampEpoch : UInt32 := 0
  timestampText : StdString := []
  summary : StdString := []
deriving Repr, DecidableEq

/-- The virtual interface; an implementation may throw from either query. -/
structure EventLogStore where
  listEventIds : UInt32 → UInt32 → Except StdException (List UInt32)
  getEventXml : UInt32 → Except StdException (Option StdString)

/-! ## Rendering -/

/-- The `switch` of `escape_xml`: ampersand, angle brackets, double and single quote. -/
def escapeChar (ch : UInt8) : StdString :=
  if ch = 0x26 then ascii "&amp;"
  else if ch = 0x3c then ascii "&lt;"
  else if ch = 0x3e then ascii "&gt;"
  else if ch = 0x22 then ascii "&quot;"
  else if ch = 0x27 then ascii "&apos;"
  else [ch]

def escapeXml (value : StdString) : StdString := value.flatMap escapeChar

def renderEventXml (event : EventRecord) : StdString :=
  ascii "<LogRecord>"
    ++ ascii "<EventID>" ++ Numeral.print 10 event.eventId.toNat ++ ascii "</EventID>"
    ++ ascii "<Timestamp>" ++ escapeXml event.timestampText ++ ascii "</Timestamp>"
    ++ ascii "<Severity>" ++ escapeXml event.severity.toText ++ ascii "</Severity>"
    ++ ascii "<Summary>" ++ escapeXml event.summary ++ ascii "</Summary>"
    ++ ascii "</LogRecord>"

/-! ## Queries -/

def listEventIds (events : List EventRecord) (timeStart timeStop : UInt32) : List UInt32 :=
  (events.filter (fun event =>
    event.timestampEpoch ≥ timeStart ∧ event.timestampEpoch ≤ timeStop)).map (·.eventId)

/-- The first record with the id is rendered. -/
def getEventXml (events : List EventRecord) (eventId : UInt32) : Option StdString :=
  (events.find? (fun event => event.eventId = eventId)).map renderEventXml

/-- `InMemoryEventLogProvider` and `JsonlEventLogProvider` over their vector `events_`. -/
def EventLogStore.ofEvents (events : List EventRecord) : EventLogStore where
  listEventIds timeStart timeStop := .ok (AsmProto.listEventIds events timeStart timeStop)
  getEventXml eventId := .ok (AsmProto.getEventXml events eventId)

/-! ## Payload codecs -/

structure GetEventListRequestPayload where
  timeStart : UInt32 := 0
  timeStop : UInt32 := 0
deriving Repr, DecidableEq

namespace GetEventListPayloadCodec

/-- `encode_u32_batch` of `event_log.cpp`. -/
def encodeU32Batch (values : List UInt32) : ByteBuffer := encodeBatch 4 appendBeU32 values

/-- `decode_u32_batch` of `event_log.cpp`. -/
def decodeU32Batch (bytes : List UInt8) : Except StdException (List UInt32) :=
  decodeBatch 4 decodeBeU32 ⟨"batch payload too short", "unexpected batch item length",
    "batch payload size mismatch"⟩ bytes

def encodeRequest (payload : GetEventListRequestPayload) : ByteBuffer :=
  appendBeU32 (appendBeU32 [] payload.timeStart) payload.timeStop

def decodeRequest (bytes : List UInt8) : Except StdException GetEventListRequestPayload :=
  if bytes.length ≠ 8 then
    .error (.asmError "GetEventList request payload must be 8 bytes")
  else do
    let timeStart ← decodeBeU32 bytes 0
    let timeStop ← decodeBeU32 bytes 4
    .ok { timeStart := timeStart, timeStop := timeStop }

def encodeResponse (eventIds : List UInt32) : ByteBuffer := encodeU32Batch eventIds

def decodeResponse (bytes : List UInt8) : Except StdException (List UInt32) := decodeU32Batch bytes

/-- **What a `GetEventList` payload is**: the two bounds, nothing more. -/
theorem decodeRequest_eq_ok_iff {bytes : List UInt8} {payload : GetEventListRequestPayload} :
    decodeRequest bytes = .ok payload ↔
      bytes = u32Bytes payload.timeStart ++ u32Bytes payload.timeStop := by
  unfold decodeRequest
  split
  · next h =>
      refine ⟨fun hc => (nomatch hc), ?_⟩
      rintro rfl
      simp at h
  · next h =>
      simp only [Except.bind_eq_ok_iff, decodeBeU32_eq_ok_iff, Except.ok.injEq, List.drop_zero]
      constructor
      · intro hparts
        rcases hparts with ⟨timeStart, hstart, timeStop, hstop, rfl⟩
        have hrest : (bytes.drop 4).take 4 = bytes.drop 4 :=
          List.take_of_length_le (by simp only [List.length_drop]; omega)
        rw [hrest] at hstop
        rw [← hstart, ← hstop, List.take_append_drop]
      · rintro rfl
        refine ⟨payload.timeStart, List.take_left' (u32Bytes_length _), payload.timeStop, ?_, rfl⟩
        rw [List.drop_left' (u32Bytes_length _), List.take_of_length_le (by simp)]

theorem returns_decodeRequest_iff {bytes : List UInt8} :
    (decodeRequest bytes).Returns ↔ bytes.length = 8 := by
  constructor
  · intro hreturns
    rcases hreturns with ⟨payload, h⟩
    rw [decodeRequest_eq_ok_iff.1 h]
    simp
  · intro h
    obtain ⟨timeStart, hstart⟩ := returns_decodeBeU32_iff.2 (show 0 + 4 ≤ bytes.length by omega)
    obtain ⟨timeStop, hstop⟩ := returns_decodeBeU32_iff.2 (show 4 + 4 ≤ bytes.length by omega)
    refine ⟨{ timeStart := timeStart, timeStop := timeStop }, ?_⟩
    rw [decodeRequest, if_neg (by simpa using h), hstart, Except.ok_bind, hstop, Except.ok_bind]

theorem encodeResponse_eq (eventIds : List UInt32) :
    encodeResponse eventIds = batchBytes u32Item 4 eventIds :=
  encodeBatch_eq u32Item 4 appendBeU32_eq eventIds

theorem encodeResponse_length (eventIds : List UInt32) :
    (encodeResponse eventIds).length = 8 + eventIds.length * 4 := by
  rw [encodeResponse_eq, batchBytes_length, u32Item_width]

theorem decodeResponse_eq_ok_iff {bytes : List UInt8} {eventIds : List UInt32} :
    decodeResponse bytes = .ok eventIds ↔
      eventIds.length < 2 ^ 32 ∧ bytes = batchBytes u32Item 4 eventIds :=
  decodeBatch_eq_ok_iff u32Item 4 rfl

end GetEventListPayloadCodec

/-- The four-byte payload of the requests that carry one id; they differ in their error text. -/
def decodeIdPayload (tooLong : String) (bytes : List UInt8) : Except StdException UInt32 :=
  if bytes.length ≠ 4 then .error (.asmError tooLong) else decodeBeU32 bytes 0

theorem decodeIdPayload_eq_ok_iff {tooLong : String} {bytes : List UInt8} {id : UInt32} :
    decodeIdPayload tooLong bytes = .ok id ↔ bytes = u32Bytes id := by
  unfold decodeIdPayload
  split
  · next h =>
      refine ⟨fun hc => (nomatch hc), ?_⟩
      rintro rfl
      simp at h
  · next h => rw [decodeBeU32_eq_ok_iff, List.drop_zero, List.take_of_length_le (by omega)]

theorem returns_decodeIdPayload_iff {tooLong : String} {bytes : List UInt8} :
    (decodeIdPayload tooLong bytes).Returns ↔ bytes.length = 4 := by
  unfold decodeIdPayload
  split
  · next h =>
      refine ⟨fun ⟨id, hc⟩ => (nomatch hc), fun hc => absurd hc h⟩
  · next h => rw [returns_decodeBeU32_iff]; omega

namespace GetEventIdPayloadCodec

def encodeRequest (eventId : UInt32) : ByteBuffer := appendBeU32 [] eventId

def decodeRequest (bytes : List UInt8) : Except StdException UInt32 :=
  decodeIdPayload "GetEventID request payload must be 4 bytes" bytes

def encodeResponse (logRecordXml : StdString) : ByteBuffer := logRecordXml

/-- Any byte string is a log record text. -/
def decodeResponse (bytes : List UInt8) : Except StdException StdString := .ok bytes

end GetEventIdPayloadCodec

end AsmProto
