import AsmProto.KeyMachine
import AsmProto.Orders

set_option autoImplicit false

/-! # What the two programs are for

Seen by its operator, the pair of programs is a console over a list of keys, an event log and an SPB
status: an order changes the keys and is answered with one line. This file says which, without a word
on frames, sessions or stores, and that the replies of the service to the requests of orders are these
answers. -/

namespace AsmProto

/-- What an operator sees of a start of the initiator. -/
inductive Shown where
  | line (text : StdString)
  /-- The process failed, after it had inserted this into `std::cout`; it did not flush it, so that less
      of it may appear. -/
  | failure (text : StdString)

/-- The answer to an order: its code, how many bytes its payload takes, and its fields as they are
    printed, if they can be. -/
structure Report where
  code : GeneralResponse := .successful
  size : ℕ
  fields : Option StdString

namespace Report

open Initiator

def flag (label : String) (value : Bool) : Report :=
  { size := 1, fields := some (ascii label ++ flagText value) }

def ids (count list : String) (values : List UInt32) : Report :=
  { size := 8 + values.length * 4
    fields := some (ascii count ++ Numeral.print 10 values.length ++ ascii list ++ idsText values) }

end Report

namespace Order

/-- A key is refused if it would be one too many. -/
def Overflows (keys : List LeKeyRecord) (key : LeKeyRecord) : Prop :=
  kCapacity < keys.length + if key.keyId ∈ keys.map LeKeyRecord.keyId then 0 else 1

instance (keys : List LeKeyRecord) (key : LeKeyRecord) : Decidable (Overflows keys key) := by
  unfold Overflows
  infer_instance

/-- The keys an order leaves. -/
def after (keys : List LeKeyRecord) : Order → List LeKeyRecord
  | .load key => if Overflows keys key then keys else KeyedList.upsert LeKeyRecord.keyId keys key
  | .purge keyId => KeyedList.eraseKey LeKeyRecord.keyId keys keyId
  | .purgeAll => []
  | _ => keys

theorem after_load (keys : List LeKeyRecord) (key : LeKeyRecord) :
    (Order.load key).after keys
      = if Overflows keys key then keys else KeyedList.upsert LeKeyRecord.keyId keys key := rfl

/-- The answer to an order. -/
def report (events : List EventRecord) (status : QuerySpbStatus) (now : UInt64)
    (keys : List LeKeyRecord) : Order → Report
  | .getTime => { size := 8, fields := some (ascii " epoch=" ++ numeral now.toNat) }
  | .querySpb =>
      { size := 2, fields := some (ascii " protocol_ver=1" ++ ascii " status=" ++ status.toText) }
  | .eventList timeStart timeStop =>
      if timeStop < timeStart then { code := .invalid, size := 0, fields := none }
      else .ids " event_count=" " event_ids=" ((events.filter fun event =>
        timeStart ≤ event.timestampEpoch ∧ event.timestampEpoch ≤ timeStop).map EventRecord.eventId)
  | .event eventId =>
      match events.find? fun event => event.eventId = eventId with
      | none => { code := .invalid, size := 0, fields := some (ascii " xml=") }
      | some found =>
          { size := (renderEventXml found).length
            fields := some (ascii " xml=" ++ renderEventXml found) }
  | .load key =>
      { Report.flag " overflow=" (Overflows keys key) with
        code := if Overflows keys key then .failed else .successful }
  | .query keyId => .flag " key_present=" (keyId ∈ keys.map LeKeyRecord.keyId)
  | .queryAll => .ids " key_count=" " key_ids=" (keys.map LeKeyRecord.keyId)
  | .purge keyId => .flag " no_key_id=" (keyId ∉ keys.map LeKeyRecord.keyId)
  | .purgeAll => { size := 0, fields := some [] }

/-- The frame of the request. -/
def frame (order : Order) : ByteBuffer :=
  match encodeRequestFrame order.request with
  | .ok frame => frame
  | .error _ => []

end Order

/-- An order with the time it is received at and the peer that answers it. -/
structure Asked where
  order : Order
  now : UInt64
  peerThumbprint : StdString

namespace Asked

def head (asked : Asked) (command : Command) (code : GeneralResponse) : StdString :=
  ascii "peer=" ++ asked.peerThumbprint ++ ascii " command=" ++ command.toText ++ ascii " response="
    ++ code.toText

/-- What is shown of a report: an answer that fits no frame is a BadRequest, and one that fits no read
    is lost. -/
def shown (asked : Asked) (report : Report) : Shown :=
  if Klv.maxLength < 5 + report.size then
    .line (asked.head .badRequest .invalid ++ ascii " request_copy_hex="
      ++ bytesToHex asked.order.frame ++ ascii "\n")
  else if 4096 < 25 + report.size then .failure []
  else
    let head := asked.head asked.order.command report.code ++ ascii " request_id=1"
    match report.fields with
    | some fields => .line (head ++ fields ++ ascii "\n")
    | none => .failure head

end Asked

/-- The console; a start that gives no order fails. -/
def console (events : List EventRecord) (status : QuerySpbStatus) :
    Machine (Option Asked) Shown (List LeKeyRecord) where
  step keys
    | none => (.failure [], keys)
    | some asked =>
        (asked.shown (asked.order.report events status asked.now keys), asked.order.after keys)

namespace Order

/-! ## Requests of orders -/

theorem length_payload_le (order : Order) : order.payload.length ≤ 40 := by
  have hid : ∀ id : UInt32, (appendBeU32 [] id).length = 4 := by
    intro id
    rw [appendBeU32_eq, List.nil_append, u32Bytes_length]
  cases order with
  | getTime => exact Nat.zero_le 40
  | querySpb => exact Nat.zero_le 40
  | queryAll => exact Nat.zero_le 40
  | purgeAll => exact Nat.zero_le 40
  | eventList timeStart timeStop =>
      simp [payload, GetEventListPayloadCodec.encodeRequest, appendBeU32_eq]
  | event eventId => exact (hid eventId).trans_le (by decide)
  | query keyId => exact (hid keyId).trans_le (by decide)
  | purge keyId => exact (hid keyId).trans_le (by decide)
  | load key => simp [payload, LeKeyPayloadCodec.encodeLoadRequest_eq, batchBytes_length, recordItem]

theorem encode_frame (order : Order) : encodeRequestFrame order.request = .ok order.frame := by
  have hcommand : order.request.command ≠ .badRequest := by
    cases order <;> exact Command.noConfusion
  have hlen : order.request.payload.length ≤ 40 := order.length_payload_le
  obtain ⟨bytes, hbytes⟩ := (returns_encodeRequestFrame_iff order.request).2
    ⟨hcommand, by rw [Klv.maxLength]; omega⟩
  rw [frame, hbytes]

theorem decode_frame (order : Order) : decodeRequestFrame order.frame = .ok order.request :=
  decodeRequestFrame_eq_ok_iff.2 order.encode_frame

theorem length_frame_le (order : Order) : order.frame.length ≤ 64 := by
  have hlen : order.request.payload.length ≤ 40 := order.length_payload_le
  rw [length_of_decodeRequestFrame order.decode_frame]
  omega

theorem frame_ne_nil (order : Order) : order.frame ≠ [] := by
  intro hnil
  have hlen := length_of_decodeRequestFrame order.decode_frame
  rw [hnil, List.length_nil] at hlen
  omega

/-! ## The service answers orders -/

open Initiator

/-- The initiator prints these fields of the response, or throws. -/
def Prints (response : StandardResponse) (fields : Option StdString) : Prop :=
  ∀ out, match fields with
    | some text => (printPayload response).run out = .ok () (out ++ text)
    | none => ∃ ex, (printPayload response).run out = .error ex out

theorem run_decode_print {α : Type} {decoded : Except StdException α} {value : α} {out : StdString}
    (h : decoded = .ok value) (text : α → StdString) :
    ((do
      let value ← EStateM.liftExcept decoded
      print (text value)) : EStateM StdException StdString Unit).run out = .ok () (out ++ text value) := by
  rw [h]
  rfl

/-- The reply to a request of an order, as the console has it. -/
structure Reports (order : Order) (response : StandardResponse) (report : Report) : Prop where
  response_eq : response = regularResponse order.request response.payload report.code
  size : response.payload.length = report.size
  prints : 5 + report.size ≤ Klv.maxLength → Prints response report.fields

section Service

variable {σ : Type} {service : AsmService σ} {keysOf : σ → List LeKeyRecord}
  {events : List EventRecord} {status : QuerySpbStatus}

/-- The call of the store an order comes to. -/
def call : Order → Option StoreCall
  | .load key => some (.loadKeys [key])
  | .query keyId => some (.containsKey keyId)
  | .queryAll => some .listKeyIds
  | .purge keyId => some (.purgeKey keyId)
  | .purgeAll => some .purgeAll
  | _ => none

theorem asks_of_call {order : Order} {call : StoreCall} (h : order.call = some call) :
    AsmService.Asks order.request call := by
  cases order with
  | getTime => cases h
  | querySpb => cases h
  | eventList timeStart timeStop => cases h
  | event eventId => cases h
  | load key =>
      cases h
      exact ⟨rfl, LeKeyPayloadCodec.decodeLoadRequest_eq_ok_iff.2
        ⟨by simp, LeKeyPayloadCodec.encodeLoadRequest_eq [key]⟩⟩
  | query keyId =>
      cases h
      exact ⟨rfl, by rw [request, payload, LeKeyPayloadCodec.encodeQueryIdRequest, appendBeU32_eq,
        List.nil_append]⟩
  | queryAll =>
      cases h
      exact ⟨rfl, rfl⟩
  | purge keyId =>
      cases h
      exact ⟨rfl, by rw [request, payload, LeKeyPayloadCodec.encodePurgeIdRequest, appendBeU32_eq,
        List.nil_append]⟩
  | purgeAll =>
      cases h
      exact ⟨rfl, rfl⟩

theorem wouldOverflow_singleton (keys : List LeKeyRecord) (key : LeKeyRecord) :
    wouldOverflow [key] keys kCapacity = decide (Overflows keys key) := by
  rw [Bool.eq_iff_iff, wouldOverflow_iff, decide_eq_true_iff, Overflows]
  by_cases hmem : key.keyId ∈ keys.map LeKeyRecord.keyId
  · simp only [List.countP_singleton, hmem, not_true_eq_false, decide_false, Bool.false_eq_true,
      if_false, if_true]
  · simp only [List.countP_singleton, hmem, not_false_eq_true, decide_true, if_true, if_false]

/-- What an order means for the keys is what its call means. -/
theorem after_of_call {order : Order} {call : StoreCall} (h : order.call = some call)
    (keys : List LeKeyRecord) : call.after keys = order.after keys := by
  cases order with
  | getTime => cases h
  | querySpb => cases h
  | eventList timeStart timeStop => cases h
  | event eventId => cases h
  | load key =>
      cases h
      by_cases hoverflow : Overflows keys key
      · rw [StoreCall.after, wouldOverflow_singleton, decide_eq_true hoverflow, if_pos rfl, after_load,
          if_pos hoverflow]
      · rw [StoreCall.after, wouldOverflow_singleton, decide_eq_false hoverflow,
          if_neg Bool.false_ne_true, after_load, if_neg hoverflow, KeyedList.upsertAll_cons,
          KeyedList.upsertAll_nil]
  | query keyId =>
      cases h
      rfl
  | queryAll =>
      cases h
      rfl
  | purge keyId =>
      cases h
      rfl
  | purgeAll =>
      cases h
      rfl

theorem not_asks_of_call {order : Order} (h : order.call = none) (call : StoreCall) :
    ¬ AsmService.Asks order.request call := by
  intro hasks
  cases order with
  | getTime => cases call <;> cases hasks.1
  | querySpb => cases call <;> cases hasks.1
  | eventList timeStart timeStop => cases call <;> cases hasks.1
  | event eventId => cases call <;> cases hasks.1
  | load key => cases h
  | query keyId => cases h
  | queryAll => cases h
  | purge keyId => cases h
  | purgeAll => cases h

theorem after_of_not_call {order : Order} (h : order.call = none) (keys : List LeKeyRecord) :
    order.after keys = keys := by
  cases order with
  | getTime => rfl
  | querySpb => rfl
  | eventList timeStart timeStop => rfl
  | event eventId => rfl
  | load key => cases h
  | query keyId => cases h
  | queryAll => cases h
  | purge keyId => cases h
  | purgeAll => cases h

theorem requestId_ne_zero (order : Order) : order.request.requestId ≠ 0 :=
  (by decide : (1 : UInt32) ≠ 0)

/-- **An order changes the keys** as the console says. -/
theorem keys_receiveOn_frame (hmeans : service.leKeyStore.Means keysOf) (store : σ) (order : Order)
    (now : UInt64) :
    keysOf (service.receiveOn now order.frame store).2 = order.after (keysOf store) := by
  cases hcall : order.call with
  | none =>
      rw [AsmService.receiveOn_store_of_not_asks order.decode_frame (not_asks_of_call hcall),
        after_of_not_call hcall]
  | some call =>
      obtain ⟨store', hrun, hkeys⟩ := hmeans call store
      have hask := (@AsmService.received_eq_ask_iff σ service now _ _ _).2
        ⟨order.decode_frame, order.requestId_ne_zero, asks_of_call hcall⟩
      rw [AsmService.receiveOn_of_ask hask hrun, ← after_of_call hcall]
      exact hkeys

/-- A reply by one of the rules is reported. -/
theorem reports_of_replies {order : Order} {store : σ} {now : UInt64} {payload : ByteBuffer}
    {report : Report} (hreplies : Replies service now store order.request payload report.code)
    (hsize : payload.length = report.size)
    (hprints : 5 + report.size ≤ Klv.maxLength →
      Prints (regularResponse order.request payload report.code) report.fields) :
    Reports order (service.receiveOn now order.frame store).1.response report := by
  have hresponse := response_of_replies order.decode_frame order.requestId_ne_zero hreplies
  rw [hresponse]
  exact ⟨rfl, hsize, hprints⟩

/-- The reply to a call of the store is reported. -/
theorem reports_of_call {order : Order} {store : σ} {now : UInt64} {call : StoreCall} {report : Report}
    (hmeans : service.leKeyStore.Means keysOf) (hcall : order.call = some call)
    (hcode : (AsmService.keyReply order.request call (call.answer (keysOf store))).response.responseCode
      = report.code)
    (hsize : (AsmService.keyReply order.request call
      (call.answer (keysOf store))).response.payload.length = report.size)
    (hprints : 5 + report.size ≤ Klv.maxLength →
      Prints (AsmService.keyReply order.request call (call.answer (keysOf store))).response
        report.fields) :
    Reports order (service.receiveOn now order.frame store).1.response report := by
  obtain ⟨store', hrun, -⟩ := hmeans call store
  have hasks := asks_of_call hcall
  have hreplies : Replies service now store order.request _ _ := Replies.key call hasks _ _ hrun
  rw [hcode] at hreplies
  refine reports_of_replies hreplies hsize fun hfits => ?_
  have hprinted := hprints hfits
  rw [keyReply_response hasks, hcode] at hprinted
  exact hprinted

theorem lt_of_ids_fit {values : List UInt32} (h : 5 + (8 + values.length * 4) ≤ Klv.maxLength) :
    values.length < 2 ^ 32 := by
  rw [Klv.maxLength] at h
  omega

theorem reports_getTime (store : σ) (now : UInt64) :
    Reports .getTime (service.receiveOn now (frame .getTime) store).1.response
      (report events status now (keysOf store) .getTime) := by
  refine reports_of_replies (.getTime rfl) ?_ fun _ out => ?_
  · rw [appendBeU64_eq, List.nil_append, u64Bytes_length]
    rfl
  · have hdecode : decodeBeU64 (appendBeU64 [] now) 0 = .ok now := by
      rw [decodeBeU64_eq_ok_iff, appendBeU64_eq, List.nil_append, List.drop_zero,
        List.take_of_length_le (u64Bytes_length now).le]
    have hprint := @run_decode_print _ _ _ (out ++ ascii " epoch=") hdecode fun epoch =>
      Numeral.print 10 epoch.toNat
    rw [List.append_assoc] at hprint
    exact hprint

theorem reports_eventList (hevents : service.eventLogStore = .ofEvents events) (store : σ)
    (timeStart timeStop : UInt32) (now : UInt64) :
    Reports (.eventList timeStart timeStop)
      (service.receiveOn now (frame (.eventList timeStart timeStop)) store).1.response
      (report events status now (keysOf store) (.eventList timeStart timeStop)) := by
  have hpayload : GetEventListPayloadCodec.decodeRequest (eventList timeStart timeStop).request.payload
      = .ok { timeStart := timeStart, timeStop := timeStop } := by
    rw [GetEventListPayloadCodec.decodeRequest_eq_ok_iff, request, payload,
      GetEventListPayloadCodec.encodeRequest, appendBeU32_eq, appendBeU32_eq, List.nil_append]
  by_cases hreversed : timeStop < timeStart
  · rw [report, if_pos hreversed]
    exact reports_of_replies (.reversedWindow rfl _ hpayload hreversed) rfl fun _ out => ⟨_, rfl⟩
  · rw [report, if_neg hreversed]
    have hlist : service.eventLogStore.listEventIds timeStart timeStop
        = .ok (listEventIds events timeStart timeStop) := by
      rw [hevents]
      rfl
    refine reports_of_replies (.eventList rfl _ hpayload hreversed _ hlist)
      (GetEventListPayloadCodec.encodeResponse_length _) fun hfits out => ?_
    have hdecode := GetEventListPayloadCodec.decodeResponse_eq_ok_iff.2
      ⟨lt_of_ids_fit hfits, GetEventListPayloadCodec.encodeResponse_eq _⟩
    exact run_decode_print hdecode _

theorem reports_event (hevents : service.eventLogStore = .ofEvents events) (store : σ)
    (eventId : UInt32) (now : UInt64) :
    Reports (.event eventId) (service.receiveOn now (frame (.event eventId)) store).1.response
      (report events status now (keysOf store) (.event eventId)) := by
  have hpayload : GetEventIdPayloadCodec.decodeRequest (event eventId).request.payload
      = .ok eventId := by
    rw [GetEventIdPayloadCodec.decodeRequest, decodeIdPayload_eq_ok_iff, request, payload,
      GetEventIdPayloadCodec.encodeRequest, appendBeU32_eq, List.nil_append]
  have hxml : service.eventLogStore.getEventXml eventId
      = .ok ((events.find? fun event => event.eventId = eventId).map renderEventXml) := by
    rw [hevents]
    rfl
  rw [report]
  cases hfind : events.find? fun event => event.eventId = eventId with
  | none =>
      rw [hfind] at hxml
      exact reports_of_replies (.missingEvent rfl _ hpayload hxml) rfl fun _ out => rfl
  | some found =>
      rw [hfind] at hxml
      exact reports_of_replies (.event rfl _ hpayload _ hxml) rfl fun _ out => rfl

theorem reports_load (hmeans : service.leKeyStore.Means keysOf) (store : σ) (key : LeKeyRecord)
    (now : UInt64) :
    Reports (.load key) (service.receiveOn now (frame (.load key)) store).1.response
      (report events status now (keysOf store) (.load key)) := by
  have hflag : (StoreCall.answer (keysOf store) (.loadKeys [key])).flagValue
      = decide (Overflows (keysOf store) key) := wouldOverflow_singleton _ _
  refine reports_of_call hmeans rfl ?_ rfl fun _ out => ?_
  · simp only [AsmService.keyReply, answerTo, hflag, decide_eq_true_eq]
    rfl
  · simp only [AsmService.keyReply, hflag]
    exact run_decode_print (LeKeyPayloadCodec.decodeFlag_encodeFlag _ _) _

theorem reports_purge (hmeans : service.leKeyStore.Means keysOf) (store : σ) (keyId : UInt32)
    (now : UInt64) :
    Reports (.purge keyId) (service.receiveOn now (frame (.purge keyId)) store).1.response
      (report events status now (keysOf store) (.purge keyId)) := by
  refine reports_of_call hmeans rfl rfl rfl fun _ out => ?_
  have hflag : (!(StoreCall.answer (keysOf store) (.purgeKey keyId)).flagValue)
      = decide (keyId ∉ (keysOf store).map LeKeyRecord.keyId) := by
    rw [StoreCall.answer, StoreAnswer.flagValue, decide_not]
  simp only [AsmService.keyReply, hflag]
  exact run_decode_print (LeKeyPayloadCodec.decodeFlag_encodeFlag _ _) _

/-- **The reply to an order** is what the console reports. -/
theorem reports_order (hevents : service.eventLogStore = .ofEvents events)
    (hstatus : service.spbStatusProvider.currentStatus = status)
    (hmeans : service.leKeyStore.Means keysOf) (store : σ) (order : Order) (now : UInt64) :
    Reports order (service.receiveOn now order.frame store).1.response
      (order.report events status now (keysOf store)) := by
  cases order with
  | getTime => exact reports_getTime store now
  | querySpb =>
      refine reports_of_replies (.spb rfl rfl) rfl fun _ out => ?_
      rw [hstatus]
      exact run_decode_print (QuerySpbPayloadCodec.decodeResponse_eq_ok_iff.2 rfl) _
  | eventList timeStart timeStop => exact reports_eventList hevents store timeStart timeStop now
  | event eventId => exact reports_event hevents store eventId now
  | load key => exact reports_load hmeans store key now
  | query keyId =>
      exact reports_of_call hmeans rfl rfl rfl fun _ out =>
        run_decode_print (LeKeyPayloadCodec.decodeFlag_encodeFlag _ _) _
  | queryAll =>
      refine reports_of_call hmeans rfl rfl (LeKeyPayloadCodec.encodeQueryAllResponse_length _)
        fun hfits out => ?_
      have hdecode := LeKeyPayloadCodec.decodeQueryAllResponse_eq_ok_iff.2
        ⟨lt_of_ids_fit hfits, LeKeyPayloadCodec.encodeQueryAllResponse_eq _⟩
      exact run_decode_print hdecode _
  | purge keyId => exact reports_purge hmeans store keyId now
  | purgeAll =>
      refine reports_of_call hmeans rfl rfl rfl fun _ out => ?_
      show EStateM.Result.ok () out = _
      rw [List.append_nil]

end Service

end Order

end AsmProto
