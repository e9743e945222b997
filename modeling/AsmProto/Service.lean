import AsmProto.LeKey.Store
import AsmProto.Lib.Machine
import AsmProto.QuerySpb
import AsmProto.Wire

set_option autoImplicit false

/-! # The ASM service

`service.cpp`: one handler a command, and the dispatch between them. The service reads the event log
and the SPB status, and calls the key store, whose state is the state of the computation; an exception
of a payload decoder, of the event log or of the store leaves the handler. -/

namespace AsmProto

structure AsmService (σ : Type) where
  eventLogStore : EventLogStore
  leKeyStore : LeKeyStore σ
  spbStatusProvider : QuerySpbStatusProvider

/-- A received byte string and the time it is received at. -/
abbrev ReceivedMessage := UInt64 × ByteBuffer

/-- A service over an event log and a key store in memory. -/
def AsmService.inMemory (eventLogStore : EventLogStore) (spbStatusProvider : QuerySpbStatusProvider) :
    AsmService InMemoryLeKeyStore where
  eventLogStore := eventLogStore
  leKeyStore := InMemoryLeKeyStore.toStore
  spbStatusProvider := spbStatusProvider

/-- A service over a list of events and a key store in memory. -/
def AsmService.ofEvents (events : List EventRecord) : AsmService InMemoryLeKeyStore :=
  .inMemory (.ofEvents events) { currentStatus := .notPlaying }

/-- The result a handler builds from the request it answers. -/
def answerTo (request : StandardRequest) (command : Command) (payload : ByteBuffer)
    (responseCode : GeneralResponse) (note : String) : ServiceResult :=
  { response := { command := command, requestId := some request.requestId, payload := payload,
                  responseCode := responseCode },
    note := note }

namespace AsmService

def badRequest (rawRequest : List UInt8) (reason : String) : ServiceResult :=
  { response := { command := .badRequest, requestId := none, payload := rawRequest,
                  responseCode := .invalid },
    note := reason }

def handleDecodeFailure (rawRequest : List UInt8) (reason : String) : ServiceResult :=
  badRequest rawRequest reason

/-- `now` is what `current_utc_epoch_seconds` reads. The payload of the request is not looked at. -/
def handleGetTime (now : UInt64) (request : StandardRequest) : ServiceResult :=
  answerTo request .getTime (appendBeU64 [] now) .successful "GetTime handled"

section Handlers

variable {σ : Type} (service : AsmService σ)

def handleGetEventList (request : StandardRequest) : Except StdException ServiceResult := do
  let payload ← GetEventListPayloadCodec.decodeRequest request.payload
  if payload.timeStart > payload.timeStop then
    .ok (answerTo request .getEventList [] .invalid
      "GetEventList rejected because time_start > time_stop")
  else do
    let eventIds ← service.eventLogStore.listEventIds payload.timeStart payload.timeStop
    .ok (answerTo request .getEventList (GetEventListPayloadCodec.encodeResponse eventIds) .successful
      "GetEventList handled")

def handleGetEventId (request : StandardRequest) : Except StdException ServiceResult := do
  let eventId ← GetEventIdPayloadCodec.decodeRequest request.payload
  let xml ← service.eventLogStore.getEventXml eventId
  match xml with
  | none =>
      .ok (answerTo request .getEventId [] .invalid
        "GetEventID rejected because event id was not found")
  | some xml =>
      .ok (answerTo request .getEventId (GetEventIdPayloadCodec.encodeResponse xml) .successful
        "GetEventID handled")

def handleQuerySpb (request : StandardRequest) : ServiceResult :=
  if request.payload ≠ [] then
    answerTo request .querySpb [] .invalid "QuerySPB rejected because payload was not empty"
  else
    answerTo request .querySpb
      (QuerySpbPayloadCodec.encodeResponse
        { protocolVersion := 0x01, status := service.spbStatusProvider.currentStatus })
      .successful "QuerySPB handled"

def handleLeKeyLoad (request : StandardRequest) : EStateM StdException σ ServiceResult := do
  let keys ← EStateM.liftExcept (LeKeyPayloadCodec.decodeLoadRequest request.payload)
  let overflow ← service.leKeyStore.loadKeys keys
  return answerTo request .leKeyLoad (LeKeyPayloadCodec.encodeLoadResponse overflow)
    (if overflow then .failed else .successful)
    (if overflow then "LEKeyLoad rejected because key buffer would overflow" else "LEKeyLoad handled")

def handleLeKeyQueryId (request : StandardRequest) : EStateM StdException σ ServiceResult := do
  let keyId ← EStateM.liftExcept (LeKeyPayloadCodec.decodeQueryIdRequest request.payload)
  let keyPresent ← EStateM.readExcept (service.leKeyStore.containsKey keyId)
  return answerTo request .leKeyQueryId (LeKeyPayloadCodec.encodeQueryIdResponse keyPresent) .successful
    "LEKeyQueryID handled"

def handleLeKeyQueryAll (request : StandardRequest) : EStateM StdException σ ServiceResult := do
  if request.payload ≠ [] then
    return answerTo request .leKeyQueryAll [] .invalid
      "LEKeyQueryAll rejected because payload was not empty"
  let keyIds ← EStateM.readExcept service.leKeyStore.listKeyIds
  return answerTo request .leKeyQueryAll (LeKeyPayloadCodec.encodeQueryAllResponse keyIds) .successful
    "LEKeyQueryAll handled"

def handleLeKeyPurgeId (request : StandardRequest) : EStateM StdException σ ServiceResult := do
  let keyId ← EStateM.liftExcept (LeKeyPayloadCodec.decodePurgeIdRequest request.payload)
  let removed ← service.leKeyStore.purgeKey keyId
  return answerTo request .leKeyPurgeId (LeKeyPayloadCodec.encodePurgeIdResponse (!removed)) .successful
    (if removed then "LEKeyPurgeID handled" else "LEKeyPurgeID handled with missing key id")

def handleLeKeyPurgeAll (request : StandardRequest) : EStateM StdException σ ServiceResult := do
  if request.payload ≠ [] then
    return answerTo request .leKeyPurgeAll [] .invalid
      "LEKeyPurgeAll rejected because payload was not empty"
  service.leKeyStore.purgeAll
  return answerTo request .leKeyPurgeAll [] .successful "LEKeyPurgeAll handled"

def handleRequest (now : UInt64) (request : StandardRequest) (rawRequest : List UInt8) :
    EStateM StdException σ ServiceResult :=
  if request.requestId = 0 then
    return badRequest rawRequest "request id must be non-zero"
  else
    match request.command with
    | .getTime => return handleGetTime now request
    | .getEventList => EStateM.liftExcept (service.handleGetEventList request)
    | .getEventId => EStateM.liftExcept (service.handleGetEventId request)
    | .querySpb => return service.handleQuerySpb request
    | .leKeyLoad => service.handleLeKeyLoad request
    | .leKeyQueryId => service.handleLeKeyQueryId request
    | .leKeyQueryAll => service.handleLeKeyQueryAll request
    | .leKeyPurgeId => service.handleLeKeyPurgeId request
    | .leKeyPurgeAll => service.handleLeKeyPurgeAll request
    | .badRequest => return badRequest rawRequest "unsupported request command"

/-- A received byte string through `Klv::decode`, `Codec::decode_request` and `handle_request`, or
    `handle_decode_failure` when one of them throws. -/
def receive (now : UInt64) (rawRequest : List UInt8) : EStateM StdException σ ServiceResult :=
  tryCatch
    (do
      let request ← EStateM.liftExcept (decodeRequestFrame rawRequest)
      service.handleRequest now request rawRequest)
    (fun ex => return handleDecodeFailure rawRequest ex.what)

end Handlers

/-! ## What the service decides

Every handler makes at most one call of the store, and decides without the store whether it does.
`plan` is that decision; what happens in a state follows from it alone. -/

/-- Answer at once, or answer with what the store says to one call. -/
inductive Plan where
  | reply (result : ServiceResult)
  | ask (request : StandardRequest) (call : StoreCall)

/-- The answer to a request from the answer of the store. -/
def keyReply (request : StandardRequest) (call : StoreCall) (answer : StoreAnswer) : ServiceResult :=
  match call with
  | .loadKeys _ =>
      answerTo request .leKeyLoad (LeKeyPayloadCodec.encodeLoadResponse answer.flagValue)
        (if answer.flagValue then .failed else .successful)
        (if answer.flagValue then "LEKeyLoad rejected because key buffer would overflow"
          else "LEKeyLoad handled")
  | .containsKey _ =>
      answerTo request .leKeyQueryId (LeKeyPayloadCodec.encodeQueryIdResponse answer.flagValue)
        .successful "LEKeyQueryID handled"
  | .listKeyIds =>
      answerTo request .leKeyQueryAll (LeKeyPayloadCodec.encodeQueryAllResponse answer.idList)
        .successful "LEKeyQueryAll handled"
  | .purgeKey _ =>
      answerTo request .leKeyPurgeId (LeKeyPayloadCodec.encodePurgeIdResponse (!answer.flagValue))
        .successful
        (if answer.flagValue then "LEKeyPurgeID handled" else "LEKeyPurgeID handled with missing key id")
  | .purgeAll => answerTo request .leKeyPurgeAll [] .successful "LEKeyPurgeAll handled"

section Plan

variable {σ : Type} (service : AsmService σ)

def plan (now : UInt64) (request : StandardRequest) (rawRequest : List UInt8) :
    Except StdException Plan :=
  if request.requestId = 0 then
    .ok (.reply (badRequest rawRequest "request id must be non-zero"))
  else
    match request.command with
    | .getTime => .ok (.reply (handleGetTime now request))
    | .getEventList => do
        let result ← service.handleGetEventList request
        .ok (.reply result)
    | .getEventId => do
        let result ← service.handleGetEventId request
        .ok (.reply result)
    | .querySpb => .ok (.reply (service.handleQuerySpb request))
    | .leKeyLoad => do
        let keys ← LeKeyPayloadCodec.decodeLoadRequest request.payload
        .ok (.ask request (.loadKeys keys))
    | .leKeyQueryId => do
        let keyId ← LeKeyPayloadCodec.decodeQueryIdRequest request.payload
        .ok (.ask request (.containsKey keyId))
    | .leKeyQueryAll =>
        -- `invalid` here, where the payload decoders of other commands throw
        if request.payload ≠ [] then
          .ok (.reply (answerTo request .leKeyQueryAll [] .invalid
            "LEKeyQueryAll rejected because payload was not empty"))
        else .ok (.ask request .listKeyIds)
    | .leKeyPurgeId => do
        let keyId ← LeKeyPayloadCodec.decodePurgeIdRequest request.payload
        .ok (.ask request (.purgeKey keyId))
    | .leKeyPurgeAll =>
        if request.payload ≠ [] then
          .ok (.reply (answerTo request .leKeyPurgeAll [] .invalid
            "LEKeyPurgeAll rejected because payload was not empty"))
        else .ok (.ask request .purgeAll)
    | .badRequest => .ok (.reply (badRequest rawRequest "unsupported request command"))

/-- A plan carried out on a store. -/
def Plan.run : Plan → EStateM StdException σ ServiceResult
  | .reply result => return result
  | .ask request call => return keyReply request call (← service.leKeyStore.call call)

/-- **The service carries out its plan.** -/
theorem run_handleRequest (now : UInt64) (request : StandardRequest) (rawRequest : List UInt8) (s : σ) :
    (service.handleRequest now request rawRequest).run s
      = match service.plan now request rawRequest with
        | .ok plan => (plan.run service).run s
        | .error ex => .error ex s := by
  unfold handleRequest plan
  split
  · rfl
  · cases request.command with
    | getTime => rfl
    | getEventList => cases h : service.handleGetEventList request <;> rfl
    | getEventId => cases h : service.handleGetEventId request <;> rfl
    | querySpb => rfl
    | leKeyLoad =>
        simp only [handleLeKeyLoad]
        cases LeKeyPayloadCodec.decodeLoadRequest request.payload with
        | error ex => rfl
        | ok keys =>
            simp only [EStateM.run_bind, EStateM.run_liftExcept_ok, Except.ok_bind, Plan.run,
              LeKeyStore.call]
            cases (service.leKeyStore.loadKeys keys).run s <;> rfl
    | leKeyQueryId =>
        simp only [handleLeKeyQueryId]
        cases LeKeyPayloadCodec.decodeQueryIdRequest request.payload with
        | error ex => rfl
        | ok keyId =>
            simp only [EStateM.run_bind, EStateM.run_liftExcept_ok, Except.ok_bind, Plan.run,
              LeKeyStore.call]
            cases (EStateM.readExcept (service.leKeyStore.containsKey keyId)).run s <;> rfl
    | leKeyQueryAll =>
        simp only [handleLeKeyQueryAll]
        by_cases hpayload : request.payload ≠ []
        · rw [if_pos hpayload, if_pos hpayload]
          rfl
        · rw [if_neg hpayload, if_neg hpayload]
          simp only [EStateM.run_bind, Plan.run, LeKeyStore.call]
          cases (EStateM.readExcept service.leKeyStore.listKeyIds).run s <;> rfl
    | leKeyPurgeId =>
        simp only [handleLeKeyPurgeId]
        cases LeKeyPayloadCodec.decodePurgeIdRequest request.payload with
        | error ex => rfl
        | ok keyId =>
            simp only [EStateM.run_bind, EStateM.run_liftExcept_ok, Except.ok_bind, Plan.run,
              LeKeyStore.call]
            cases (service.leKeyStore.purgeKey keyId).run s <;> rfl
    | leKeyPurgeAll =>
        simp only [handleLeKeyPurgeAll]
        by_cases hpayload : request.payload ≠ []
        · rw [if_pos hpayload, if_pos hpayload]
          rfl
        · rw [if_neg hpayload, if_neg hpayload]
          simp only [EStateM.run_bind, Plan.run, LeKeyStore.call]
          cases service.leKeyStore.purgeAll.run s <;> rfl
    | badRequest => rfl

/-- The plan for a received byte string; whatever throws before the store is asked gives BadRequest. -/
def received (now : UInt64) (rawRequest : List UInt8) : Plan :=
  match (do
      let request ← decodeRequestFrame rawRequest
      service.plan now request rawRequest : Except StdException Plan) with
  | .ok plan => plan
  | .error ex => .reply (handleDecodeFailure rawRequest ex.what)

/-- **A received byte string is always answered**: at once, from what the store says, or with
    BadRequest when the store throws. -/
theorem run_receive (now : UInt64) (rawRequest : List UInt8) (s : σ) :
    (service.receive now rawRequest).run s
      = match service.received now rawRequest with
        | .reply result => .ok result s
        | .ask request call =>
            match (service.leKeyStore.call call).run s with
            | .ok answer s' => .ok (keyReply request call answer) s'
            | .error ex s' => .ok (handleDecodeFailure rawRequest ex.what) s' := by
  unfold receive received
  rw [EStateM.run_try, EStateM.run_bind]
  cases decodeRequestFrame rawRequest with
  | error ex => rfl
  | ok request =>
      simp only [EStateM.run_liftExcept_ok, run_handleRequest, Except.ok_bind]
      cases service.plan now request rawRequest with
      | error ex => rfl
      | ok plan =>
          cases plan with
          | reply result => rfl
          | ask request call =>
              simp only [Plan.run, EStateM.run_bind]
              cases (service.leKeyStore.call call).run s <;> rfl

/-- What the service returns for a received byte string, and the store it leaves. -/
def receiveOn (now : UInt64) (rawRequest : List UInt8) (s : σ) : ServiceResult × σ :=
  match (service.receive now rawRequest).run s with
  | .ok result s' => (result, s')
  | .error ex s' => (handleDecodeFailure rawRequest ex.what, s')

/-- A received byte string never ends in an exception. -/
theorem run_receive_eq (now : UInt64) (rawRequest : List UInt8) (s : σ) :
    (service.receive now rawRequest).run s
      = .ok (service.receiveOn now rawRequest s).1 (service.receiveOn now rawRequest s).2 := by
  rw [receiveOn, run_receive]
  cases service.received now rawRequest with
  | reply result => rfl
  | ask request call =>
      dsimp only
      cases (service.leKeyStore.call call).run s <;> rfl

/-- The service as a machine over the states of its key store. -/
def machine (service : AsmService σ) : Machine ReceivedMessage ServiceResult σ where
  step store received := service.receiveOn received.1 received.2 store

theorem machine_step (service : AsmService σ) (store : σ) (received : ReceivedMessage) :
    service.machine.step store received = service.receiveOn received.1 received.2 store := rfl

end Plan

/-! ## The requests that ask the store -/

/-- The call a request makes of the store. -/
def Asks (request : StandardRequest) : StoreCall → Prop
  | .loadKeys keys =>
      request.command = .leKeyLoad ∧ LeKeyPayloadCodec.decodeLoadRequest request.payload = .ok keys
  | .containsKey keyId => request.command = .leKeyQueryId ∧ request.payload = u32Bytes keyId
  | .listKeyIds => request.command = .leKeyQueryAll ∧ request.payload = []
  | .purgeKey keyId => request.command = .leKeyPurgeId ∧ request.payload = u32Bytes keyId
  | .purgeAll => request.command = .leKeyPurgeAll ∧ request.payload = []

/-- Every command asks for its own call, and only when its payload decodes. -/
theorem plan_eq_ask_iff {σ : Type} {service : AsmService σ} {now : UInt64}
    {request request' : StandardRequest} {rawRequest : List UInt8} {call : StoreCall} :
    service.plan now request rawRequest = .ok (.ask request' call) ↔
      request = request' ∧ request.requestId ≠ 0 ∧ Asks request call := by
  unfold plan
  by_cases hid : request.requestId = 0
  · simp [hid]
  · rw [if_neg hid]
    cases hcommand : request.command with
    | getTime => cases call <;> simp [Asks, hcommand]
    | getEventList => cases call <;> simp [Asks, hcommand, Except.bind_eq_ok_iff]
    | getEventId => cases call <;> simp [Asks, hcommand, Except.bind_eq_ok_iff]
    | querySpb => cases call <;> simp [Asks, hcommand]
    | badRequest => cases call <;> simp [Asks, hcommand]
    | leKeyLoad =>
        cases call <;> simp [Asks, hcommand, Except.bind_eq_ok_iff, hid, and_comm]
    | leKeyQueryId =>
        cases call <;> simp [Asks, hcommand, Except.bind_eq_ok_iff, hid, and_comm,
          LeKeyPayloadCodec.decodeQueryIdRequest, decodeIdPayload_eq_ok_iff]
    | leKeyPurgeId =>
        cases call <;> simp [Asks, hcommand, Except.bind_eq_ok_iff, hid, and_comm,
          LeKeyPayloadCodec.decodePurgeIdRequest, decodeIdPayload_eq_ok_iff]
    | leKeyQueryAll =>
        by_cases hpayload : request.payload = []
        · cases call <;> simp [Asks, hcommand, hpayload, hid]
        · cases call <;> simp [Asks, hcommand, hpayload]
    | leKeyPurgeAll =>
        by_cases hpayload : request.payload = []
        · cases call <;> simp [Asks, hcommand, hpayload, hid]
        · cases call <;> simp [Asks, hcommand, hpayload]

section Received

variable {σ : Type} {service : AsmService σ} {now : UInt64} {rawRequest : List UInt8}

theorem receiveOn_of_reply {result : ServiceResult} (h : service.received now rawRequest = .reply result)
    (store : σ) : service.receiveOn now rawRequest store = (result, store) := by
  rw [receiveOn, run_receive, h]

theorem receiveOn_of_ask {request : StandardRequest} {call : StoreCall} {answer : StoreAnswer}
    {store store' : σ} (h : service.received now rawRequest = .ask request call)
    (hcall : (service.leKeyStore.call call).run store = .ok answer store') :
    service.receiveOn now rawRequest store = (keyReply request call answer, store') := by
  rw [receiveOn, run_receive, h]
  simp only [hcall]

theorem receiveOn_of_throw {request : StandardRequest} {call : StoreCall} {ex : StdException}
    {store store' : σ} (h : service.received now rawRequest = .ask request call)
    (hcall : (service.leKeyStore.call call).run store = .error ex store') :
    service.receiveOn now rawRequest store = (handleDecodeFailure rawRequest ex.what, store') := by
  rw [receiveOn, run_receive, h]
  simp only [hcall]

theorem receiveOn_of_error {ex : StdException} (h : decodeRequestFrame rawRequest = .error ex)
    (store : σ) :
    service.receiveOn now rawRequest store
      = (handleDecodeFailure rawRequest ex.what, store) := by
  unfold receiveOn receive
  rw [EStateM.run_try, EStateM.run_bind, h]
  rfl

theorem receiveOn_of_ok {request : StandardRequest} (h : decodeRequestFrame rawRequest = .ok request)
    (store : σ) :
    service.receiveOn now rawRequest store
      = match (service.handleRequest now request rawRequest).run store with
        | .ok result store' => (result, store')
        | .error ex store' => (handleDecodeFailure rawRequest ex.what, store') := by
  unfold receiveOn receive
  simp only [EStateM.run_try, EStateM.run_bind, h, EStateM.run_liftExcept_ok]
  cases (service.handleRequest now request rawRequest).run store with
  | error ex store' => rfl
  | ok result store' => rfl

/-- The byte strings whose answer depends on the store. -/
theorem received_eq_ask_iff {request : StandardRequest} {call : StoreCall} :
    service.received now rawRequest = .ask request call ↔
      decodeRequestFrame rawRequest = .ok request ∧ request.requestId ≠ 0 ∧ Asks request call := by
  unfold received
  cases hdecode : decodeRequestFrame rawRequest with
  | error ex => simp
  | ok decoded =>
      rw [Except.ok_bind]
      constructor
      · intro h
        split at h
        · next plan hplan =>
            subst h
            obtain ⟨rfl, hid, hasks⟩ := plan_eq_ask_iff.1 hplan
            exact ⟨rfl, hid, hasks⟩
        · simp at h
      · intro hparts
        rcases hparts with ⟨heq, hid, hasks⟩
        obtain rfl := Except.ok.inj heq
        rw [plan_eq_ask_iff.2 ⟨rfl, hid, hasks⟩]

/-- A request that asks the store for nothing leaves it alone. -/
theorem receiveOn_store_of_not_asks {request : StandardRequest}
    (hdecode : decodeRequestFrame rawRequest = .ok request) (h : ∀ call, ¬ Asks request call)
    (store : σ) : (service.receiveOn now rawRequest store).2 = store := by
  cases hreceived : service.received now rawRequest with
  | reply result => rw [receiveOn_of_reply hreceived]
  | ask request' call =>
      obtain ⟨hdecode', -, hasks⟩ := received_eq_ask_iff.1 hreceived
      obtain rfl := Except.ok.inj (hdecode.symm.trans hdecode')
      exact absurd hasks (h call)

/-- A message asks for one call only. -/
theorem forall_asks_iff {request : StandardRequest} {call : StoreCall}
    (h : service.received now rawRequest = .ask request call) (P : StoreCall → Prop) :
    (∀ request' call', decodeRequestFrame rawRequest = .ok request' → request'.requestId ≠ 0 →
      Asks request' call' → P call') ↔ P call := by
  obtain ⟨hdecode, hid, hasks⟩ := received_eq_ask_iff.1 h
  constructor
  · intro hall
    exact hall request call hdecode hid hasks
  · intro hcall request' call' hdecode' hid' hasks'
    have hask := (@received_eq_ask_iff _ service now _ _ _).2 ⟨hdecode', hid', hasks'⟩
    rw [h, Plan.ask.injEq] at hask
    exact hask.2 ▸ hcall

/-- A message that is answered at once asks for none. -/
theorem not_asks_of_reply {result : ServiceResult}
    (h : service.received now rawRequest = .reply result) {request : StandardRequest}
    {call : StoreCall} (hdecode : decodeRequestFrame rawRequest = .ok request)
    (hid : request.requestId ≠ 0) : ¬ Asks request call := by
  intro hasks
  have hask := (@received_eq_ask_iff _ service now _ _ _).2 ⟨hdecode, hid, hasks⟩
  simp [hask] at h

end Received

end AsmService

end AsmProto
