import AsmProto.Service

set_option autoImplicit false

/-! # The replies of the service

`Replies` lists the regular replies, one rule for each way a handler can return: the payload and the
response code for a request, from the event log and the state of the key store. A message that no
rule covers is answered with its BadRequest copy (`response_regular_or_copy`). -/

namespace AsmProto

variable {σ : Type}

/-- The regular reply to a request, in a state of the key store. -/
inductive Replies (service : AsmService σ) (now : UInt64) (store : σ) (request : StandardRequest) :
    ByteBuffer → GeneralResponse → Prop where
  | getTime (hcommand : request.command = .getTime) :
      Replies service now store request (appendBeU64 [] now) .successful
  | reversedWindow (hcommand : request.command = .getEventList)
      (window : GetEventListRequestPayload)
      (hpayload : GetEventListPayloadCodec.decodeRequest request.payload = .ok window)
      (hreversed : window.timeStart > window.timeStop) :
      Replies service now store request [] .invalid
  | eventList (hcommand : request.command = .getEventList)
      (window : GetEventListRequestPayload)
      (hpayload : GetEventListPayloadCodec.decodeRequest request.payload = .ok window)
      (hordered : ¬ window.timeStart > window.timeStop) (eventIds : List UInt32)
      (hlist : service.eventLogStore.listEventIds window.timeStart window.timeStop = .ok eventIds) :
      Replies service now store request (GetEventListPayloadCodec.encodeResponse eventIds) .successful
  | missingEvent (hcommand : request.command = .getEventId) (eventId : UInt32)
      (hpayload : GetEventIdPayloadCodec.decodeRequest request.payload = .ok eventId)
      (hmissing : service.eventLogStore.getEventXml eventId = .ok none) :
      Replies service now store request [] .invalid
  | event (hcommand : request.command = .getEventId) (eventId : UInt32)
      (hpayload : GetEventIdPayloadCodec.decodeRequest request.payload = .ok eventId)
      (xml : StdString) (hxml : service.eventLogStore.getEventXml eventId = .ok (some xml)) :
      Replies service now store request (GetEventIdPayloadCodec.encodeResponse xml) .successful
  | spb (hcommand : request.command = .querySpb) (hpayload : request.payload = []) :
      Replies service now store request
        (QuerySpbPayloadCodec.encodeResponse
          { protocolVersion := 0x01, status := service.spbStatusProvider.currentStatus }) .successful
  | surplus
      (hcommand : request.command = .querySpb ∨ request.command = .leKeyQueryAll
        ∨ request.command = .leKeyPurgeAll)
      (hpayload : request.payload ≠ []) :
      Replies service now store request [] .invalid
  | key (call : StoreCall) (hasks : AsmService.Asks request call) (answer : StoreAnswer) (store' : σ)
      (hcall : (service.leKeyStore.call call).run store = .ok answer store') :
      Replies service now store request (AsmService.keyReply request call answer).response.payload
        (AsmService.keyReply request call answer).response.responseCode

variable {service : AsmService σ} {now : UInt64} {store : σ} {request : StandardRequest}
  {requestBytes : ByteBuffer}

/-- The response with this payload and code that answers the request. -/
def regularResponse (request : StandardRequest) (payload : ByteBuffer) (code : GeneralResponse) :
    StandardResponse :=
  { command := request.command, requestId := some request.requestId, payload := payload,
    responseCode := code }

theorem answerTo_response {command : Command} {payload : ByteBuffer} {code : GeneralResponse}
    {note : String} (hcommand : request.command = command) :
    (answerTo request command payload code note).response = regularResponse request payload code := by
  rw [answerTo, regularResponse, hcommand]

/-- The copy of a message that BadRequest carries. -/
def badRequestCopy (requestBytes : List UInt8) : StandardResponse :=
  { command := .badRequest, requestId := none, payload := requestBytes, responseCode := .invalid }

theorem keyReply_response {call : StoreCall} (hasks : AsmService.Asks request call)
    (answer : StoreAnswer) :
    (AsmService.keyReply request call answer).response
      = regularResponse request (AsmService.keyReply request call answer).response.payload
          (AsmService.keyReply request call answer).response.responseCode := by
  have hcommand : (AsmService.keyReply request call answer).response.command = request.command ∧
      (AsmService.keyReply request call answer).response.requestId = some request.requestId := by
    cases call with
    | loadKeys keys => exact ⟨hasks.1.symm, rfl⟩
    | containsKey keyId => exact ⟨hasks.1.symm, rfl⟩
    | listKeyIds => exact ⟨hasks.1.symm, rfl⟩
    | purgeKey keyId => exact ⟨hasks.1.symm, rfl⟩
    | purgeAll => exact ⟨hasks.1.symm, rfl⟩
  rw [regularResponse, ← hcommand.1, ← hcommand.2]

/-- Only the id batch of a key reply grows with the store. -/
theorem keyReply_payload_length_le {call : StoreCall} (h : call ≠ .listKeyIds)
    (request : StandardRequest) (answer : StoreAnswer) :
    (AsmService.keyReply request call answer).response.payload.length ≤ 1 := by
  cases call with
  | loadKeys keys => exact le_refl 1
  | containsKey keyId => exact le_refl 1
  | listKeyIds => exact absurd rfl h
  | purgeKey keyId => exact le_refl 1
  | purgeAll => exact Nat.zero_le 1

theorem keyReply_payload_length_listKeyIds (request : StandardRequest) (answer : StoreAnswer) :
    (AsmService.keyReply request .listKeyIds answer).response.payload.length
      = 8 + answer.idList.length * 4 :=
  LeKeyPayloadCodec.encodeQueryAllResponse_length answer.idList

/-- A plan to reply at once is carried out whatever the store holds. -/
theorem response_of_plan_reply {result : ServiceResult}
    (hdecode : decodeRequestFrame requestBytes = .ok request)
    (hplan : service.plan now request requestBytes = .ok (.reply result)) :
    (service.receiveOn now requestBytes store).1.response = result.response := by
  rw [AsmService.receiveOn_of_ok hdecode, AsmService.run_handleRequest]
  simp only [hplan]
  rfl

theorem response_of_ask {call : StoreCall} {answer : StoreAnswer} {store' : σ}
    (hdecode : decodeRequestFrame requestBytes = .ok request) (hid : request.requestId ≠ 0)
    (hasks : AsmService.Asks request call)
    (hcall : (service.leKeyStore.call call).run store = .ok answer store') :
    (service.receiveOn now requestBytes store).1.response
      = (AsmService.keyReply request call answer).response := by
  rw [AsmService.receiveOn_of_ask (AsmService.received_eq_ask_iff.2 ⟨hdecode, hid, hasks⟩) hcall]

/-- An answer under the command of the request is regular. -/
theorem response_of_plan_answer {command : Command} {payload : ByteBuffer} {code : GeneralResponse}
    {note : String} (hdecode : decodeRequestFrame requestBytes = .ok request)
    (hcommand : request.command = command)
    (hplan : service.plan now request requestBytes
      = .ok (.reply (answerTo request command payload code note))) :
    (service.receiveOn now requestBytes store).1.response = regularResponse request payload code := by
  rw [response_of_plan_reply hdecode hplan]
  exact answerTo_response hcommand

/-- **A rule's reply is the reply of the service.** -/
theorem response_of_replies {payload : ByteBuffer} {code : GeneralResponse}
    (hdecode : decodeRequestFrame requestBytes = .ok request) (hid : request.requestId ≠ 0)
    (h : Replies service now store request payload code) :
    (service.receiveOn now requestBytes store).1.response = regularResponse request payload code := by
  cases h with
  | getTime hcommand =>
      exact response_of_plan_answer hdecode hcommand (by
        simp only [AsmService.plan, if_neg hid, hcommand]
        rfl)
  | reversedWindow hcommand window hpayload hreversed =>
      exact response_of_plan_answer hdecode hcommand (by
        simp only [AsmService.plan, if_neg hid, hcommand, AsmService.handleGetEventList, hpayload,
          Except.ok_bind, if_pos hreversed]
        rfl)
  | eventList hcommand window hpayload hordered eventIds hlist =>
      exact response_of_plan_answer hdecode hcommand (by
        simp only [AsmService.plan, if_neg hid, hcommand, AsmService.handleGetEventList, hpayload,
          Except.ok_bind, if_neg hordered, hlist]
        rfl)
  | missingEvent hcommand eventId hpayload hmissing =>
      exact response_of_plan_answer hdecode hcommand (by
        simp only [AsmService.plan, if_neg hid, hcommand, AsmService.handleGetEventId, hpayload,
          Except.ok_bind, hmissing]
        rfl)
  | event hcommand eventId hpayload xml hxml =>
      exact response_of_plan_answer hdecode hcommand (by
        simp only [AsmService.plan, if_neg hid, hcommand, AsmService.handleGetEventId, hpayload,
          Except.ok_bind, hxml]
        rfl)
  | spb hcommand hpayload =>
      exact response_of_plan_answer hdecode hcommand (by
        simp only [AsmService.plan, if_neg hid, hcommand, AsmService.handleQuerySpb,
          if_neg (not_not.2 hpayload)]
        rfl)
  | surplus hcommand hpayload =>
      rcases hcommand with hcommand | hcommand | hcommand
      · exact response_of_plan_answer hdecode hcommand (by
          simp only [AsmService.plan, if_neg hid, hcommand, AsmService.handleQuerySpb,
            if_pos hpayload]
          rfl)
      · exact response_of_plan_answer hdecode hcommand (by
          simp only [AsmService.plan, if_neg hid, hcommand, if_pos hpayload]
          rfl)
      · exact response_of_plan_answer hdecode hcommand (by
          simp only [AsmService.plan, if_neg hid, hcommand, if_pos hpayload]
          rfl)
  | key call hasks answer store' hcall =>
      rw [response_of_ask hdecode hid hasks hcall]
      exact keyReply_response hasks answer

/-- The answer of a rule is no BadRequest. -/
theorem regular_of_replies {result : ServiceResult} {command : Command} {payload : ByteBuffer}
    {code : GeneralResponse} {note : String} (hid : request.requestId ≠ 0)
    (hcommand : request.command = command)
    (hreplies : Replies service now store request payload code)
    (hresult : answerTo request command payload code note = result) :
    result.response = badRequestCopy requestBytes ∨
      request.requestId ≠ 0 ∧ ∃ payload code, Replies service now store request payload code ∧
        result.response = regularResponse request payload code :=
  Or.inr ⟨hid, payload, code, hreplies, hresult ▸ answerTo_response hcommand⟩

/-- An answer the service gives at once follows a rule, unless it is a BadRequest. -/
theorem replies_of_plan_eq_reply {result : ServiceResult}
    (h : service.plan now request requestBytes = .ok (.reply result)) :
    result.response = badRequestCopy requestBytes ∨
      request.requestId ≠ 0 ∧ ∃ payload code, Replies service now store request payload code ∧
        result.response = regularResponse request payload code := by
  unfold AsmService.plan at h
  by_cases hid : request.requestId = 0
  · rw [if_pos hid, Except.ok.injEq, AsmService.Plan.reply.injEq] at h
    exact Or.inl (h ▸ rfl)
  · rw [if_neg hid] at h
    cases hcommand : request.command with
    | getTime =>
        simp only [hcommand, Except.ok.injEq, AsmService.Plan.reply.injEq] at h
        exact regular_of_replies hid hcommand (.getTime hcommand) h
    | getEventList =>
        simp only [hcommand, Except.bind_eq_ok_iff, Except.ok.injEq, AsmService.Plan.reply.injEq,
          exists_eq_right] at h
        obtain ⟨window, hpayload, h⟩ := Except.bind_eq_ok_iff.1 h
        split at h
        · next hreversed =>
            exact regular_of_replies hid hcommand
              (.reversedWindow hcommand window hpayload hreversed) (Except.ok.inj h)
        · next hordered =>
            obtain ⟨eventIds, hlist, h⟩ := Except.bind_eq_ok_iff.1 h
            exact regular_of_replies hid hcommand
              (.eventList hcommand window hpayload hordered eventIds hlist) (Except.ok.inj h)
    | getEventId =>
        simp only [hcommand, Except.bind_eq_ok_iff, Except.ok.injEq, AsmService.Plan.reply.injEq,
          exists_eq_right] at h
        obtain ⟨eventId, hpayload, h⟩ := Except.bind_eq_ok_iff.1 h
        obtain ⟨xml, hxml, h⟩ := Except.bind_eq_ok_iff.1 h
        cases xml with
        | none =>
            exact regular_of_replies hid hcommand
              (.missingEvent hcommand eventId hpayload hxml) (Except.ok.inj h)
        | some xml =>
            exact regular_of_replies hid hcommand
              (.event hcommand eventId hpayload xml hxml) (Except.ok.inj h)
    | querySpb =>
        simp only [hcommand, Except.ok.injEq, AsmService.Plan.reply.injEq,
          AsmService.handleQuerySpb] at h
        split at h
        · next hpayload =>
            exact regular_of_replies hid hcommand (.surplus (Or.inl hcommand) hpayload) h
        · next hpayload =>
            exact regular_of_replies hid hcommand (.spb hcommand (not_not.1 hpayload)) h
    | leKeyLoad => simp [hcommand, Except.bind_eq_ok_iff] at h
    | leKeyQueryId => simp [hcommand, Except.bind_eq_ok_iff] at h
    | leKeyPurgeId => simp [hcommand, Except.bind_eq_ok_iff] at h
    | leKeyQueryAll =>
        simp only [hcommand] at h
        split at h
        · next hpayload =>
            rw [Except.ok.injEq, AsmService.Plan.reply.injEq] at h
            exact regular_of_replies hid hcommand (.surplus (Or.inr (Or.inl hcommand)) hpayload) h
        · simp at h
    | leKeyPurgeAll =>
        simp only [hcommand] at h
        split at h
        · next hpayload =>
            rw [Except.ok.injEq, AsmService.Plan.reply.injEq] at h
            exact regular_of_replies hid hcommand (.surplus (Or.inr (Or.inr hcommand)) hpayload) h
        · simp at h
    | badRequest =>
        simp only [hcommand, Except.ok.injEq, AsmService.Plan.reply.injEq] at h
        exact Or.inl (h ▸ rfl)

/-- The request gets a regular reply: its payload decodes, and neither the event log nor the key store
    throws. -/
def AcceptsRequest (service : AsmService σ) (store : σ) (request : StandardRequest) : Prop :=
  request.command = .getTime ∨ request.command = .querySpb ∨
  (request.command = .getEventList ∧ ∃ window,
    GetEventListPayloadCodec.decodeRequest request.payload = .ok window ∧
      (window.timeStart > window.timeStop ∨
        (service.eventLogStore.listEventIds window.timeStart window.timeStop).Returns)) ∨
  (request.command = .getEventId ∧ ∃ eventId,
    GetEventIdPayloadCodec.decodeRequest request.payload = .ok eventId ∧
      (service.eventLogStore.getEventXml eventId).Returns) ∨
  ((request.command = .leKeyQueryAll ∨ request.command = .leKeyPurgeAll) ∧ request.payload ≠ []) ∨
  ∃ call answer store', AsmService.Asks request call ∧
    (service.leKeyStore.call call).run store = .ok answer store'

theorem exists_replies_iff {service : AsmService σ} {now : UInt64} {store : σ}
    {request : StandardRequest} :
    (∃ payload code, Replies service now store request payload code) ↔
      AcceptsRequest service store request := by
  constructor
  · intro hexists
    rcases hexists with ⟨payload, code, h⟩
    cases h with
    | getTime hcommand => exact Or.inl hcommand
    | reversedWindow hcommand window hpayload hreversed =>
        exact Or.inr (Or.inr (Or.inl ⟨hcommand, window, hpayload, Or.inl hreversed⟩))
    | eventList hcommand window hpayload hordered eventIds hlist =>
        exact Or.inr (Or.inr (Or.inl ⟨hcommand, window, hpayload, Or.inr ⟨eventIds, hlist⟩⟩))
    | missingEvent hcommand eventId hpayload hmissing =>
        exact Or.inr (Or.inr (Or.inr (Or.inl ⟨hcommand, eventId, hpayload, none, hmissing⟩)))
    | event hcommand eventId hpayload xml hxml =>
        exact Or.inr (Or.inr (Or.inr (Or.inl ⟨hcommand, eventId, hpayload, some xml, hxml⟩)))
    | spb hcommand hpayload => exact Or.inr (Or.inl hcommand)
    | surplus hcommand hpayload =>
        rcases hcommand with hcommand | hcommand
        · exact Or.inr (Or.inl hcommand)
        · exact Or.inr (Or.inr (Or.inr (Or.inr (Or.inl ⟨hcommand, hpayload⟩))))
    | key call hasks answer store' hcall =>
        exact Or.inr (Or.inr (Or.inr (Or.inr (Or.inr ⟨call, answer, store', hasks, hcall⟩))))
  · intro haccepts
    rcases haccepts with hcommand | hcommand | ⟨hcommand, window, hpayload, hwindow⟩ |
      ⟨hcommand, eventId, hpayload, xml, hxml⟩ | ⟨hcommand, hpayload⟩ |
      ⟨call, answer, store', hasks, hcall⟩
    · exact ⟨_, _, .getTime hcommand⟩
    · by_cases hpayload : request.payload = []
      · exact ⟨_, _, .spb hcommand hpayload⟩
      · exact ⟨_, _, .surplus (Or.inl hcommand) hpayload⟩
    · by_cases hreversed : window.timeStart > window.timeStop
      · exact ⟨_, _, .reversedWindow hcommand window hpayload hreversed⟩
      · obtain ⟨eventIds, hlist⟩ := hwindow.resolve_left hreversed
        exact ⟨_, _, .eventList hcommand window hpayload hreversed eventIds hlist⟩
    · cases xml with
      | none => exact ⟨_, _, .missingEvent hcommand eventId hpayload hxml⟩
      | some xml => exact ⟨_, _, .event hcommand eventId hpayload xml hxml⟩
    · exact ⟨_, _, .surplus (Or.inr hcommand) hpayload⟩
    · exact ⟨_, _, .key call hasks answer store' hcall⟩

/-- The regular response to the request a message holds. -/
def RegularReply (service : AsmService σ) (now : UInt64) (store : σ) (requestBytes : ByteBuffer)
    (response : StandardResponse) : Prop :=
  ∃ request payload code, decodeRequestFrame requestBytes = .ok request ∧ request.requestId ≠ 0 ∧
    Replies service now store request payload code ∧
    response = regularResponse request payload code

/-- A request that was decoded is not a BadRequest. -/
theorem command_ne_badRequest (hdecode : decodeRequestFrame requestBytes = .ok request) :
    request.command ≠ .badRequest :=
  ((returns_encodeRequestFrame_iff request).1 ⟨_, decodeRequestFrame_eq_ok_iff.1 hdecode⟩).1

theorem RegularReply.response_eq {response : StandardResponse}
    (h : RegularReply service now store requestBytes response) :
    (service.receiveOn now requestBytes store).1.response = response := by
  obtain ⟨request, payload, code, hdecode, hid, hreplies, rfl⟩ := h
  exact response_of_replies hdecode hid hreplies

/-- **The service answers every message**: with the reply of a rule, or with the BadRequest copy when
    no rule gives one. -/
theorem response_regular_or_copy (service : AsmService σ) (now : UInt64) (store : σ)
    (requestBytes : ByteBuffer) :
    RegularReply service now store requestBytes
        (service.receiveOn now requestBytes store).1.response ∨
      ((service.receiveOn now requestBytes store).1.response = badRequestCopy requestBytes ∧
        ∀ response, ¬ RegularReply service now store requestBytes response) := by
  -- a copy excludes every rule, because a decoded request is not a BadRequest
  have hcopy : (service.receiveOn now requestBytes store).1.response = badRequestCopy requestBytes →
      ∀ response, ¬ RegularReply service now store requestBytes response := by
    intro hresponse response hregular
    have heq := hregular.response_eq
    obtain ⟨request, payload, code, hdecode, -, -, rfl⟩ := hregular
    rw [hresponse] at heq
    exact command_ne_badRequest hdecode (congrArg StandardResponse.command heq).symm
  cases hdecode : decodeRequestFrame requestBytes with
  | error ex =>
      have hresponse : (service.receiveOn now requestBytes store).1.response
          = badRequestCopy requestBytes := by
        rw [AsmService.receiveOn_of_error hdecode]
        rfl
      exact Or.inr ⟨hresponse, hcopy hresponse⟩
  | ok request =>
      cases hplan : service.plan now request requestBytes with
      | error ex =>
          have hresponse : (service.receiveOn now requestBytes store).1.response
              = badRequestCopy requestBytes := by
            rw [AsmService.receiveOn_of_ok hdecode, AsmService.run_handleRequest]
            simp only [hplan]
            rfl
          exact Or.inr ⟨hresponse, hcopy hresponse⟩
      | ok plan =>
          cases plan with
          | reply result =>
              have hresponse := @response_of_plan_reply σ service now store _ _ _ hdecode hplan
              rcases @replies_of_plan_eq_reply σ service now store _ _ _ hplan with
                hbad | ⟨hid, payload, code, hreplies, hregular⟩
              · exact Or.inr ⟨hresponse.trans hbad, hcopy (hresponse.trans hbad)⟩
              · exact Or.inl ⟨request, payload, code, hdecode, hid, hreplies,
                  hresponse.trans hregular⟩
          | ask request' call =>
              obtain ⟨rfl, hid, hasks⟩ := AsmService.plan_eq_ask_iff.1 hplan
              cases hcall : (service.leKeyStore.call call).run store with
              | ok answer store' =>
                  refine Or.inl ⟨request, _, _, hdecode, hid, .key call hasks answer store' hcall, ?_⟩
                  rw [response_of_ask hdecode hid hasks hcall]
                  exact keyReply_response hasks answer
              | error ex store' =>
                  have hresponse : (service.receiveOn now requestBytes store).1.response
                      = badRequestCopy requestBytes := by
                    rw [AsmService.receiveOn_of_ok hdecode, AsmService.run_handleRequest]
                    simp only [hplan, AsmService.Plan.run, EStateM.run_bind, hcall]
                    rfl
                  exact Or.inr ⟨hresponse, hcopy hresponse⟩

end AsmProto
