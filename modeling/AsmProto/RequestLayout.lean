import AsmProto.Atomicity

set_option autoImplicit false

/-! # Well-formed requests and BadRequest

`WellFormedRequest` says from the layout of Annex A alone which messages are requests. The payload
decoders enforce their part of it; four commands without a payload do not, and `SurplusPayload` is
exactly where the service answers a malformed message with something else than BadRequest. -/

namespace AsmProto

/-- The layout of the payload of a request. -/
def PayloadLayout : Command → ByteBuffer → Prop
  | .getTime, payload => payload = []
  | .querySpb, payload => payload = []
  | .leKeyQueryAll, payload => payload = []
  | .leKeyPurgeAll, payload => payload = []
  | .getEventId, payload => payload.length = 4
  | .leKeyQueryId, payload => payload.length = 4
  | .leKeyPurgeId, payload => payload.length = 4
  | .getEventList, payload => payload.length = 8
  | .leKeyLoad, payload => 8 ≤ payload.length ∧ beValue ((payload.drop 4).take 4) = 32 ∧
      payload.length = 8 + beValue (payload.take 4) * 32
  | .badRequest, _ => False

/-- The message is a KLV frame of exact length under a request label, with this id and payload. -/
def FramesRequest (message : ByteBuffer) (command : Command) (requestId : RequestId)
    (payload : ByteBuffer) : Prop :=
  ∃ ul, Codec.ulFor command false = .ok ul ∧ 4 + payload.length ≤ Klv.maxLength ∧
    message = frameBytes ul (u32Bytes requestId ++ payload)

def WellFormedRequest (message : ByteBuffer) : Prop :=
  ∃ command requestId payload, FramesRequest message command requestId payload ∧ requestId ≠ 0 ∧
    PayloadLayout command payload

/-- A request of a command without payload that carries one. -/
def SurplusPayload (message : ByteBuffer) : Prop :=
  ∃ command requestId payload, FramesRequest message command requestId payload ∧ requestId ≠ 0 ∧
    (command = .getTime ∨ command = .querySpb ∨ command = .leKeyQueryAll ∨ command = .leKeyPurgeAll) ∧
    payload ≠ []

theorem framesRequest_iff {message : ByteBuffer} {command : Command} {requestId : RequestId}
    {payload : ByteBuffer} :
    FramesRequest message command requestId payload ↔
      decodeRequestFrame message
        = .ok { command := command, requestId := requestId, payload := payload } := by
  rw [decodeRequestFrame_eq_ok_iff, encodeRequestFrame_eq_ok_iff]
  simp only [requestValue_length]
  rfl

/-- Neither the event log nor the key store throws. -/
structure AsmService.StoresReturn {σ : Type} (service : AsmService σ) (store : σ) : Prop where
  eventIds : ∀ timeStart timeStop, (service.eventLogStore.listEventIds timeStart timeStop).Returns
  eventXml : ∀ eventId, (service.eventLogStore.getEventXml eventId).Returns
  keys : ∀ call, ∃ answer store', (service.leKeyStore.call call).run store = .ok answer store'

/-- A persistent store whose file opens does not throw. -/
theorem storesReturn_persistent (events : List EventRecord)
    (spbStatusProvider : QuerySpbStatusProvider) {outcome : OfstreamOutcome}
    (hopens : outcome ≠ .openFails) (store : JsonlLeKeyStore) :
    (AsmService.persistent (.ofEvents events) spbStatusProvider outcome).StoresReturn store where
  eventIds _ _ := ⟨_, rfl⟩
  eventXml _ := ⟨_, rfl⟩
  keys call := by
    rcases JsonlLeKeyStore.run_call_cases outcome store call with ⟨self', hrun, -⟩ | ⟨hfails, -⟩
    · exact ⟨_, self', hrun⟩
    · exact absurd hfails hopens

section Layout

variable {σ : Type} {service : AsmService σ} {now : UInt64} {store : σ} {request : StandardRequest}
  {message : ByteBuffer}

theorem exists_u32Bytes_iff {payload : ByteBuffer} :
    (∃ id, payload = u32Bytes id) ↔ payload.length = 4 := by
  rw [← @returns_decodeIdPayload_iff "" payload]
  exact exists_congr fun id => decodeIdPayload_eq_ok_iff.symm

/-- A request that makes a call has the layout of its command. -/
theorem layout_of_asks {call : StoreCall} (hasks : AsmService.Asks request call) :
    PayloadLayout request.command request.payload := by
  cases call with
  | loadKeys keys =>
      rw [hasks.1]
      exact LeKeyPayloadCodec.returns_decodeLoadRequest_iff.1 ⟨keys, hasks.2⟩
  | containsKey keyId =>
      rw [hasks.1]
      exact exists_u32Bytes_iff.1 ⟨keyId, hasks.2⟩
  | listKeyIds =>
      rw [hasks.1]
      exact hasks.2
  | purgeKey keyId =>
      rw [hasks.1]
      exact exists_u32Bytes_iff.1 ⟨keyId, hasks.2⟩
  | purgeAll =>
      rw [hasks.1]
      exact hasks.2

/-- When nothing throws, a call is answered. -/
theorem acceptsRequest_of_asks (hreturn : service.StoresReturn store) {call : StoreCall}
    (hasks : AsmService.Asks request call) : AcceptsRequest service store request := by
  obtain ⟨answer, store', hcall⟩ := hreturn.keys call
  exact Or.inr (Or.inr (Or.inr (Or.inr (Or.inr ⟨call, answer, store', hasks, hcall⟩))))

theorem acceptsRequest_of_layout (hreturn : service.StoresReturn store)
    (hlayout : PayloadLayout request.command request.payload) :
    AcceptsRequest service store request := by
  cases hcommand : request.command with
  | getTime => exact Or.inl hcommand
  | querySpb => exact Or.inr (Or.inl hcommand)
  | badRequest =>
      rw [hcommand] at hlayout
      exact absurd hlayout id
  | getEventList =>
      rw [hcommand] at hlayout
      obtain ⟨window, hpayload⟩ := GetEventListPayloadCodec.returns_decodeRequest_iff.2 hlayout
      exact Or.inr (Or.inr (Or.inl ⟨hcommand, window, hpayload,
        Or.inr (hreturn.eventIds window.timeStart window.timeStop)⟩))
  | getEventId =>
      rw [hcommand] at hlayout
      obtain ⟨eventId, hpayload⟩ :=
        (@returns_decodeIdPayload_iff "GetEventID request payload must be 4 bytes" _).2 hlayout
      exact Or.inr (Or.inr (Or.inr (Or.inl ⟨hcommand, eventId, hpayload, hreturn.eventXml eventId⟩)))
  | leKeyLoad =>
      rw [hcommand] at hlayout
      obtain ⟨keys, hpayload⟩ := LeKeyPayloadCodec.returns_decodeLoadRequest_iff.2 hlayout
      exact @acceptsRequest_of_asks _ _ _ _ hreturn (.loadKeys keys) ⟨hcommand, hpayload⟩
  | leKeyQueryId =>
      rw [hcommand] at hlayout
      obtain ⟨keyId, hpayload⟩ := exists_u32Bytes_iff.2 hlayout
      exact @acceptsRequest_of_asks _ _ _ _ hreturn (.containsKey keyId) ⟨hcommand, hpayload⟩
  | leKeyPurgeId =>
      rw [hcommand] at hlayout
      obtain ⟨keyId, hpayload⟩ := exists_u32Bytes_iff.2 hlayout
      exact @acceptsRequest_of_asks _ _ _ _ hreturn (.purgeKey keyId) ⟨hcommand, hpayload⟩
  | leKeyQueryAll =>
      rw [hcommand] at hlayout
      exact @acceptsRequest_of_asks _ _ _ _ hreturn .listKeyIds ⟨hcommand, hlayout⟩
  | leKeyPurgeAll =>
      rw [hcommand] at hlayout
      exact @acceptsRequest_of_asks _ _ _ _ hreturn .purgeAll ⟨hcommand, hlayout⟩

/-- Which requests get a regular reply, when nothing throws: those of the right layout, and the four
    commands without a payload whatever they carry. -/
theorem acceptsRequest_iff (hreturn : service.StoresReturn store) :
    AcceptsRequest service store request ↔
      PayloadLayout request.command request.payload ∨
        request.command = .getTime ∨ request.command = .querySpb ∨ request.command = .leKeyQueryAll ∨
          request.command = .leKeyPurgeAll := by
  constructor
  · intro haccepts
    rcases haccepts with hcommand | hcommand | ⟨hcommand, window, hpayload, -⟩ |
      ⟨hcommand, eventId, hpayload, -⟩ | ⟨hcommand | hcommand, -⟩ | ⟨call, -, -, hasks, -⟩
    · exact Or.inr (Or.inl hcommand)
    · exact Or.inr (Or.inr (Or.inl hcommand))
    · left
      rw [hcommand]
      exact GetEventListPayloadCodec.returns_decodeRequest_iff.1 ⟨window, hpayload⟩
    · left
      rw [hcommand]
      exact returns_decodeIdPayload_iff.1 ⟨eventId, hpayload⟩
    · exact Or.inr (Or.inr (Or.inr (Or.inl hcommand)))
    · exact Or.inr (Or.inr (Or.inr (Or.inr hcommand)))
    · exact Or.inl (layout_of_asks hasks)
  · intro h
    rcases h with hlayout | hcommand
    · exact acceptsRequest_of_layout hreturn hlayout
    · -- an empty payload has the layout, any other is turned down by the handler itself
      by_cases hpayload : request.payload = []
      · refine acceptsRequest_of_layout hreturn ?_
        rcases hcommand with hcommand | hcommand | hcommand | hcommand <;>
          rw [hcommand] <;> exact hpayload
      · rcases hcommand with hcommand | hcommand | hcommand | hcommand
        · exact Or.inl hcommand
        · exact Or.inr (Or.inl hcommand)
        · exact Or.inr (Or.inr (Or.inr (Or.inr (Or.inl ⟨Or.inl hcommand, hpayload⟩))))
        · exact Or.inr (Or.inr (Or.inr (Or.inr (Or.inl ⟨Or.inr hcommand, hpayload⟩))))

/-- Which messages get a regular reply, when nothing throws. -/
theorem exists_regularReply_iff (hreturn : service.StoresReturn store) :
    (∃ response, RegularReply service now store message response) ↔
      WellFormedRequest message ∨ SurplusPayload message := by
  constructor
  · intro hexists
    rcases hexists with ⟨response, request, payload, code, hdecode, hid, hreplies, -⟩
    have haccepts := exists_replies_iff.1 ⟨payload, code, hreplies⟩
    have hframes := framesRequest_iff.2 hdecode
    rcases (acceptsRequest_iff hreturn).1 haccepts with hlayout | hcommand
    · exact Or.inl ⟨_, _, _, hframes, hid, hlayout⟩
    · by_cases hpayload : request.payload = []
      · refine Or.inl ⟨_, _, _, hframes, hid, ?_⟩
        rcases hcommand with hcommand | hcommand | hcommand | hcommand <;>
          rw [hcommand] <;> exact hpayload
      · exact Or.inr ⟨_, _, _, hframes, hid, hcommand, hpayload⟩
  · have hregular : ∀ command requestId payload, FramesRequest message command requestId payload →
        requestId ≠ 0 → AcceptsRequest service store ⟨command, requestId, payload⟩ →
        ∃ response, RegularReply service now store message response := by
      intro command requestId payload hframes hid haccepts
      obtain ⟨reply, code, hreplies⟩ := (@exists_replies_iff σ service now _ _).2 haccepts
      exact ⟨_, _, reply, code, framesRequest_iff.1 hframes, hid, hreplies, rfl⟩
    intro h
    rcases h with ⟨command, requestId, payload, hframes, hid, hlayout⟩ |
      ⟨command, requestId, payload, hframes, hid, hcommand, -⟩
    · exact hregular _ _ _ hframes hid ((acceptsRequest_iff hreturn).2 (Or.inl hlayout))
    · exact hregular _ _ _ hframes hid ((acceptsRequest_iff hreturn).2 (Or.inr hcommand))

/-- A surplus payload makes the request malformed. -/
theorem not_wellFormed_of_surplus (h : SurplusPayload message) : ¬ WellFormedRequest message := by
  obtain ⟨command, requestId, payload, hframes, -, hcommand, hpayload⟩ := h
  intro hwellFormed
  rcases hwellFormed with ⟨command', requestId', payload', hframes', -, hlayout⟩
  have hsame := (framesRequest_iff.1 hframes).symm.trans (framesRequest_iff.1 hframes')
  rw [Except.ok.injEq, StandardRequest.mk.injEq] at hsame
  obtain ⟨rfl, -, rfl⟩ := hsame
  rcases hcommand with rfl | rfl | rfl | rfl <;> exact hpayload hlayout

/-- The server answers with BadRequest exactly the messages no rule gives a reply to. -/
theorem produced_badRequest_iff
    (hfits : ∀ response, RegularReply service now store message response →
      (responseValue response).length ≤ Klv.maxLength) :
    (TlsServer.producedResponse service now store message).command = .badRequest ↔
      ¬ ∃ response, RegularReply service now store message response := by
  constructor
  · rintro hbad ⟨response, hregular⟩
    rw [producedResponse_of_regular hregular (hfits response hregular)] at hbad
    obtain ⟨request, payload, code, hdecode, -, -, rfl⟩ := hregular
    exact command_ne_badRequest hdecode hbad
  · intro hnone
    rcases producedResponse_cases service now store message with hregular | hcopy
    · exact absurd ⟨_, hregular⟩ hnone
    · rw [hcopy]
      rfl

end Layout

/-- **BadRequest for malformed requests.** When nothing throws and the reply fits a frame, the server
    answers exactly the malformed requests with BadRequest, and none of them successful, if and only
    if the message is not a request of `GetTime`, `QuerySPB`, `LEKeyQueryAll` or `LEKeyPurgeAll` with
    a payload. -/
theorem badRequest_exactly_malformed_iff {σ : Type} (service : AsmService σ) (now : UInt64) (store : σ)
    (message : ByteBuffer) (hreturn : service.StoresReturn store)
    (hfits : ∀ response, RegularReply service now store message response →
      (responseValue response).length ≤ Klv.maxLength) :
    (((TlsServer.producedResponse service now store message).command = .badRequest ↔
        ¬ WellFormedRequest message) ∧
      (¬ WellFormedRequest message →
        (TlsServer.producedResponse service now store message).responseCode ≠ .successful)) ↔
    ¬ SurplusPayload message := by
  rw [produced_badRequest_iff hfits, exists_regularReply_iff hreturn]
  constructor
  · rintro ⟨hexact, -⟩ hsurplus
    exact (hexact.2 (not_wellFormed_of_surplus hsurplus)) (Or.inr hsurplus)
  · intro hnone
    refine ⟨by rw [or_iff_left hnone], fun hmalformed => ?_⟩
    rcases producedResponse_cases service now store message with hregular | hcopy
    · exact absurd ((exists_regularReply_iff hreturn).1 ⟨_, hregular⟩) (not_or.2 ⟨hmalformed, hnone⟩)
    · rw [hcopy]
      exact fun hcode => nomatch hcode

/-- A load of one record whose header says how many there are. -/
def loadMessage (count : UInt32) : ByteBuffer :=
  frameBytes (makeUl 0x03 0x20)
    (u32Bytes 1 ++ (u32Bytes count ++ (u32Bytes 32 ++ List.replicate 32 0x07)))

theorem not_surplusPayload_loadMessage (count : UInt32) : ¬ SurplusPayload (loadMessage count) := by
  rintro ⟨command, requestId, payload, hframes, -, hcommand, -⟩
  have hload : FramesRequest (loadMessage count) .leKeyLoad 1
      (u32Bytes count ++ (u32Bytes 32 ++ List.replicate 32 0x07)) :=
    ⟨makeUl 0x03 0x20, by decide, by simp [Klv.maxLength], rfl⟩
  have hsame := Except.ok.inj ((framesRequest_iff.1 hload).symm.trans (framesRequest_iff.1 hframes))
  obtain rfl := congrArg StandardRequest.command hsame
  simp at hcommand

/-- Over a stored key, the load of one record is handled, and that of two, of which one is there, is
    not. -/
theorem badRequest_exactly_malformed_load :
    let service := AsmService.persistent (.ofEvents []) { currentStatus := .notPlaying } .writesAll
    let produced := TlsServer.producedResponse service 0 { file := none, keys := [blankKey 8] }
    ((produced (loadMessage 1)).command = .leKeyLoad ∧ WellFormedRequest (loadMessage 1)) ∧
    (produced (loadMessage 2)).command = .badRequest ∧ ¬ WellFormedRequest (loadMessage 2) ∧
      (produced (loadMessage 2)).responseCode ≠ .successful := by
  intro service produced
  have hreturn : service.StoresReturn { file := none, keys := [blankKey 8] } :=
    storesReturn_persistent [] _ (by decide) _
  have hload : (produced (loadMessage 1)).command = .leKeyLoad := by decide
  have hcopy : (produced (loadMessage 2)).command = .badRequest := by decide
  obtain ⟨hfirst, -⟩ := (badRequest_exactly_malformed_iff service 0 _ (loadMessage 1) hreturn
    (fun response h => by rw [← h.response_eq]; decide)).2 (not_surplusPayload_loadMessage 1)
  obtain ⟨hsecond, hcode⟩ := (badRequest_exactly_malformed_iff service 0 _ (loadMessage 2) hreturn
    (fun response h => by rw [← h.response_eq]; decide)).2 (not_surplusPayload_loadMessage 2)
  have hmalformed := hsecond.1 hcopy
  refine ⟨⟨hload, ?_⟩, hcopy, hmalformed, hcode hmalformed⟩
  by_contra hill
  rw [show (produced (loadMessage 1)).command = _ from hfirst.2 hill] at hload
  cases hload

/-- A `GetTime` request with the given payload. -/
def getTimeMessage (payload : ByteBuffer) : ByteBuffer :=
  frameBytes (makeUl 0x02 0x10) (u32Bytes 1 ++ payload)

/-- A `GetTime` request with a surplus byte is malformed, and answered successful. -/
theorem surplus_getTime_successful :
    ¬ WellFormedRequest (getTimeMessage [0xff]) ∧
    TlsServer.producedResponse (AsmService.ofEvents []) 0 {}
        (getTimeMessage [0xff])
      = { command := .getTime, requestId := some 1, payload := [0, 0, 0, 0, 0, 0, 0, 0],
          responseCode := .successful } := by
  refine ⟨not_wellFormed_of_surplus ⟨.getTime, 1, [0xff], ?_, by decide, Or.inl rfl, by decide⟩,
    by decide⟩
  exact framesRequest_iff.2 (by decide)

end AsmProto
