import AsmProto.Initiator

set_option autoImplicit false

/-! # The initiator against its own responder

A request the initiator builds is always well formed, so the responder answers by the rules of
`Replies`. The switch over the response accepts every such payload but the empty one of a reversed
time window, which it decodes as a batch. -/

namespace AsmProto

namespace Initiator

/-! ## The requests that can be built -/

theorem requestPayload_layout {command : Command} {arguments : List StdString} {payload : ByteBuffer}
    (h : requestPayload command arguments = .ok payload) (hcommand : command ≠ .badRequest) :
    PayloadLayout command payload ∧ payload.length ≤ 40 := by
  -- the three commands that carry one id
  have hid : ∀ {text} {encode : UInt32 → ByteBuffer}, (∀ id, encode id = u32Bytes id) →
      (do
        let id ← parseU32 text
        .ok (encode id) : Except StdException ByteBuffer) = .ok payload → payload.length = 4 := by
    intro text encode hencode hpayload
    obtain ⟨id, -, heq⟩ := Except.bind_eq_ok_iff.1 hpayload
    rw [← Except.ok.inj heq, hencode, u32Bytes_length]
  cases command with
  | badRequest => exact absurd rfl hcommand
  | getTime => exact Except.ok.inj h ▸ ⟨rfl, by simp⟩
  | querySpb => exact Except.ok.inj h ▸ ⟨rfl, by simp⟩
  | leKeyQueryAll => exact Except.ok.inj h ▸ ⟨rfl, by simp⟩
  | leKeyPurgeAll => exact Except.ok.inj h ▸ ⟨rfl, by simp⟩
  | getEventId =>
      have hlen := hid (appendBeU32_eq []) h
      exact ⟨hlen, by omega⟩
  | leKeyQueryId =>
      have hlen := hid (appendBeU32_eq []) h
      exact ⟨hlen, by omega⟩
  | leKeyPurgeId =>
      have hlen := hid (appendBeU32_eq []) h
      exact ⟨hlen, by omega⟩
  | getEventList =>
      obtain ⟨timeStart, -, h⟩ := Except.bind_eq_ok_iff.1 h
      obtain ⟨timeStop, -, h⟩ := Except.bind_eq_ok_iff.1 h
      have hlen : payload.length = 8 := by
        rw [← Except.ok.inj h, GetEventListPayloadCodec.encodeRequest, appendBeU32_eq, appendBeU32_eq]
        simp
      exact ⟨hlen, by omega⟩
  | leKeyLoad =>
      obtain ⟨keyId, -, h⟩ := Except.bind_eq_ok_iff.1 h
      obtain ⟨key, -, h⟩ := Except.bind_eq_ok_iff.1 h
      obtain ⟨expireTime, -, h⟩ := Except.bind_eq_ok_iff.1 h
      obtain ⟨attributeData, -, h⟩ := Except.bind_eq_ok_iff.1 h
      have hbatch := (Except.ok.inj h).symm.trans (LeKeyPayloadCodec.encodeLoadRequest_eq _)
      refine ⟨LeKeyPayloadCodec.returns_decodeLoadRequest_iff.1
        ⟨_, LeKeyPayloadCodec.decodeLoadRequest_eq_ok_iff.2 ⟨by simp, hbatch⟩⟩, ?_⟩
      rw [hbatch, batchBytes_length]
      exact le_refl 40

/-- A request that is built has id 1, a command with a request label, and the payload of its layout. -/
theorem buildRequest_layout {argv : List StdString} {request : StandardRequest}
    (h : buildRequest argv = .ok (some request)) :
    request.requestId ≠ 0 ∧ PayloadLayout request.command request.payload ∧
      request.payload.length ≤ 40 := by
  obtain ⟨command, argc, payload, -, hargc, -, hpayload, rfl⟩ := buildRequest_eq_some_iff.1 h
  have hcommand : command ≠ .badRequest := by
    rintro rfl
    simp [commandArgc] at hargc
  exact ⟨(by decide : (1 : UInt32) ≠ 0), requestPayload_layout hpayload hcommand⟩

/-! ## The replies the initiator decodes -/

/-- A `GetEventList` request whose window ends before it starts. -/
def ReversedWindow (request : StandardRequest) : Prop :=
  request.command = .getEventList ∧ ∃ window,
    GetEventListPayloadCodec.decodeRequest request.payload = .ok window ∧
      window.timeStart > window.timeStop

section Replies

variable {σ : Type} {service : AsmService σ} {now : UInt64} {store : σ} {request : StandardRequest}
  {payload : ByteBuffer} {code : GeneralResponse}

/-- The answers of the key store are decoded, whatever they say. -/
theorem payloadDecodes_keyReply {call : StoreCall} {answer : StoreAnswer}
    (hids : call = .listKeyIds → answer.idList.length < 2 ^ 32) :
    PayloadDecodes (AsmService.keyReply request call answer).response := by
  cases call with
  | loadKeys keys => exact ⟨_, LeKeyPayloadCodec.decodeFlag_encodeFlag _ _⟩
  | containsKey keyId => exact ⟨_, LeKeyPayloadCodec.decodeFlag_encodeFlag _ _⟩
  | listKeyIds =>
      exact ⟨_, LeKeyPayloadCodec.decodeQueryAllResponse_eq_ok_iff.2
        ⟨hids rfl, LeKeyPayloadCodec.encodeQueryAllResponse_eq _⟩⟩
  | purgeKey keyId => exact ⟨_, LeKeyPayloadCodec.decodeFlag_encodeFlag _ _⟩
  | purgeAll => trivial

/-- **Every reply to a well-formed request is decoded** when it fits a frame, unless the window of the
    request is reversed. -/
theorem payloadDecodes_of_replies (hlayout : PayloadLayout request.command request.payload)
    (hreplies : Replies service now store request payload code)
    (hlen : payload.length ≤ Klv.maxLength) (hordered : ¬ ReversedWindow request) :
    PayloadDecodes (regularResponse request payload code) := by
  rw [Klv.maxLength] at hlen
  unfold PayloadDecodes regularResponse
  cases hreplies with
  | getTime hcommand =>
      simp only [hcommand]
      exact ⟨now, decodeBeU64_eq_ok_iff.2 (by
        rw [appendBeU64_eq, List.nil_append, List.drop_zero, List.take_of_length_le (by simp)])⟩
  | reversedWindow hcommand window hpayload hreversed =>
      exact absurd ⟨hcommand, window, hpayload, hreversed⟩ hordered
  | eventList hcommand window hpayload hwindow eventIds hlist =>
      rw [GetEventListPayloadCodec.encodeResponse_length] at hlen
      simp only [hcommand]
      exact ⟨eventIds, GetEventListPayloadCodec.decodeResponse_eq_ok_iff.2
        ⟨by omega, GetEventListPayloadCodec.encodeResponse_eq eventIds⟩⟩
  | missingEvent hcommand eventId hpayload hmissing =>
      simp only [hcommand]
      exact ⟨_, rfl⟩
  | event hcommand eventId hpayload xml hxml =>
      simp only [hcommand]
      exact ⟨_, rfl⟩
  | spb hcommand hpayload =>
      simp only [hcommand]
      exact ⟨_, QuerySpbPayloadCodec.decodeResponse_eq_ok_iff.2 rfl⟩
  | surplus hcommand hpayload =>
      -- the initiator sends no payload with these commands
      rcases hcommand with hcommand | hcommand | hcommand <;>
        exact absurd (by rw [hcommand] at hlayout; exact hlayout) hpayload
  | key call hasks answer store' hcall =>
      have hids : call = .listKeyIds → answer.idList.length < 2 ^ 32 := by
        rintro rfl
        rw [keyReply_payload_length_listKeyIds] at hlen
        omega
      have hdecodes := @payloadDecodes_keyReply request call answer hids
      rw [keyReply_response hasks] at hdecodes
      exact hdecodes

/-- A reversed window is answered without a payload, which is no event id batch. -/
theorem not_payloadDecodes_reversedWindow (hcommand : request.command = .getEventList) :
    ¬ PayloadDecodes (regularResponse request [] code) := by
  unfold PayloadDecodes regularResponse
  simp only [hcommand]
  intro hreturns
  rcases hreturns with ⟨eventIds, hdecode⟩
  obtain ⟨-, hempty⟩ := GetEventListPayloadCodec.decodeResponse_eq_ok_iff.1 hdecode
  have hlen := congrArg List.length hempty
  rw [batchBytes_length, List.length_nil] at hlen
  omega

end Replies

/-- The responder's reply to a request frame is decoded unless the window is reversed. -/
theorem payloadDecodes_producedResponse_iff {σ : Type} {service : AsmService σ} {now : UInt64}
    {store : σ} {request : StandardRequest} {frame : ByteBuffer}
    (hdecode : decodeRequestFrame frame = .ok request) (hid : request.requestId ≠ 0)
    (hlayout : PayloadLayout request.command request.payload) :
    PayloadDecodes (TlsServer.producedResponse service now store frame) ↔ ¬ ReversedWindow request := by
  constructor
  · rintro hdecodes ⟨hcommand, window, hpayload, hreversed⟩
    have hregular : RegularReply service now store frame (regularResponse request [] .invalid) :=
      ⟨request, _, _, hdecode, hid, .reversedWindow hcommand window hpayload hreversed, rfl⟩
    rw [producedResponse_of_regular hregular (by
      rw [regularResponse_value_length, Klv.maxLength]
      decide)] at hdecodes
    exact not_payloadDecodes_reversedWindow hcommand hdecodes
  · intro hordered
    by_cases hfits : ∃ response, RegularReply service now store frame response ∧
        (responseValue response).length ≤ Klv.maxLength
    · obtain ⟨response, hregular, hlen⟩ := hfits
      rw [producedResponse_of_regular hregular hlen]
      obtain ⟨request', payload, code, hdecode', -, hreplies, rfl⟩ := hregular
      obtain rfl := Except.ok.inj (hdecode.symm.trans hdecode')
      rw [regularResponse_value_length] at hlen
      exact payloadDecodes_of_replies hlayout hreplies (by omega) hordered
    · -- the reply fits no frame, and a BadRequest copy is sent instead
      have hcopy : TlsServer.producedResponse service now store frame = badRequestCopy frame := by
        rcases producedResponse_cases service now store frame with hregular | hcopy
        · unfold TlsServer.producedResponse TlsServer.sentResponse at hregular ⊢
          split at hregular
          · next reply hreply =>
              refine absurd ⟨_, hregular, ?_⟩ hfits
              exact (returns_encodeResponseFrame_iff hregular.wellIdentified).1 ⟨reply, hreply⟩
          · rfl
        · exact hcopy
      rw [hcopy]
      trivial

/-- **The initiator accepts the replies of its own responder** exactly when it did not ask for a
    reversed time window: whatever its arguments, the event log and the key store, the request and the
    response are framed, and the switch over the response does not throw. -/
theorem initiator_accepts_reply_iff {σ : Type} (service : AsmService σ) (now : UInt64) (store : σ)
    (argv : List StdString) (request : StandardRequest)
    (hbuild : buildRequest argv = .ok (some request)) :
    ∃ frame reply response,
      encodeRequestFrame request = .ok frame ∧
      response = TlsServer.producedResponse service now store frame ∧
      encodeResponseFrame response = .ok reply ∧ decodeResponseFrame reply = .ok response ∧
      (PayloadDecodes response ↔ ¬ ReversedWindow request) ∧
      ∀ peerThumbprint out,
        ((printResult { response := response, peerThumbprint := peerThumbprint }).run out).Threw ↔
          ReversedWindow request := by
  obtain ⟨hid, hlayout, hlen⟩ := buildRequest_layout hbuild
  have hcommand : request.command ≠ .badRequest := fun hbad => by
    rw [hbad] at hlayout
    exact hlayout
  obtain ⟨frame, hframe⟩ := (returns_encodeRequestFrame_iff request).2
    ⟨hcommand, by rw [Klv.maxLength]; omega⟩
  have hdecode := decodeRequestFrame_eq_ok_iff.2 hframe
  -- the request is short, so that even its BadRequest copy fits
  have hshort : frame.length ≤ 4096 := by
    rw [length_of_decodeRequestFrame hdecode]
    omega
  have hwell := wellIdentified_producedResponse service now store frame
  obtain ⟨reply, hreply⟩ : (encodeResponseFrame
      (TlsServer.producedResponse service now store frame)).Returns := by
    unfold TlsServer.producedResponse TlsServer.sentResponse
    split
    · next sent hsent => exact ⟨sent, hsent⟩
    · exact TlsServer.returns_encode_badRequestCopy hshort
  have hdecodes := @payloadDecodes_producedResponse_iff σ service now store _ _ hdecode hid hlayout
  refine ⟨frame, reply, _, hframe, rfl, hreply, decodeResponseFrame_eq_ok_iff.2 ⟨hwell, hreply⟩,
    hdecodes, fun peerThumbprint out => ?_⟩
  rw [threw_printResult_iff, hdecodes, not_not]

/-- `asm_initiator host get-event-list 1 2 cert.pem key.pem ca.pem`. -/
def windowArgv : List StdString :=
  ["asm_initiator", "host", "get-event-list", "1", "2", "cert.pem", "key.pem", "ca.pem"].map ascii

/-- The request that is built from these arguments. -/
def askedWindow : StandardRequest :=
  { command := .getEventList, requestId := 1, payload := [0, 0, 0, 1, 0, 0, 0, 2] }

/-- The two events in the window from 1 to 2 are listed, and the initiator prints them. -/
theorem initiator_accepts_reply_window :
    ∃ frame reply response,
      encodeRequestFrame askedWindow = .ok frame ∧
      response = TlsServer.producedResponse windowService 0 { keys := [blankKey 7] } frame ∧
      encodeResponseFrame response = .ok reply ∧ decodeResponseFrame reply = .ok response ∧
      PayloadDecodes response ∧
      ∀ peerThumbprint out,
        ¬ ((printResult { response := response, peerThumbprint := peerThumbprint }).run out).Threw := by
  obtain ⟨frame, reply, response, hframe, hproduced, hreply, hresponse, hdecodes, hthrew⟩ :=
    initiator_accepts_reply_iff windowService 0 { keys := [blankKey 7] } windowArgv askedWindow
      (by decide)
  have hordered : ¬ ReversedWindow askedWindow := by
    rintro ⟨-, window, hwindow, hreversed⟩
    have hdecode : GetEventListPayloadCodec.decodeRequest askedWindow.payload
        = .ok { timeStart := 1, timeStop := 2 } := by decide
    obtain rfl := Except.ok.inj (hdecode.symm.trans hwindow)
    exact absurd hreversed (by decide)
  exact ⟨frame, reply, response, hframe, hproduced, hreply, hresponse, hdecodes.2 hordered,
    fun peerThumbprint out => mt (hthrew peerThumbprint out).1 hordered⟩

/-- `asm_initiator host get-event-list 2 1 cert.pem key.pem ca.pem`. -/
def reversedArgv : List StdString :=
  ["asm_initiator", "host", "get-event-list", "2", "1", "cert.pem", "key.pem", "ca.pem"].map ascii

/-- The request that is built from these arguments. -/
def reversedRequest : StandardRequest :=
  { command := .getEventList, requestId := 1, payload := [0, 0, 0, 2, 0, 0, 0, 1] }

/-- The window from 2 to 1 is answered `invalid` without a payload, and the initiator throws. -/
theorem initiator_throws_on_reversed_window :
    buildRequest reversedArgv = .ok (some reversedRequest) ∧
    TlsServer.producedResponse (AsmService.ofEvents []) 0 {}
        (frameBytes (makeUl 0x02 0x12) (requestValue reversedRequest))
      = regularResponse reversedRequest [] .invalid ∧
    ((printResult { response := regularResponse reversedRequest [] .invalid,
                    peerThumbprint := [] }).run []).Threw := by
  refine ⟨by decide, by decide, ?_⟩
  rw [threw_printResult_iff]
  exact not_payloadDecodes_reversedWindow rfl

end Initiator

end AsmProto
