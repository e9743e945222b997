import AsmProto.LeKey.JsonlStore
import AsmProto.TlsServer

set_option autoImplicit false

/-! # What the server sends back

For every message the server reads, over every event log and every implementation of the key store,
the one frame it sends is a well-formed response: a BadRequest that copies the message, or an answer
under the label and the id of the request. -/

namespace AsmProto

/-- `frame` and the response in it answer the bytes under their own label and id: the thirteenth byte
    of the label is one higher, and the id is the bytes 21 to 24. -/
structure AnswersUnderLabel (requestBytes frame : ByteBuffer) (response : StandardResponse) : Prop where
  label : ∃ ul : Ul, requestBytes.take 16 = ul.val ∧
    Codec.describeUl ul = .ok { command := response.command, response := false }
  responseLabel : frame.take 16 = (requestBytes.take 16).modify 12 (· + 1)
  requestId : ∃ requestId, response.requestId = some requestId ∧ requestId ≠ 0 ∧
    requestId.toNat = beValue ((requestBytes.drop 20).take 4)

section Regular

variable {σ : Type} {service : AsmService σ} {now : UInt64} {store : σ} {requestBytes : ByteBuffer}
  {response : StandardResponse}

theorem RegularReply.wellIdentified (h : RegularReply service now store requestBytes response) :
    Codec.WellIdentified response := by
  obtain ⟨request, payload, code, hdecode, -, -, rfl⟩ := h
  exact iff_of_false (by simp [regularResponse]) (command_ne_badRequest hdecode)

/-- What the server sends: the regular reply if it fits a frame, else the BadRequest copy. -/
theorem producedResponse_cases (service : AsmService σ) (now : UInt64) (store : σ)
    (requestBytes : ByteBuffer) :
    RegularReply service now store requestBytes
        (TlsServer.producedResponse service now store requestBytes) ∨
      TlsServer.producedResponse service now store requestBytes = badRequestCopy requestBytes := by
  unfold TlsServer.producedResponse TlsServer.sentResponse
  split
  · exact (response_regular_or_copy service now store requestBytes).imp_right And.left
  · exact Or.inr rfl

theorem wellIdentified_producedResponse (service : AsmService σ) (now : UInt64) (store : σ)
    (requestBytes : ByteBuffer) :
    Codec.WellIdentified (TlsServer.producedResponse service now store requestBytes) := by
  rcases producedResponse_cases service now store requestBytes with hregular | hcopy
  · exact hregular.wellIdentified
  · rw [hcopy]
    exact TlsServer.wellIdentified_badRequestCopy requestBytes

theorem regularResponse_value_length (request : StandardRequest) (payload : ByteBuffer)
    (code : GeneralResponse) :
    (responseValue (regularResponse request payload code)).length = 5 + payload.length := by
  simp [responseValue, regularResponse, Codec.responseHead]
  omega

/-- A regular reply that fits a frame is sent as it is. -/
theorem producedResponse_of_regular (h : RegularReply service now store requestBytes response)
    (hlen : (responseValue response).length ≤ Klv.maxLength) :
    TlsServer.producedResponse service now store requestBytes = response := by
  obtain ⟨frame, hframe⟩ := (returns_encodeResponseFrame_iff h.wellIdentified).2 hlen
  rw [TlsServer.producedResponse, h.response_eq, TlsServer.sentResponse, hframe]

/-- A regular reply that fits no frame is replaced by the BadRequest copy. -/
theorem producedResponse_of_oversize (h : RegularReply service now store requestBytes response)
    (hlen : ¬ (responseValue response).length ≤ Klv.maxLength) :
    TlsServer.producedResponse service now store requestBytes = badRequestCopy requestBytes := by
  obtain ⟨ex, hthrow⟩ :=
    Except.not_returns_iff.1 (mt (returns_encodeResponseFrame_iff h.wellIdentified).1 hlen)
  rw [TlsServer.producedResponse, h.response_eq, TlsServer.sentResponse, hthrow]
  rfl

end Regular

/-- Label and id of a request frame. -/
theorem label_of_decodeRequestFrame {bytes : List UInt8} {request : StandardRequest}
    (h : decodeRequestFrame bytes = .ok request) :
    ∃ ul, Codec.ulFor request.command false = .ok ul ∧ bytes.take 16 = ul.val ∧
      (bytes.drop 20).take 4 = u32Bytes request.requestId := by
  obtain ⟨ul, hul, -, rfl⟩ := encodeRequestFrame_eq_ok_iff.1 (decodeRequestFrame_eq_ok_iff.1 h)
  refine ⟨ul, hul, ?_, ?_⟩
  · rw [frameBytes, List.append_assoc, List.take_left' ul.property]
  · have hhead : (ul.val ++ Klv.berBytes (UInt32.ofNat (requestValue request).length)).length = 20 := by
      simp [ul.property]
    rw [frameBytes, List.drop_left' hhead, requestValue, List.take_left' (u32Bytes_length _)]

/-- A regular reply is encoded under the label of the message it answers. -/
theorem RegularReply.answersUnderLabel {σ : Type} {service : AsmService σ} {now : UInt64} {store : σ}
    {requestBytes frame : ByteBuffer} {response : StandardResponse}
    (h : RegularReply service now store requestBytes response)
    (hframe : encodeResponseFrame response = .ok frame) :
    AnswersUnderLabel requestBytes frame response := by
  obtain ⟨ul', hul', -, rfl⟩ := (encodeResponseFrame_eq_ok_iff h.wellIdentified).1 hframe
  obtain ⟨request, payload, code, hdecode, hid, -, rfl⟩ := h
  obtain ⟨ul, hul, hlabel, hidBytes⟩ := label_of_decodeRequestFrame hdecode
  obtain ⟨next, hnext, hmodify⟩ := Codec.ulFor_true_eq hul
  obtain rfl := Except.ok.inj (hul'.symm.trans hnext)
  refine ⟨⟨ul, hlabel, Codec.describeUl_eq_ok_iff.2 hul⟩, ?_, request.requestId, rfl, hid, ?_⟩
  · rw [frameBytes, List.append_assoc, List.take_left' ul'.property, hlabel, hmodify]
  · rw [hidBytes, beValue_u32Bytes]

/-- **One well-formed response to every message.** For every message of at most 4096 bytes, every
    event log and every key store, whatever they throw, the session ends normally and sends exactly
    one frame; it decodes to a BadRequest copy of the message, or to an answer under the label and the
    id of the request. -/
theorem serveClient_sends_one_response {σ : Type} (service : AsmService σ) (peer : PeerIdentity)
    (now : UInt64) (observer : Bool) (session : Session σ) (requestBytes : ByteBuffer)
    (rest : List (Except SslFailure ByteBuffer)) (hne : requestBytes ≠ [])
    (hlen : requestBytes.length ≤ 4096) (hincoming : session.stream.incoming = .ok requestBytes :: rest)
    (hwrites : session.stream.WritesSucceed) :
    ∃ session' frame response,
      (TlsServer.serveClient service (.ok peer) now observer).run session = .ok () session' ∧
      session'.stream.sent = session.stream.sent ++ frame ∧
      decodeResponseFrame frame = .ok response ∧
      (response = badRequestCopy requestBytes ∨ AnswersUnderLabel requestBytes frame response) := by
  obtain ⟨session', hrun, hserved⟩ := TlsServer.run_serveClient hincoming hne hwrites observer
  rw [List.take_of_length_le hlen] at hserved
  obtain ⟨frame, hframe, hsent⟩ := hserved.sent
  -- a regular reply answers under the label of the message, anything else is its copy
  rcases producedResponse_cases service now session.store requestBytes with hregular | hcopy
  · exact ⟨session', frame, _, hrun, hsent,
      decodeResponseFrame_eq_ok_iff.2 ⟨hregular.wellIdentified, hframe⟩,
      Or.inr (hregular.answersUnderLabel hframe)⟩
  · rw [hcopy] at hframe
    exact ⟨session', frame, _, hrun, hsent,
      decodeResponseFrame_eq_ok_iff.2 ⟨TlsServer.wellIdentified_badRequestCopy requestBytes, hframe⟩,
      Or.inl rfl⟩

/-- What a session sends is the response of the service, or its BadRequest. -/
theorem response_of_session {σ : Type} {service : AsmService σ} {peer : PeerIdentity} {now : UInt64}
    {observer : Bool} {session session' : Session σ} {requestBytes frame : ByteBuffer}
    {rest : List (Except SslFailure ByteBuffer)} {response : StandardResponse}
    (hne : requestBytes ≠ []) (hlen : requestBytes.length ≤ 4096)
    (hincoming : session.stream.incoming = .ok requestBytes :: rest)
    (hwrites : session.stream.WritesSucceed)
    (hrun : (TlsServer.serveClient service (.ok peer) now observer).run session = .ok () session')
    (hsent : session'.stream.sent = session.stream.sent ++ frame)
    (hresponse : decodeResponseFrame frame = .ok response) :
    response = TlsServer.producedResponse service now session.store requestBytes := by
  obtain ⟨last, hlast, hserved⟩ := @TlsServer.run_serveClient σ service now peer session _ _
    hincoming hne hwrites observer
  rw [hrun] at hlast
  injection hlast with _ hsame
  subst hsame
  rw [List.take_of_length_le hlen] at hserved
  obtain ⟨frame', hframe', hsent'⟩ := hserved.sent
  obtain rfl := List.append_cancel_left (hsent.symm.trans hsent')
  have hdecode := decodeResponseFrame_eq_ok_iff.2
    ⟨wellIdentified_producedResponse service now session.store requestBytes, hframe'⟩
  exact Except.ok.inj (hresponse.symm.trans hdecode)

/-- A request for the events at the times 1 to 2. -/
def windowRequest : StandardRequest where
  command := .getEventList
  requestId := 9
  payload := [0, 0, 0, 1, 0, 0, 0, 2]

def windowFrame : ByteBuffer := frameBytes (makeUl 0x02 0x12) (requestValue windowRequest)

/-- Three events, two of them in that window. -/
def windowService : AsmService InMemoryLeKeyStore :=
  .ofEvents [{ eventId := 5, timestampEpoch := 1 }, { eventId := 6, timestampEpoch := 3 },
    { eventId := 7, timestampEpoch := 2 }]

/-- A load, and a service whose key file does not open. -/
def lostRequest : StandardRequest where
  command := .leKeyLoad
  requestId := 9
  payload := LeKeyPayloadCodec.encodeLoadRequest [blankKey 7]

def lostFrame : ByteBuffer := frameBytes (makeUl 0x03 0x20) (requestValue lostRequest)

def lostService : AsmService JsonlLeKeyStore where
  eventLogStore := .ofEvents []
  leKeyStore := JsonlLeKeyStore.toStore .openFails
  spbStatusProvider := { currentStatus := .notPlaying }

/-- The list is answered under its label and id, the load with its copy. -/
theorem serveClient_sends_one_response_twice :
    (∃ session' frame response,
      (TlsServer.serveClient windowService (.ok ⟨[], [], []⟩) 0 true).run
          { store := { keys := [blankKey 7] },
            stream := { incoming := [.ok windowFrame], outcomes := [.accepts 3] } } = .ok () session' ∧
      session'.stream.sent = [] ++ frame ∧ decodeResponseFrame frame = .ok response ∧
      response.payload = [0, 0, 0, 2, 0, 0, 0, 4, 0, 0, 0, 5, 0, 0, 0, 7] ∧
      AnswersUnderLabel windowFrame frame response) ∧
    ∃ session' frame,
      (TlsServer.serveClient lostService (.ok ⟨[], [], []⟩) 0 true).run
          { store := { file := none, keys := [blankKey 8] },
            stream := { incoming := [.ok lostFrame] } } = .ok () session' ∧
      session'.stream.sent = [] ++ frame ∧
      decodeResponseFrame frame = .ok (badRequestCopy lostFrame) := by
  constructor
  · have hwrites : TlsStream.WritesSucceed
        { incoming := [.ok windowFrame], outcomes := [.accepts 3] } := by
      simp [TlsStream.WritesSucceed]
    obtain ⟨session', frame, response, hrun, hsent, hresponse, hanswers⟩ :=
      serveClient_sends_one_response windowService ⟨[], [], []⟩ 0 true
        { store := { keys := [blankKey 7] },
          stream := { incoming := [.ok windowFrame], outcomes := [.accepts 3] } } windowFrame []
        (by decide) (by decide) rfl hwrites
    have hproduced := response_of_session (by decide) (by decide) rfl hwrites hrun hsent hresponse
    have hregular : response = regularResponse windowRequest
        [0, 0, 0, 2, 0, 0, 0, 4, 0, 0, 0, 5, 0, 0, 0, 7] .successful := by
      rw [hproduced]
      decide
    refine ⟨session', frame, response, hrun, hsent, hresponse, by rw [hregular]; rfl, ?_⟩
    refine hanswers.resolve_left fun hcopy => ?_
    rw [hregular] at hcopy
    exact absurd hcopy (by decide)
  · have hwrites : TlsStream.WritesSucceed { incoming := [.ok lostFrame] } := by
      simp [TlsStream.WritesSucceed]
    obtain ⟨session', frame, response, hrun, hsent, hresponse, -⟩ :=
      serveClient_sends_one_response lostService ⟨[], [], []⟩ 0 true
        { store := { file := none, keys := [blankKey 8] }, stream := { incoming := [.ok lostFrame] } }
        lostFrame [] (by decide) (by decide) rfl hwrites
    have hproduced := response_of_session (by decide) (by decide) rfl hwrites hrun hsent hresponse
    have hcopy : response = badRequestCopy lostFrame := by
      rw [hproduced]
      decide
    exact ⟨session', frame, hrun, hsent, hresponse.trans (congrArg Except.ok hcopy)⟩

end AsmProto
