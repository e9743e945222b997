import AsmProto.ServerReply
import AsmProto.TlsClient

set_option autoImplicit false

/-! # Which responses the client can read

The server limits what it sends by the three-byte length of a frame only, and the client reads once,
into 4096 bytes. `ReplyReadable` is the condition on the message, the event log and the key store
under which the response fits. -/

namespace AsmProto

open TlsServer

variable {σ : Type}

/-- The response to the message fits the client's buffer. The bounds leave out replies that fit no
    frame: the server then falls back to the copy of a short message. -/
structure ReplyReadable (service : AsmService σ) (store : σ) (requestBytes : ByteBuffer) : Prop where
  copy : requestBytes.length ≤ 4075 ∨ ∃ request, decodeRequestFrame requestBytes = .ok request ∧
    request.requestId ≠ 0 ∧ AcceptsRequest service store request
  eventList : ∀ request window eventIds, decodeRequestFrame requestBytes = .ok request →
    request.requestId ≠ 0 → request.command = .getEventList →
    GetEventListPayloadCodec.decodeRequest request.payload = .ok window →
    ¬ window.timeStart > window.timeStop →
    service.eventLogStore.listEventIds window.timeStart window.timeStop = .ok eventIds →
    eventIds.length ≤ 1015 ∨ 4194301 ≤ eventIds.length
  event : ∀ request eventId xml, decodeRequestFrame requestBytes = .ok request →
    request.requestId ≠ 0 → request.command = .getEventId →
    GetEventIdPayloadCodec.decodeRequest request.payload = .ok eventId →
    service.eventLogStore.getEventXml eventId = .ok (some xml) →
    xml.length ≤ 4071 ∨ 16777211 ≤ xml.length
  keyIds : ∀ request keyIds, decodeRequestFrame requestBytes = .ok request →
    request.requestId ≠ 0 → request.command = .leKeyQueryAll → request.payload = [] →
    service.leKeyStore.listKeyIds store = .ok keyIds →
    keyIds.length ≤ 1015 ∨ 4194301 ≤ keyIds.length

/-- The same condition on the payload of the reply, whatever the rule. -/
theorem replyReadable_iff_payload {service : AsmService σ} {now : UInt64} {store : σ}
    {requestBytes : ByteBuffer} :
    ReplyReadable service store requestBytes ↔
      (requestBytes.length ≤ 4075 ∨ ∃ request, decodeRequestFrame requestBytes = .ok request ∧
        request.requestId ≠ 0 ∧ AcceptsRequest service store request) ∧
      ∀ request payload code, decodeRequestFrame requestBytes = .ok request →
        request.requestId ≠ 0 → Replies service now store request payload code →
        payload.length ≤ 4071 ∨ 16777211 ≤ payload.length := by
  constructor
  · intro h
    refine ⟨h.copy, fun request payload code hdecode hid hreplies => ?_⟩
    cases hreplies with
    | getTime hcommand =>
        left
        rw [appendBeU64_eq]
        simp
    | reversedWindow hcommand window hpayload hreversed => left; simp
    | eventList hcommand window hpayload hordered eventIds hlist =>
        have := h.eventList request window eventIds hdecode hid hcommand hpayload hordered hlist
        rw [GetEventListPayloadCodec.encodeResponse_length]
        omega
    | missingEvent hcommand eventId hpayload hmissing => left; simp
    | event hcommand eventId hpayload xml hxml =>
        exact h.event request eventId xml hdecode hid hcommand hpayload hxml
    | spb hcommand hpayload => left; simp [QuerySpbPayloadCodec.encodeResponse]
    | surplus hcommand hpayload => left; simp
    | key call hasks answer store' hcall =>
        -- of the answers of the store only the id batch has no fixed size
        by_cases hids : call = .listKeyIds
        · subst hids
          rw [LeKeyStore.run_call_listKeyIds] at hcall
          split at hcall
          · next keyIds hlist =>
              injection hcall with hanswer
              subst hanswer
              have := h.keyIds request keyIds hdecode hid hasks.1 hasks.2 hlist
              rw [keyReply_payload_length_listKeyIds, StoreAnswer.idList]
              omega
          · simp at hcall
        · have := keyReply_payload_length_le hids request answer
          omega
  · intro hreadable
    rcases hreadable with ⟨hcopy, hsize⟩
    refine ⟨hcopy, ?_, ?_, ?_⟩
    · intro request window eventIds hdecode hid hcommand hpayload hordered hlist
      have := hsize request _ _ hdecode hid
        (.eventList hcommand window hpayload hordered eventIds hlist)
      rw [GetEventListPayloadCodec.encodeResponse_length] at this
      omega
    · intro request eventId xml hdecode hid hcommand hpayload hxml
      exact hsize request _ _ hdecode hid (.event hcommand eventId hpayload xml hxml)
    · intro request keyIds hdecode hid hcommand hpayload hlist
      have hcall : (service.leKeyStore.call .listKeyIds).run store = .ok (.ids keyIds) store := by
        rw [LeKeyStore.run_call_listKeyIds, hlist]
      have := hsize request _ _ hdecode hid (.key .listKeyIds ⟨hcommand, hpayload⟩ _ _ hcall)
      rw [keyReply_payload_length_listKeyIds, StoreAnswer.idList] at this
      omega

/-- A reply that fits no frame answers a short message. -/
theorem short_of_large_payload {service : AsmService σ} {now : UInt64} {store : σ}
    {requestBytes payload : ByteBuffer} {request : StandardRequest} {code : GeneralResponse}
    (hdecode : decodeRequestFrame requestBytes = .ok request)
    (h : Replies service now store request payload code) (hlarge : 16777211 ≤ payload.length) :
    requestBytes.length ≤ 4075 := by
  have hlen := length_of_decodeRequestFrame hdecode
  cases h with
  | getTime hcommand =>
      rw [appendBeU64_eq] at hlarge
      simp at hlarge
  | reversedWindow hcommand window hpayload hreversed => simp at hlarge
  | eventList hcommand window hpayload hordered eventIds hlist =>
      rw [GetEventListPayloadCodec.returns_decodeRequest_iff.1 ⟨window, hpayload⟩] at hlen
      omega
  | missingEvent hcommand eventId hpayload hmissing => simp at hlarge
  | event hcommand eventId hpayload xml hxml =>
      rw [returns_decodeIdPayload_iff.1 ⟨eventId, hpayload⟩] at hlen
      omega
  | spb hcommand hpayload => simp [QuerySpbPayloadCodec.encodeResponse] at hlarge
  | surplus hcommand hpayload => simp at hlarge
  | key call hasks answer store' hcall =>
      by_cases hids : call = .listKeyIds
      · subst hids
        rw [hasks.2, List.length_nil] at hlen
        omega
      · have := keyReply_payload_length_le hids request answer
        omega

/-- The response that is sent fits 4096 bytes exactly when the condition holds. -/
theorem producedResponse_fits_iff {service : AsmService σ} {now : UInt64} {store : σ}
    {requestBytes : ByteBuffer} (hlen : requestBytes.length ≤ 4096) :
    (responseValue (producedResponse service now store requestBytes)).length ≤ 4076 ↔
      ReplyReadable service store requestBytes := by
  rw [@replyReadable_iff_payload σ service now]
  rcases response_regular_or_copy service now store requestBytes with hregular | ⟨hcopy, hnone⟩
  · obtain ⟨request, payload, code, hdecode, hid, hreplies, hresponse⟩ := id hregular
    have hvalue : (responseValue (service.receiveOn now requestBytes store).1.response).length
        = 5 + payload.length := by
      rw [hresponse, regularResponse_value_length]
    -- a message has one reply only
    have hsize : (∀ request' payload' code', decodeRequestFrame requestBytes = .ok request' →
        request'.requestId ≠ 0 → Replies service now store request' payload' code' →
        payload'.length ≤ 4071 ∨ 16777211 ≤ payload'.length) ↔
          (payload.length ≤ 4071 ∨ 16777211 ≤ payload.length) := by
      refine ⟨fun h => h request payload code hdecode hid hreplies, ?_⟩
      intro h request' payload' code' hdecode' hid' hreplies'
      have heq := (response_of_replies hdecode' hid' hreplies').symm.trans hresponse
      rw [show payload' = payload from congrArg StandardResponse.payload heq]
      exact h
    rw [hsize]
    have haccepts : AcceptsRequest service store request := exists_replies_iff.1 ⟨_, _, hreplies⟩
    by_cases hlarge : 16777211 ≤ payload.length
    · have hshort := short_of_large_payload hdecode hreplies hlarge
      rw [producedResponse_of_oversize hregular (by rw [hvalue, Klv.maxLength]; omega),
        badRequestCopy_value_length]
      exact iff_of_true (by omega) ⟨Or.inl hshort, Or.inr hlarge⟩
    · rw [producedResponse_of_regular hregular (by rw [hvalue, Klv.maxLength]; omega), hvalue]
      refine ⟨fun hle => ?_, fun h => ?_⟩
      · exact ⟨Or.inr ⟨request, hdecode, hid, haccepts⟩, Or.inl (by omega)⟩
      · have hfits := h.2.resolve_right hlarge
        omega
  · rw [producedResponse, hcopy, sentResponse_badRequestCopy hlen, badRequestCopy_value_length]
    constructor
    · intro hle
      refine ⟨Or.inl (by omega), fun request payload code hdecode hid hreplies => ?_⟩
      exact absurd ⟨request, payload, code, hdecode, hid, hreplies, rfl⟩ (hnone _)
    · rintro ⟨hshort | ⟨request, hdecode, hid, haccepts⟩, -⟩
      · omega
      · obtain ⟨payload, code, hreplies⟩ := (@exists_replies_iff σ service now _ _).2 haccepts
        exact absurd ⟨request, payload, code, hdecode, hid, hreplies, rfl⟩ (hnone _)

section Session

variable {service : AsmService σ} {peer : PeerIdentity} {now : UInt64} {session : Session σ}
  {requestBytes : ByteBuffer} {rest : List (Except SslFailure ByteBuffer)}

/-- What a session sends is read back exactly when its value leaves room for label and length. -/
theorem readResponse_of_session (hne : requestBytes ≠ []) (hlen : requestBytes.length ≤ 4096)
    (hincoming : session.stream.incoming = .ok requestBytes :: rest)
    (hwrites : session.stream.WritesSucceed) (observer : Bool) :
    ∃ session' frame,
      (serveClient service (.ok peer) now observer).run session = .ok () session' ∧
      session'.stream.sent = session.stream.sent ++ frame ∧
      encodeResponseFrame (producedResponse service now session.store requestBytes) = .ok frame ∧
      ((∃ stream, TlsClient.readResponse.run { incoming := [.ok frame] }
          = .ok (producedResponse service now session.store requestBytes) stream) ↔
        (responseValue (producedResponse service now session.store requestBytes)).length ≤ 4076) := by
  obtain ⟨session', hrun, hserved⟩ :=
    @run_serveClient σ service now peer session _ _ hincoming hne hwrites observer
  rw [List.take_of_length_le hlen] at hserved
  obtain ⟨frame, hframe, hsent⟩ := hserved.sent
  have hwell := wellIdentified_producedResponse service now session.store requestBytes
  have hlength : frame.length
      = 20 + (responseValue (producedResponse service now session.store requestBytes)).length := by
    obtain ⟨ul, -, -, hbytes⟩ := (encodeResponseFrame_eq_ok_iff hwell).1 hframe
    rw [hbytes, frameBytes_length]
  refine ⟨session', frame, hrun, hsent, hframe, ?_⟩
  rw [TlsClient.readResponse_returns_iff (decodeResponseFrame_eq_ok_iff.2 ⟨hwell, hframe⟩), hlength]
  omega

end Session

/-- **The client reads the response of the server back** exactly when the message, the event log and
    the key store make it short enough for one read. -/
theorem client_reads_response_iff {σ : Type} (service : AsmService σ) (peer : PeerIdentity)
    (now : UInt64) (observer : Bool) (session : Session σ) (requestBytes : ByteBuffer)
    (rest : List (Except SslFailure ByteBuffer)) (hne : requestBytes ≠ [])
    (hlen : requestBytes.length ≤ 4096) (hincoming : session.stream.incoming = .ok requestBytes :: rest)
    (hwrites : session.stream.WritesSucceed) :
    ∃ session' frame,
      (serveClient service (.ok peer) now observer).run session = .ok () session' ∧
      session'.stream.sent = session.stream.sent ++ frame ∧
      encodeResponseFrame (producedResponse service now session.store requestBytes) = .ok frame ∧
      ((∃ stream, TlsClient.readResponse.run { incoming := [.ok frame] }
          = .ok (producedResponse service now session.store requestBytes) stream) ↔
        ReplyReadable service session.store requestBytes) := by
  obtain ⟨session', frame, hrun, hsent, hframe, hread⟩ := @readResponse_of_session σ service peer now
    session requestBytes rest hne hlen hincoming hwrites observer
  exact ⟨session', frame, hrun, hsent, hframe, hread.trans (producedResponse_fits_iff hlen)⟩

/-- A `GetEventList` request for the events at time zero. -/
def epochListRequest : StandardRequest where
  command := .getEventList
  requestId := 1
  payload := [0, 0, 0, 0, 0, 0, 0, 0]

def epochListFrame : ByteBuffer := frameBytes (makeUl 0x02 0x12) (requestValue epochListRequest)

theorem decode_epochListFrame : decodeRequestFrame epochListFrame = .ok epochListRequest := by decide

theorem length_epochList (n : ℕ) : (listEventIds (List.replicate n {}) 0 0).length = n := by
  simp [listEventIds]

/-- How many events at time zero the client can read. -/
theorem epochList_readable_iff (n : ℕ) :
    ReplyReadable (AsmService.ofEvents (List.replicate n {})) {} epochListFrame ↔
      n ≤ 1015 ∨ 4194301 ≤ n := by
  have hpayload : GetEventListPayloadCodec.decodeRequest epochListRequest.payload
      = .ok { timeStart := 0, timeStop := 0 } := by decide
  constructor
  · intro hreadable
    have hbound :=
      hreadable.eventList _ _ _ decode_epochListFrame (by decide) rfl hpayload (by decide) rfl
    rwa [length_epochList] at hbound
  · intro hn
    refine ⟨Or.inl (by decide), ?_, ?_, ?_⟩
    · intro request window eventIds hdecode _ _ hwindow _ hlist
      obtain rfl := Except.ok.inj (decode_epochListFrame.symm.trans hdecode)
      obtain rfl := Except.ok.inj (hpayload.symm.trans hwindow)
      obtain rfl := Except.ok.inj hlist
      rwa [length_epochList]
    · intro request eventId xml hdecode _ hcommand
      obtain rfl := Except.ok.inj (decode_epochListFrame.symm.trans hdecode)
      cases hcommand
    · intro request keyIds hdecode _ hcommand
      obtain rfl := Except.ok.inj (decode_epochListFrame.symm.trans hdecode)
      cases hcommand

/-- The list of 1015 events is read back. -/
theorem client_reads_event_list :
    ∃ session' frame stream,
      (serveClient (AsmService.ofEvents (List.replicate 1015 {})) (.ok ⟨[], [], []⟩) 0 false).run
          { store := {}, stream := { incoming := [.ok epochListFrame] } } = .ok () session' ∧
      session'.stream.sent = [] ++ frame ∧
      TlsClient.readResponse.run { incoming := [.ok frame] }
        = .ok (producedResponse (AsmService.ofEvents (List.replicate 1015 {})) 0 {} epochListFrame)
            stream := by
  obtain ⟨session', frame, hrun, hsent, -, hread⟩ := client_reads_response_iff
    (AsmService.ofEvents (List.replicate 1015 {})) ⟨[], [], []⟩ 0 false
    { store := {}, stream := { incoming := [.ok epochListFrame] } } epochListFrame [] (by decide)
    (by decide) rfl (by simp [TlsStream.WritesSucceed])
  obtain ⟨stream, hresponse⟩ := hread.2 ((epochList_readable_iff 1015).2 (Or.inl (Nat.le_refl _)))
  exact ⟨session', frame, stream, hrun, hsent, hresponse⟩

/-- The list of 1016 events is one byte too long for the client, which then fails to decode it. -/
theorem client_misses_large_event_list :
    ∃ session' frame,
      (serveClient (AsmService.ofEvents (List.replicate 1016 {})) (.ok ⟨[], [], []⟩) 0
        false).run
          { store := {},
            stream := { incoming :=
              [.ok (frameBytes (makeUl 0x02 0x12) (requestValue epochListRequest))] } }
        = .ok () session' ∧
      session'.stream.sent = [] ++ frame ∧
      ¬ ∃ stream, TlsClient.readResponse.run { incoming := [.ok frame] }
        = .ok (producedResponse (AsmService.ofEvents (List.replicate 1016 {})) 0 {}
            (frameBytes (makeUl 0x02 0x12) (requestValue epochListRequest))) stream := by
  obtain ⟨session', frame, hrun, hsent, -, hread⟩ := @readResponse_of_session InMemoryLeKeyStore
    (AsmService.ofEvents (List.replicate 1016 {})) ⟨[], [], []⟩ 0
    { store := {}, stream := { incoming := [.ok epochListFrame] } }
    _ [] (by decide) (by decide) rfl (by simp [TlsStream.WritesSucceed]) false
  refine ⟨session', frame, hrun, hsent, fun hresponse => ?_⟩
  -- 25 bytes before the payload, then 8 + 1016 * 4
  have hreadable := (producedResponse_fits_iff (by decide)).1 (hread.1 hresponse)
  have hbound := (epochList_readable_iff 1016).1 hreadable
  omega

end AsmProto
