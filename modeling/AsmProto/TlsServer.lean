import AsmProto.Replies
import AsmProto.TlsStream

set_option autoImplicit false

/-! # The TLS server

`TlsServer::serve_client`: one request and one response over an accepted connection. The state holds
the key store, the connection, the trace that is filled in along the way, the calls made of the
service and the traces the observer was given. Whatever the `try` block throws, also after the store
was asked or while the response was written, the handler answers with BadRequest. -/

namespace AsmProto

structure SessionTrace where
  peerThumbprint : StdString := []
  command : Command := .badRequest
  requestId : Option RequestId := none
  status : GeneralResponse := .successful
  note : String := ""
deriving DecidableEq

/-- A call of the service, with what it is given. -/
inductive ServiceCall where
  | handleRequest (request : StandardRequest) (rawRequest : ByteBuffer) (peer : PeerIdentity)
  | handleDecodeFailure (rawRequest : ByteBuffer) (reason : String)
deriving DecidableEq

structure Session (σ : Type) where
  store : σ
  stream : TlsStream
  trace : SessionTrace := {}
  calls : List ServiceCall := []
  observed : List SessionTrace := []

namespace TlsServer

variable {σ : Type}

/-- A procedure on the connection. -/
def onStream {α : Type} (x : EStateM Fault TlsStream α) : EStateM Fault (Session σ) α :=
  EStateM.zoom Session.stream (fun stream session => { session with stream := stream }) x

/-- A procedure on the key store. -/
def onStore {α : Type} (x : EStateM StdException σ α) : EStateM Fault (Session σ) α :=
  EStateM.zoom Session.store (fun store session => { session with store := store })
    (EStateM.adaptExcept .exception x)

def setTrace (f : SessionTrace → SessionTrace) : EStateM Fault (Session σ) Unit :=
  modify fun session => { session with trace := f session.trace }

def logCall (call : ServiceCall) : EStateM Fault (Session σ) Unit :=
  modify fun session => { session with calls := session.calls ++ [call] }

/-- The `try` block. -/
def respond (service : AsmService σ) (now : UInt64) (peer : PeerIdentity)
    (requestBytes : ByteBuffer) : EStateM Fault (Session σ) Unit := do
  let klvPacket ← throwing (Klv.decode requestBytes)
  let request ← throwing (Codec.decodeRequest klvPacket)
  setTrace fun trace => { trace with command := request.command, requestId := some request.requestId }
  logCall (.handleRequest request requestBytes peer)
  let result ← onStore (service.handleRequest now request requestBytes)
  setTrace fun trace => { trace with status := result.response.responseCode, note := result.note }
  let response ← throwing (encodeResponseFrame result.response)
  onStream (writeAll response)

/-- The `catch` block. -/
def respondFailure (requestBytes : ByteBuffer) (ex : StdException) :
    EStateM Fault (Session σ) Unit := do
  logCall (.handleDecodeFailure requestBytes ex.what)
  let result := AsmService.handleDecodeFailure requestBytes ex.what
  setTrace fun trace => { trace with status := result.response.responseCode, note := ex.what }
  let response ← throwing (encodeResponseFrame result.response)
  onStream (writeAll response)

/-- `handshake` is the outcome of everything before the first read: the context, `SSL_accept`, and the
    checks on the peer's certificate. -/
def serveClient (service : AsmService σ) (handshake : Except Fault PeerIdentity)
    (now : UInt64) (observer : Bool) : EStateM Fault (Session σ) Unit := do
  let peer ← EStateM.liftExcept handshake
  setTrace fun _ => { peerThumbprint := peer.sha256Thumbprint }
  let requestBytes ← onStream readOneMessage
  catchException (respond service now peer requestBytes) (respondFailure requestBytes)
  if observer then
    modify fun session => { session with observed := session.observed ++ [session.trace] }

/-! ## The response a session ends with -/

/-- The response that is sent: the one of the service if it fits a frame, else BadRequest. -/
def sentResponse (requestBytes : ByteBuffer) (response : StandardResponse) : StandardResponse :=
  match encodeResponseFrame response with
  | .ok _ => response
  | .error ex => (AsmService.handleDecodeFailure requestBytes ex.what).response

/-- The response a session ends with. -/
def producedResponse (service : AsmService σ) (now : UInt64) (store : σ) (requestBytes : ByteBuffer) :
    StandardResponse :=
  sentResponse requestBytes (service.receiveOn now requestBytes store).1.response

theorem run_onStream {α : Type} (x : EStateM Fault TlsStream α) (session : Session σ) :
    (onStream x).run session = match x.run session.stream with
      | .ok a stream => .ok a { session with stream := stream }
      | .error ex stream => .error ex { session with stream := stream } := by
  rw [onStream, EStateM.run_zoom]
  cases x.run session.stream <;> rfl

theorem run_onStore {α : Type} (x : EStateM StdException σ α) (session : Session σ) :
    (onStore x).run session = match x.run session.store with
      | .ok a store => .ok a { session with store := store }
      | .error ex store => .error (.exception ex) { session with store := store } := by
  rw [onStore, EStateM.run_zoom, EStateM.run_adaptExcept]
  cases x.run session.store <;> rfl

@[simp] theorem run_setTrace (f : SessionTrace → SessionTrace) (session : Session σ) :
    (setTrace f).run session = .ok () { session with trace := f session.trace } := rfl

@[simp] theorem run_logCall (call : ServiceCall) (session : Session σ) :
    (logCall call).run session = .ok () { session with calls := session.calls ++ [call] } := rfl

/-- A BadRequest copy is well identified. -/
theorem wellIdentified_badRequestCopy (requestBytes : ByteBuffer) :
    Codec.WellIdentified (badRequestCopy requestBytes) :=
  iff_of_true rfl rfl

theorem badRequestCopy_value_length (requestBytes : ByteBuffer) :
    (responseValue (badRequestCopy requestBytes)).length = requestBytes.length + 1 := by
  simp [responseValue, badRequestCopy, Codec.responseHead]

/-- A copy of a message the server can read always fits a frame. -/
theorem returns_encode_badRequestCopy {requestBytes : ByteBuffer} (hlen : requestBytes.length ≤ 4096) :
    (encodeResponseFrame (badRequestCopy requestBytes)).Returns := by
  rw [returns_encodeResponseFrame_iff (wellIdentified_badRequestCopy requestBytes),
    badRequestCopy_value_length, Klv.maxLength]
  omega

/-- A BadRequest copy the service returned is sent as it is. -/
theorem sentResponse_badRequestCopy {requestBytes : ByteBuffer} (hlen : requestBytes.length ≤ 4096) :
    sentResponse requestBytes (badRequestCopy requestBytes) = badRequestCopy requestBytes := by
  obtain ⟨frame, hframe⟩ := returns_encode_badRequestCopy hlen
  rw [sentResponse, hframe]

/-! ## The `try` block and its handler

Both come to at most one write, in a state (`Prepared`) that depends on the message alone. What the
writes then do is a matter of the connection. -/

section Serve

variable {service : AsmService σ} {now : UInt64} {peer : PeerIdentity} {requestBytes : ByteBuffer}

theorem run_respond_of_error {ex : StdException} (h : decodeRequestFrame requestBytes = .error ex)
    (session : Session σ) :
    (respond service now peer requestBytes).run session = .error (.exception ex) session := by
  unfold decodeRequestFrame at h
  unfold respond
  rw [EStateM.run_bind]
  cases hpacket : Klv.decode requestBytes with
  | error ex' =>
      rw [hpacket, Except.error_bind, Except.error.injEq] at h
      subst h
      rfl
  | ok packet =>
      rw [hpacket, Except.ok_bind] at h
      simp only [run_throwing_ok, EStateM.run_bind, h]
      rfl

/-- The state in which the service is asked. -/
def asked (request : StandardRequest) (requestBytes : ByteBuffer) (peer : PeerIdentity)
    (session : Session σ) : Session σ :=
  { session with
    trace := { session.trace with command := request.command, requestId := some request.requestId }
    calls := session.calls ++ [.handleRequest request requestBytes peer] }

/-- The state after the service answered. -/
def handled (result : ServiceResult) (store : σ) (session : Session σ) : Session σ :=
  { session with
    store := store
    trace := { session.trace with status := result.response.responseCode, note := result.note } }

theorem run_respond_of_ok {request : StandardRequest}
    (h : decodeRequestFrame requestBytes = .ok request) (session : Session σ) :
    (respond service now peer requestBytes).run session
      = match (service.handleRequest now request requestBytes).run session.store with
        | .error ex store =>
            .error (.exception ex) { asked request requestBytes peer session with store := store }
        | .ok result store =>
            (do
              setTrace fun trace =>
                { trace with status := result.response.responseCode, note := result.note }
              let response ← throwing (encodeResponseFrame result.response)
              onStream (writeAll response)).run
              { asked request requestBytes peer session with store := store } := by
  obtain ⟨packet, hpacket, hrequest⟩ := Except.bind_eq_ok_iff.1 h
  unfold respond
  simp only [EStateM.run_bind, hpacket, hrequest, run_throwing_ok, run_setTrace, run_logCall,
    run_onStore]
  cases (service.handleRequest now request requestBytes).run session.store with
  | error ex store => rfl
  | ok result store => rfl

/-- The calls of the service a message leads to in the `try` block. -/
def triedCalls (peer : PeerIdentity) (requestBytes : ByteBuffer) : List ServiceCall :=
  match decodeRequestFrame requestBytes with
  | .ok request => [.handleRequest request requestBytes peer]
  | .error _ => []

/-- The frame the `try` block writes: none where it throws before. -/
def replyFrame (service : AsmService σ) (now : UInt64) (store : σ) (message : ByteBuffer) :
    Option ByteBuffer :=
  match decodeRequestFrame message with
  | .error _ => none
  | .ok request =>
      match (service.handleRequest now request message).run store with
      | .error _ _ => none
      | .ok result _ =>
          match encodeResponseFrame result.response with
          | .ok frame => some frame
          | .error _ => none

/-- The trace names the peer, and the request the message holds. -/
structure Attributes (trace : SessionTrace) (thumbprint : StdString) (message : ByteBuffer) : Prop where
  peerThumbprint : trace.peerThumbprint = thumbprint
  request : ∀ request, decodeRequestFrame message = .ok request →
    trace.command = request.command ∧ trace.requestId = some request.requestId

/-- What the `try` block leaves before it writes: the service has been called with the message. -/
structure Prepared (service : AsmService σ) (now : UInt64) (peer : PeerIdentity)
    (requestBytes : ByteBuffer) (session mid : Session σ) : Prop where
  stream : mid.stream = session.stream
  store : mid.store = (service.receiveOn now requestBytes session.store).2
  calls : mid.calls = session.calls ++ triedCalls peer requestBytes
  observed : mid.observed = session.observed
  attributes : Attributes mid.trace session.trace.peerThumbprint requestBytes

/-- What the `try` block and its handler leave, but for the connection. -/
structure Concluded (service : AsmService σ) (now : UInt64) (peer : PeerIdentity)
    (requestBytes : ByteBuffer) (session last : Session σ) : Prop where
  store : last.store = (service.receiveOn now requestBytes session.store).2
  calls : ∃ failures, last.calls = session.calls ++ (triedCalls peer requestBytes ++ failures) ∧
    ∀ call ∈ failures, ∃ reason, call = .handleDecodeFailure requestBytes reason
  observed : last.observed = session.observed
  attributes : Attributes last.trace session.trace.peerThumbprint requestBytes

theorem Concluded.onStream {session last : Session σ}
    (h : Concluded service now peer requestBytes session last) (stream : TlsStream) :
    Concluded service now peer requestBytes session { last with stream := stream } :=
  ⟨h.store, h.calls, h.observed, h.attributes⟩

theorem Prepared.concluded {session mid : Session σ}
    (h : Prepared service now peer requestBytes session mid) :
    Concluded service now peer requestBytes session mid :=
  ⟨h.store, ⟨[], by rw [h.calls, List.append_nil], by simp⟩, h.observed, h.attributes⟩

/-- The attributes of a trace that is filled in for the request. -/
theorem attributes_of_decode {request : StandardRequest} {trace : SessionTrace}
    (hdecode : decodeRequestFrame requestBytes = .ok request) (hcommand : trace.command = request.command)
    (hid : trace.requestId = some request.requestId) :
    Attributes trace trace.peerThumbprint requestBytes := by
  refine ⟨rfl, fun request' hdecode' => ?_⟩
  obtain rfl := Except.ok.inj (hdecode.symm.trans hdecode')
  exact ⟨hcommand, hid⟩

/-- **The `try` block** throws without a reply, or comes to writing it. -/
theorem run_respond_cases (session : Session σ) :
    ∃ mid, Prepared service now peer requestBytes session mid ∧
      ((replyFrame service now session.store requestBytes = none ∧
          (∃ ex, (respond service now peer requestBytes).run session = .error (.exception ex) mid) ∧
          (requestBytes.length ≤ 4096 →
            producedResponse service now session.store requestBytes = badRequestCopy requestBytes)) ∨
        ∃ frame, replyFrame service now session.store requestBytes = some frame ∧
          (respond service now peer requestBytes).run session = (onStream (writeAll frame)).run mid ∧
          encodeResponseFrame (producedResponse service now session.store requestBytes)
            = .ok frame) := by
  unfold producedResponse
  cases hdecode : decodeRequestFrame requestBytes with
  | error ex =>
      refine ⟨session, ⟨rfl, ?_, ?_, rfl, ⟨rfl, ?_⟩⟩, Or.inl ⟨?_, ⟨ex, ?_⟩, ?_⟩⟩
      · rw [AsmService.receiveOn_of_error hdecode]
      · rw [triedCalls, hdecode, List.append_nil]
      · simp [hdecode]
      · rw [replyFrame, hdecode]
      · exact run_respond_of_error hdecode session
      · intro hlen
        rw [AsmService.receiveOn_of_error hdecode]
        exact sentResponse_badRequestCopy hlen
  | ok request =>
      have hrun := @run_respond_of_ok σ service now peer _ _ hdecode session
      have hreceive := @AsmService.receiveOn_of_ok σ service now _ _ hdecode session.store
      have hcalls : session.calls ++ [.handleRequest request requestBytes peer]
          = session.calls ++ triedCalls peer requestBytes := by
        rw [triedCalls, hdecode]
      cases hhandle : (service.handleRequest now request requestBytes).run session.store with
      | error ex store =>
          rw [hhandle] at hrun hreceive
          refine ⟨{ asked request requestBytes peer session with store := store },
            ⟨rfl, by rw [hreceive], hcalls, rfl, attributes_of_decode hdecode rfl rfl⟩,
            Or.inl ⟨by simp only [replyFrame, hdecode, hhandle], ⟨ex, hrun⟩, fun hlen => ?_⟩⟩
          rw [hreceive]
          exact sentResponse_badRequestCopy hlen
      | ok result store =>
          rw [hhandle] at hrun hreceive
          simp only [EStateM.run_bind, run_setTrace] at hrun
          refine ⟨handled result store (asked request requestBytes peer session),
            ⟨rfl, by rw [hreceive]; rfl, hcalls, rfl, attributes_of_decode hdecode rfl rfl⟩, ?_⟩
          cases hencode : encodeResponseFrame result.response with
          | error ex =>
              -- the store has changed already
              rw [hencode] at hrun
              refine Or.inl ⟨by simp only [replyFrame, hdecode, hhandle, hencode], ⟨ex, hrun⟩,
                fun hlen => ?_⟩
              rw [hreceive, sentResponse, hencode]
              rfl
          | ok frame =>
              rw [hencode, run_throwing_ok] at hrun
              refine Or.inr ⟨frame, by simp only [replyFrame, hdecode, hhandle, hencode], hrun, ?_⟩
              rw [hreceive, sentResponse, hencode]
              exact hencode

/-- **The handler** comes to writing the BadRequest copy, and asks nothing of the store. -/
theorem run_respondFailure_cases {session mid : Session σ}
    (h : Prepared service now peer requestBytes session mid) (hlen : requestBytes.length ≤ 4096)
    (ex : StdException) (stream : TlsStream) :
    ∃ frame last, (respondFailure requestBytes ex).run { mid with stream := stream }
        = (onStream (writeAll frame)).run last ∧
      encodeResponseFrame (badRequestCopy requestBytes) = .ok frame ∧ last.stream = stream ∧
      Concluded service now peer requestBytes session last := by
  obtain ⟨frame, hframe⟩ := returns_encode_badRequestCopy hlen
  have hencode : encodeResponseFrame (AsmService.handleDecodeFailure requestBytes ex.what).response
      = .ok frame := hframe
  refine ⟨frame, { mid with
    stream := stream
    trace := { mid.trace with
      status := (AsmService.handleDecodeFailure requestBytes ex.what).response.responseCode
      note := ex.what }
    calls := mid.calls ++ [.handleDecodeFailure requestBytes ex.what] }, ?_, hframe, rfl,
    ⟨h.store, ⟨[.handleDecodeFailure requestBytes ex.what], ?_, ?_⟩, h.observed,
      h.attributes.peerThumbprint, h.attributes.request⟩⟩
  · unfold respondFailure
    simp only [EStateM.run_bind, run_logCall, run_setTrace, hencode, run_throwing_ok]
  · rw [h.calls, List.append_assoc]
  · intro call hcall
    exact ⟨ex.what, List.mem_singleton.1 hcall⟩

/-! ## A session whose writes succeed -/

/-- Sending a frame on a connection whose writes succeed. -/
theorem run_send (session : Session σ) (hwrites : session.stream.WritesSucceed) (frame : ByteBuffer) :
    ∃ stream, (onStream (writeAll frame)).run session = .ok () { session with stream := stream } ∧
      stream.sent = session.stream.sent ++ frame := by
  obtain ⟨stream, hrun, hsent, -⟩ := run_writeAll hwrites frame
  exact ⟨stream, by rw [run_onStream, hrun], hsent⟩

/-- What a session did with the message `requestBytes`: the service handled it, and one frame was
    sent. -/
structure Served (service : AsmService σ) (now : UInt64) (requestBytes : ByteBuffer)
    (session session' : Session σ) : Prop where
  sent : ∃ frame,
    encodeResponseFrame (producedResponse service now session.store requestBytes) = .ok frame ∧
      session'.stream.sent = session.stream.sent ++ frame
  store : session'.store = (service.receiveOn now requestBytes session.store).2

/-- **The `try` block and its handler send exactly one frame.** -/
theorem run_tryCatch_respond (session : Session σ) (hlen : requestBytes.length ≤ 4096)
    (hwrites : session.stream.WritesSucceed) :
    ∃ session', (catchException (respond service now peer requestBytes)
        (respondFailure requestBytes)).run session = .ok () session' ∧
      Served service now requestBytes session session' := by
  obtain ⟨mid, hmid, hcases⟩ := @run_respond_cases σ service now peer requestBytes session
  rcases hcases with ⟨-, ⟨ex, hrun⟩, hproduced⟩ | ⟨frame, -, hrun, hframe⟩
  · obtain ⟨frame, last, hfailure, hframe, hstream, hlast⟩ :=
      run_respondFailure_cases hmid hlen ex mid.stream
    obtain ⟨stream, hsend, hsent⟩ := run_send last (by rw [hstream, hmid.stream]; exact hwrites) frame
    refine ⟨{ last with stream := stream }, ?_, ⟨frame, ?_, ?_⟩, hlast.store⟩
    · rw [run_catchException_of_exception hrun]
      exact hfailure.trans hsend
    · rw [hproduced hlen, hframe]
    · rw [hsent, hstream, hmid.stream]
  · obtain ⟨stream, hsend, hsent⟩ := run_send mid (by rw [hmid.stream]; exact hwrites) frame
    refine ⟨{ mid with stream := stream }, ?_, ⟨frame, hframe, ?_⟩, hmid.store⟩
    · exact run_catchException_of_ok (hrun.trans hsend) _
    · rw [hsent, hmid.stream]

/-- A session after its read: the `try` block and its handler, and then the observer. -/
theorem run_serveClient_of_read {session : Session σ} {stream : TlsStream}
    (hread : readOneMessage.run session.stream = .ok requestBytes stream) (observer : Bool) :
    (serveClient service (.ok peer) now observer).run session
      = match (catchException (respond service now peer requestBytes)
            (respondFailure requestBytes)).run
          { session with trace := { peerThumbprint := peer.sha256Thumbprint }, stream := stream } with
        | .ok _ session' =>
            .ok () (if observer then
              { session' with observed := session'.observed ++ [session'.trace] } else session')
        | .error fault session' => .error fault session' := by
  unfold serveClient
  simp only [EStateM.run_bind, EStateM.run_liftExcept_ok, run_setTrace, run_onStream, hread]
  split
  · next hrun =>
      rw [hrun]
      cases observer <;> rfl
  · next hrun => rw [hrun]

/-- **A session over a connection whose writes succeed** reads one message, calls the service with it
    and sends one frame. -/
theorem run_serveClient {session : Session σ} {record : ByteBuffer}
    {rest : List (Except SslFailure ByteBuffer)} (hincoming : session.stream.incoming = .ok record :: rest)
    (hne : record ≠ []) (hwrites : session.stream.WritesSucceed) (observer : Bool) :
    ∃ session', (serveClient service (.ok peer) now observer).run session = .ok () session' ∧
      Served service now (record.take 4096) session session' := by
  obtain ⟨session', hrun, hserved⟩ := run_tryCatch_respond
    { session with
      trace := { peerThumbprint := peer.sha256Thumbprint }
      stream := { session.stream with incoming :=
        if record.length ≤ 4096 then rest else .ok (record.drop 4096) :: rest } }
    (List.length_take_le _ _) hwrites
  rw [run_serveClient_of_read (run_readOneMessage hincoming hne), hrun]
  cases observer with
  | false => exact ⟨session', rfl, hserved.sent, hserved.store⟩
  | true => exact ⟨_, rfl, hserved.sent, hserved.store⟩

/-! ## A session on any connection

The service is called, the trace filled in and the store changed before the first write; the calls of
`SSL_write` decide only whether the session returns. -/

/-- The bytes of the frame of the BadRequest copy. -/
def copyLength (message : ByteBuffer) : ℕ := 20 + (message.length + 1)

/-- How the writes of a session end: those of the reply, or, where these fail or there is no reply,
    those of the BadRequest copy, by the calls of `SSL_write` that are left. -/
def writesEnding (service : AsmService σ) (now : UInt64) (store : σ) (message : ByteBuffer)
    (outcomes : List WriteOutcome) : Ending :=
  match replyFrame service now store message with
  | none => (drain (copyLength message) outcomes).1
  | some frame =>
      if (drain frame.length outcomes).1 = .throws then
        (drain (copyLength message) (drain frame.length outcomes).2).1
      else (drain frame.length outcomes).1

/-- The calls of `SSL_write` take the whole reply, or else, with the calls that are left, the whole
    BadRequest copy. -/
def Delivers (service : AsmService σ) (now : UInt64) (store : σ) (message : ByteBuffer)
    (outcomes : List WriteOutcome) : Prop :=
  writesEnding service now store message outcomes = .returns

theorem length_of_badRequestCopy {frame : ByteBuffer}
    (h : encodeResponseFrame (badRequestCopy requestBytes) = .ok frame) :
    frame.length = copyLength requestBytes := by
  obtain ⟨ul, -, -, rfl⟩ :=
    (encodeResponseFrame_eq_ok_iff (wellIdentified_badRequestCopy requestBytes)).1 h
  rw [frameBytes_length, badRequestCopy_value_length, copyLength]

/-- Sending a frame on any connection. -/
theorem run_onStream_writeAll (session : Session σ) (frame : ByteBuffer) :
    ∃ stream, ((onStream (writeAll frame)).run session).state = { session with stream := stream } ∧
      resultEnding ((onStream (writeAll frame)).run session)
        = (drain frame.length session.stream.outcomes).1 ∧
      stream.outcomes = (drain frame.length session.stream.outcomes).2 := by
  obtain ⟨hending, houtcomes⟩ := ending_writeAll session.stream frame
  refine ⟨((writeAll frame).run session.stream).state, ?_, ?_, houtcomes⟩
  · rw [run_onStream]
    cases (writeAll frame).run session.stream <;> rfl
  · rw [run_onStream, ← hending]
    cases (writeAll frame).run session.stream <;> rfl

/-- **The `try` block and its handler** end as their writes do, and have done the same however that
    is. -/
theorem run_tryCatch_respond_cases (session : Session σ) (hlen : requestBytes.length ≤ 4096) :
    let result := (catchException (respond service now peer requestBytes)
      (respondFailure requestBytes)).run session
    Concluded service now peer requestBytes session result.state ∧
      resultEnding result
        = writesEnding service now session.store requestBytes session.stream.outcomes := by
  intro result
  obtain ⟨mid, hmid, hcases⟩ := @run_respond_cases σ service now peer requestBytes session
  -- what the handler makes of the state the `try` block left
  have hhandler : ∀ ex stream, (respond service now peer requestBytes).run session
        = .error (.exception ex) { mid with stream := stream } →
      Concluded service now peer requestBytes session result.state ∧
        resultEnding result = (drain (copyLength requestBytes) stream.outcomes).1 := by
    intro ex stream hrun
    obtain ⟨frame, last, hfailure, hframe, hstream, hlast⟩ :=
      run_respondFailure_cases hmid hlen ex stream
    obtain ⟨stream', hstate, hending, -⟩ := run_onStream_writeAll last frame
    have hresult : result = (onStream (writeAll frame)).run last :=
      (run_catchException_of_exception hrun _).trans hfailure
    rw [hresult, ← length_of_badRequestCopy hframe, ← hstream, hstate]
    exact ⟨hlast.onStream stream', hending⟩
  unfold writesEnding
  rcases hcases with ⟨hreply, ⟨ex, hrun⟩, -⟩ | ⟨frame, hreply, hrun, -⟩
  · rw [hreply, ← hmid.stream]
    exact hhandler ex mid.stream hrun
  · rw [hreply, ← hmid.stream]
    obtain ⟨stream, hstate, hending, houtcomes⟩ := run_onStream_writeAll mid frame
    have hconcluded := hmid.concluded.onStream stream
    simp only [← hending, ← houtcomes]
    cases hend : resultEnding ((onStream (writeAll frame)).run mid) with
    | returns =>
        obtain ⟨_, hsend⟩ := eq_ok_of_ending hend
        have hresult : result = .ok () _ := run_catchException_of_ok (hrun.trans hsend) _
        rw [hresult, EStateM.Result.state_ok, hstate]
        exact ⟨hconcluded, rfl⟩
    | throws =>
        obtain ⟨ex, hsend⟩ := eq_exception_of_ending hend
        rw [hstate] at hsend
        exact hhandler ex stream (hrun.trans hsend)
    | killed =>
        have hsend := eq_sigpipe_of_ending hend
        have hresult : result = .error .sigpipe _ :=
          run_catchException_of_sigpipe (hrun.trans hsend) _
        rw [hresult, EStateM.Result.state_error, hstate]
        exact ⟨hconcluded, rfl⟩

/-- **A session after its read**: its calls and its store are those of the `try` block and its handler;
    the observer is no call of the service. -/
theorem state_serveClient_of_read {session : Session σ} {stream : TlsStream}
    (hread : readOneMessage.run session.stream = .ok requestBytes stream)
    (hlen : requestBytes.length ≤ 4096) (observer : Bool) :
    ((serveClient service (.ok peer) now observer).run session).state.store
        = (service.receiveOn now requestBytes session.store).2 ∧
      ∃ failures, ((serveClient service (.ok peer) now observer).run session).state.calls
          = session.calls ++ (triedCalls peer requestBytes ++ failures) ∧
        ∀ call ∈ failures, ∃ reason, call = .handleDecodeFailure requestBytes reason := by
  obtain ⟨hlast, -⟩ := @run_tryCatch_respond_cases σ service now peer requestBytes
    { session with trace := { peerThumbprint := peer.sha256Thumbprint }, stream := stream } hlen
  rw [run_serveClient_of_read hread]
  generalize (catchException (respond service now peer requestBytes)
    (respondFailure requestBytes)).run _ = result at hlast ⊢
  cases result with
  | ok _ last => cases observer <;> exact ⟨hlast.store, hlast.calls⟩
  | error fault last => exact ⟨hlast.store, hlast.calls⟩

/-- **The calls of a session**: those of the `try` block for the bytes of the first read, and at most
    a decode failure for the same bytes. -/
theorem calls_serveClient {session : Session σ} {record : ByteBuffer}
    {rest : List (Except SslFailure ByteBuffer)} (hincoming : session.stream.incoming = .ok record :: rest)
    (hne : record ≠ []) (observer : Bool) :
    ∃ failures, ((serveClient service (.ok peer) now observer).run session).state.calls
        = session.calls ++ (triedCalls peer (record.take 4096) ++ failures) ∧
      ∀ call ∈ failures, ∃ reason, call = .handleDecodeFailure (record.take 4096) reason :=
  (state_serveClient_of_read (run_readOneMessage hincoming hne) (List.length_take_le _ _) observer).2

/-- The first message of a connection whose handshake succeeds. -/
def delivered {α ε : Type} (handshake : Except ε α) (stream : TlsStream) : Option ByteBuffer :=
  match handshake with
  | .ok _ => stream.firstMessage
  | .error _ => none

/-- The store after what the service does with a message, if there is one. -/
def storeAfter (service : AsmService σ) (now : UInt64) (store : σ) : Option ByteBuffer → σ
  | some message => (service.receiveOn now message store).2
  | none => store

/-- **What a session does to the store**: what the service does with the message it delivers. -/
theorem store_serveClient (handshake : Except Fault PeerIdentity) (session : Session σ)
    (observer : Bool) :
    ((serveClient service handshake now observer).run session).state.store
      = storeAfter service now session.store (delivered handshake session.stream) := by
  cases handshake with
  | error ex => rfl
  | ok peer =>
      rcases readOneMessage_cases session.stream with
        ⟨message, stream, hmessage, -, hread, hlen, -⟩ | ⟨hnone, fault, stream, hread, -⟩
      · rw [delivered, hmessage]
        exact (state_serveClient_of_read hread hlen observer).1
      · rw [delivered, hnone, serveClient]
        simp only [EStateM.run_bind, EStateM.run_liftExcept_ok, run_setTrace, run_onStream, hread]
        rfl

/-- How a session ends: as its handshake does if that fails, else as its read, and then as its writes. -/
def sessionEnding {α : Type} (service : AsmService σ) (now : UInt64) (store : σ)
    (handshake : Except Fault α) (stream : TlsStream) : Ending :=
  match handshake with
  | .error fault => fault.ending
  | .ok _ =>
      match stream.firstMessage with
      | none => stream.readEnding
      | some message => writesEnding service now store message stream.outcomes

/-- **How a session ends** depends on the connection, and on the message and the store. -/
theorem ending_serveClient (handshake : Except Fault PeerIdentity) (session : Session σ)
    (observer : Bool) :
    resultEnding ((serveClient service handshake now observer).run session)
      = sessionEnding service now session.store handshake session.stream := by
  cases handshake with
  | error fault => rfl
  | ok peer =>
      unfold sessionEnding
      rcases readOneMessage_cases session.stream with
        ⟨message, stream, hmessage, -, hread, hlen, houtcomes⟩ | ⟨hnone, fault, stream, hread, hending⟩
      · obtain ⟨-, hwrites⟩ := @run_tryCatch_respond_cases σ service now peer message
          { session with trace := { peerThumbprint := peer.sha256Thumbprint }, stream := stream } hlen
        rw [houtcomes] at hwrites
        rw [run_serveClient_of_read hread, hmessage]
        simp only [← hwrites]
        generalize (catchException (respond service now peer message)
          (respondFailure message)).run _ = result
        cases result <;> rfl
      · rw [hnone, serveClient]
        simp only [EStateM.run_bind, EStateM.run_liftExcept_ok, run_setTrace, run_onStream, hread]
        exact hending.symm

/-- A session on a connection that raises no SIGPIPE is not killed. -/
theorem sessionEnding_of_spared {α : Type} {handshake : Except Fault α} {stream : TlsStream}
    (hhandshake : handshake ≠ .error .sigpipe) (h : stream.Spared) (store : σ) :
    sessionEnding service now store handshake stream ≠ .killed := by
  unfold sessionEnding
  cases handshake with
  | error fault =>
      cases fault with
      | exception ex => exact Ending.noConfusion
      | sigpipe => exact absurd rfl hhandshake
  | ok a =>
      simp only
      cases stream.firstMessage with
      | none => exact h.readEnding_ne_killed
      | some message =>
          simp only [writesEnding]
          cases replyFrame service now store message with
          | none => exact (drain_of_spared h.outcomes _).1
          | some frame =>
              obtain ⟨hreply, hrest⟩ := drain_of_spared h.outcomes frame.length
              simp only
              split
              · exact (drain_of_spared hrest _).1
              · exact hreply

end Serve

end TlsServer

end AsmProto
