import AsmProto.AccessControl
import AsmProto.Initiator
import AsmProto.Socket

set_option autoImplicit false

/-! # The initiator program

`main` of `asm_initiator.cpp`: its arguments make a request, `send_request` connects, checks the
certificate of the responder, writes the request and reads the response, and the response is printed.
An exception that leaves `main` terminates the process, and so does a SIGPIPE of the connection. What
is printed is what is inserted into `std::cout`; a process that ends in one of these ways may leave the
end of it unwritten. -/

namespace AsmProto

/-- What the initiator meets on its way to the responder. -/
structure Network where
  openSsl : OpenSsl
  dialling : Socket.Dialling
  sslNew : Bool := true
  /-- `SSL_connect` with a context, and then `SSL_get1_peer_certificate`. -/
  sslConnect : SslCtx → Except SslFailure (Option X509)

namespace TlsClient

/-- `send_request` until the connection is there. -/
def dial (network : Network) (config : TlsConfig) (host : StdString) :
    Except StdException SslCtx := do
  let ctx ← TlsContextFactory.createClient network.openSsl config
  Socket.dial network.dialling host
  .ok ctx

/-- `send_request` before its first write. -/
def handshake (network : Network) (config : TlsConfig) (host : StdString) :
    Except Fault PeerIdentity := do
  let ctx ← (dial network config host).mapError .exception
  if network.sslNew then
    let peerCert ← sslExpectPositive (network.sslConnect ctx) "SSL_connect"
    (CertificateUtils.validateCertificateProfile peerCert).mapError .exception
    (CertificateUtils.readPeerIdentity peerCert).mapError .exception
  else .error (.exception (.asmError "failed to allocate SSL object"))

/-- A peer with this identity showed a certificate that the CA file vouches for and that keeps the
    profile. -/
def Trusted (vouches : StdString → X509 → Prop) (config : TlsConfig) (peer : PeerIdentity) : Prop :=
  ∃ x509, CertificateUtils.readPeerIdentity (some x509) = .ok peer ∧ x509.Conforms ∧
    vouches config.caCertificate x509

theorem trusted_of_handshake {vouches : StdString → X509 → Prop} {network : Network}
    {config : TlsConfig} {host : StdString} {peer : PeerIdentity} (hverify : config.verifyPeer = true)
    (hnetwork : VerifiesPeer vouches network.sslConnect)
    (h : handshake network config host = .ok peer) : Trusted vouches config peer := by
  unfold handshake at h
  obtain ⟨ctx, hdial, h⟩ := Except.bind_eq_ok_iff.1 h
  obtain ⟨_, hctx, hrest⟩ := Except.bind_eq_ok_iff.1 (Except.mapError_eq_ok_iff.1 hdial)
  obtain ⟨_, -, hsame⟩ := Except.bind_eq_ok_iff.1 hrest
  obtain rfl := Except.ok.inj hsame
  split at h
  · obtain ⟨peerCert, hconnect, h⟩ := Except.bind_eq_ok_iff.1 h
    obtain ⟨_, hvalid, hread⟩ := Except.bind_eq_ok_iff.1 h
    obtain ⟨x509, rfl, hconforms, hvouches⟩ := exists_vouched hverify hnetwork hctx hconnect
      (Except.mapError_eq_ok_iff.1 hvalid)
    exact ⟨x509, Except.mapError_eq_ok_iff.1 hread, hconforms, hvouches⟩
  · cases h

/-- Reading the response sends nothing. -/
theorem sent_readResponse (stream : TlsStream) :
    (readResponse.run stream).state.sent = stream.sent := by
  have hread : ∀ result, readOneMessage.run stream = result → result.state.sent = stream.sent := by
    rintro result rfl
    unfold readOneMessage sslRead
    simp only [EStateM.run_bind, EStateM.run_get]
    split
    · rfl
    · rfl
    · simp only [EStateM.run_bind, EStateM.run_set]
      split <;> rfl
  unfold readResponse
  rw [EStateM.run_bind]
  cases hrun : readOneMessage.run stream with
  | error ex stream' => exact hread _ hrun
  | ok message stream' =>
      have hsent : stream'.sent = stream.sent := hread _ hrun
      simp only [EStateM.run_bind]
      cases Klv.decode message with
      | error ex => exact hsent
      | ok packet =>
          simp only [run_throwing_ok]
          cases Codec.decodeResponse packet with
          | error ex => exact hsent
          | ok response => exact hsent

/-- What is read is the first message. -/
theorem message_of_readResponse {stream stream' : TlsStream} {response : StandardResponse}
    (h : readResponse.run stream = .ok response stream') :
    ∃ message, stream.firstMessage = some message ∧ decodeResponseFrame message = .ok response := by
  unfold readResponse at h
  obtain ⟨message, mid, hread, h⟩ := EStateM.run_bind_eq_ok_iff.1 h
  refine ⟨message, ?_, ?_⟩
  · rcases readOneMessage_cases stream with ⟨message', stream'', hfirst, -, hrun, -⟩ |
      ⟨-, fault, stream'', hrun, -⟩
    · rw [hrun] at hread
      injection hread with hmessage
      rw [hfirst, hmessage]
    · rw [hrun] at hread
      cases hread
  · unfold decodeResponseFrame
    obtain ⟨packet, mid', hpacket, h⟩ := EStateM.run_bind_eq_ok_iff.1 h
    cases hdecode : Klv.decode message with
    | error ex =>
        rw [hdecode] at hpacket
        cases hpacket
    | ok packet' =>
        rw [hdecode, run_throwing_ok] at hpacket
        injection hpacket with hpacket
        subst hpacket
        rw [Except.ok_bind]
        cases hresponse : Codec.decodeResponse packet' with
        | error ex =>
            rw [hresponse] at h
            cases h
        | ok response' =>
            rw [hresponse, run_throwing_ok] at h
            injection h with h
            rw [h]

/-- **How an exchange goes**: it ends before a write, or while the frame of its request is written, or
    comes to reading the response. -/
theorem run_sendRequest_cases (handshake : Except Fault PeerIdentity)
    (request : StandardRequest) (stream : TlsStream) :
    (∃ fault, (sendRequest handshake request).run stream = .error fault stream) ∨
    ∃ peer frame, handshake = .ok peer ∧ encodeRequestFrame request = .ok frame ∧
      ((∃ fault stream' count, (sendRequest handshake request).run stream = .error fault stream' ∧
          stream'.sent = stream.sent ++ frame.take count) ∨
        ∃ mid, mid.sent = stream.sent ++ frame ∧ mid.incoming = stream.incoming ∧
          (sendRequest handshake request).run stream = match readResponse.run mid with
            | .ok response stream' =>
                .ok { response := response, peerThumbprint := peer.sha256Thumbprint } stream'
            | .error fault stream' => .error fault stream') := by
  unfold sendRequest
  cases handshake with
  | error fault => exact Or.inl ⟨fault, rfl⟩
  | ok peer =>
      rw [EStateM.run_bind, EStateM.run_liftExcept_ok]
      cases hframe : encodeRequestFrame request with
      | error ex => exact Or.inl ⟨.exception ex, rfl⟩
      | ok frame =>
          refine Or.inr ⟨peer, frame, rfl, rfl, ?_⟩
          simp only [EStateM.run_bind, run_throwing_ok]
          rcases run_writeAll_sent stream frame with ⟨mid, hrun, hsent, hincoming⟩ |
            ⟨fault, stream', count, hrun, hsent⟩
          · refine Or.inr ⟨mid, hsent, hincoming, ?_⟩
            simp only [hrun]
            cases readResponse.run mid <;> rfl
          · exact Or.inl ⟨fault, stream', count, by simp only [hrun], hsent⟩

end TlsClient

namespace AsmInitiator

open Initiator

/-- How the process ends: `main` returns, an exception leaves it, or SIGPIPE kills the process. -/
inductive Exit where
  | returned (code : ℕ)
  | terminated (ex : StdException)
  | killed

def Exit.ofFault : Fault → Exit
  | .exception ex => .terminated ex
  | .sigpipe => .killed

/-- What a process leaves; `sent` are the bytes it wrote to its connection. -/
structure Process where
  exit : Exit
  out : StdString := []
  err : StdString := []
  sent : ByteBuffer := []

/-- The files at the end of the arguments. -/
def config (argv : List StdString) (command : Command) : TlsConfig :=
  let certIndex := 3 + (commandArgc command).getD 0
  { certificate := argv.getD certIndex []
    privateKey := argv.getD (certIndex + 1) []
    caCertificate := argv.getD (certIndex + 2) [] }

/-- What `main` says when it returns 1. -/
def complaint (argv : List StdString) : StdString :=
  if argv.length < 6 then
    ascii "usage: asm_initiator <host> <command> [command args...] <cert.pem> <key.pem> <ca.pem>\n"
  else match parseCommand (argv.getD 2 []) with
    | .ok .badRequest => ascii "BadRequest is response-only\n"
    | _ => ascii "unexpected arguments for command\n"

/-- `main` from the connection on. -/
def exchange (network : Network) (argv : List StdString) (request : StandardRequest)
    (stream : TlsStream) : Process :=
  let handshake := TlsClient.handshake network (config argv request.command) (argv.getD 1 [])
  match (TlsClient.sendRequest handshake request).run stream with
  | .error fault stream' => { exit := .ofFault fault, sent := stream'.sent }
  | .ok result stream' =>
      match (printResult result).run [] with
      | .ok _ out => { exit := .returned 0, out := out, sent := stream'.sent }
      | .error ex out => { exit := .terminated ex, out := out, sent := stream'.sent }

def main (network : Network) (argv : List StdString) (stream : TlsStream) : Process :=
  match buildRequest argv with
  | .error ex => { exit := .terminated ex }
  | .ok none => { exit := .returned 1, err := complaint argv }
  | .ok (some request) => exchange network argv request stream

/-- What `main` leaves of its reading the response. -/
def outcome (peerThumbprint : StdString) :
    EStateM.Result Fault TlsStream StandardResponse → Process
  | .error fault stream => { exit := .ofFault fault, sent := stream.sent }
  | .ok response stream =>
      match (printResult { response := response, peerThumbprint := peerThumbprint }).run [] with
      | .ok _ out => { exit := .returned 0, out := out, sent := stream.sent }
      | .error ex out => { exit := .terminated ex, out := out, sent := stream.sent }

theorem sent_outcome (peerThumbprint : StdString)
    (result : EStateM.Result Fault TlsStream StandardResponse) :
    (outcome peerThumbprint result).sent = result.state.sent := by
  cases result with
  | error fault stream => rfl
  | ok response stream =>
      rw [outcome]
      cases (printResult { response := response, peerThumbprint := peerThumbprint }).run [] <;> rfl

/-- **A process whose handshake succeeds**, and whose writes do, sends its request and then reads. -/
theorem main_of_handshake {network : Network} {argv : List StdString} {request : StandardRequest}
    {frame : ByteBuffer} {peer : PeerIdentity} (hbuild : buildRequest argv = .ok (some request))
    (hframe : encodeRequestFrame request = .ok frame)
    (hpeer : TlsClient.handshake network (config argv request.command) (argv.getD 1 []) = .ok peer)
    (incoming : List (Except SslFailure ByteBuffer)) :
    ∃ mid : TlsStream, mid.sent = frame ∧ mid.incoming = incoming ∧
      main network argv { incoming := incoming }
        = outcome peer.sha256Thumbprint (TlsClient.readResponse.run mid) := by
  have hwrites : TlsStream.WritesSucceed { incoming := incoming } := by simp [TlsStream.WritesSucceed]
  obtain ⟨mid, hrun, hsent, hincoming, -⟩ := run_writeAll hwrites frame
  refine ⟨mid, hsent, hincoming, ?_⟩
  rw [main, hbuild]
  simp only [exchange, hpeer, TlsClient.sendRequest, EStateM.run_bind, EStateM.run_liftExcept_ok, hframe,
    run_throwing_ok, hrun]
  cases TlsClient.readResponse.run mid <;> rfl

/-! ## Who is told -/

/-- What a process that got through its handshake told: a first part of its request, or the whole and
    then it printed what it read. -/
structure Told (argv : List StdString) (stream : TlsStream) (request : StandardRequest)
    (frame : ByteBuffer) (peer : PeerIdentity) (process : Process) : Prop where
  sent : process.sent <+: frame
  printed : process.out = [] ∧ (∃ fault, process.exit = .ofFault fault) ∨
    process.sent = frame ∧ ∃ message response,
      stream.firstMessage = some message ∧ decodeResponseFrame message = .ok response ∧
      process.out = ((printResult { response := response
                                    peerThumbprint := peer.sha256Thumbprint }).run []).state

/-- **One exchange**: nothing is sent or printed, or the handshake came to a peer, who is told the
    request. -/
theorem told_of_exchange (network : Network) (argv : List StdString) (request : StandardRequest)
    {stream : TlsStream} (hfresh : stream.sent = []) :
    ((exchange network argv request stream).sent = [] ∧
      (exchange network argv request stream).out = [] ∧
      ∃ fault, (exchange network argv request stream).exit = .ofFault fault) ∨
    ∃ peer frame,
      TlsClient.handshake network (config argv request.command) (argv.getD 1 []) = .ok peer ∧
      encodeRequestFrame request = .ok frame ∧
      Told argv stream request frame peer (exchange network argv request stream) := by
  unfold exchange
  rcases TlsClient.run_sendRequest_cases
      (TlsClient.handshake network (config argv request.command) (argv.getD 1 [])) request stream with
    ⟨fault, hrun⟩ | ⟨peer, frame, hhandshake, hframe, hwritten⟩
  · simp only [hrun]
    exact Or.inl ⟨hfresh, trivial, fault, rfl⟩
  · refine Or.inr ⟨peer, frame, hhandshake, hframe, ?_⟩
    rcases hwritten with ⟨fault, stream', count, hrun, hsent⟩ | ⟨mid, hsent, hincoming, hrun⟩
    · simp only [hrun]
      refine ⟨?_, Or.inl ⟨rfl, fault, rfl⟩⟩
      rw [hsent, hfresh, List.nil_append]
      exact List.take_prefix count frame
    · have hmid : mid.sent = frame := by rw [hsent, hfresh, List.nil_append]
      have hquiet := TlsClient.sent_readResponse mid
      cases hread : TlsClient.readResponse.run mid with
      | error fault stream' =>
          rw [hread, EStateM.Result.state_error] at hquiet
          simp only [hrun, hread]
          refine ⟨?_, Or.inl ⟨rfl, fault, rfl⟩⟩
          rw [hquiet, hmid]
      | ok response stream' =>
          rw [hread, EStateM.Result.state_ok] at hquiet
          obtain ⟨message, hfirst, hdecode⟩ := TlsClient.message_of_readResponse hread
          have hmessage : stream.firstMessage = some message := by
            rw [← hfirst, TlsStream.firstMessage, TlsStream.firstMessage, hincoming]
          have hsame : stream'.sent = frame := hquiet.trans hmid
          simp only [hrun, hread]
          cases hprint : (printResult { response := response
                                        peerThumbprint := peer.sha256Thumbprint }).run [] with
          | ok _ out =>
              exact ⟨by rw [hsame], Or.inr ⟨hsame, message, response, hmessage, hdecode,
                by rw [hprint, EStateM.Result.state_ok]⟩⟩
          | error ex out =>
              exact ⟨by rw [hsame], Or.inr ⟨hsame, message, response, hmessage, hdecode,
                by rw [hprint, EStateM.Result.state_error]⟩⟩

/-- **Only verified responders are told, and believed.** Whatever the arguments, the network and the
    peer do beyond OpenSSL's documented verification: bytes are sent, or anything is printed, only
    after a handshake with a peer whose certificate the CA file of the command line vouches for and
    which keeps the profile. What is sent is a first part of the one request that the arguments make;
    what is printed is the response read from this peer, under its thumbprint, after all of the
    request was sent. -/
theorem only_verified_responders_are_told (vouches : StdString → X509 → Prop) (network : Network)
    (argv : List StdString) (stream : TlsStream) (hnetwork : VerifiesPeer vouches network.sslConnect)
    (hfresh : stream.sent = []) :
    let process := main network argv stream
    (process.sent = [] ∧ process.out = [] ∧ process.exit ≠ .returned 0) ∨
    ∃ request frame peer, buildRequest argv = .ok (some request) ∧
      encodeRequestFrame request = .ok frame ∧
      TlsClient.Trusted vouches (config argv request.command) peer ∧
      Told argv stream request frame peer process := by
  intro process
  have hprocess : process = main network argv stream := rfl
  unfold main at hprocess
  cases hbuild : buildRequest argv with
  | error ex =>
      rw [hbuild] at hprocess
      rw [hprocess]
      exact Or.inl ⟨rfl, rfl, fun h => by cases h⟩
  | ok built =>
      rw [hbuild] at hprocess
      cases built with
      | none =>
          rw [hprocess]
          exact Or.inl ⟨rfl, rfl, fun h => by cases h⟩
      | some request =>
          rw [hprocess]
          rcases told_of_exchange network argv request hfresh with
            ⟨hsent, hout, fault, hexit⟩ | ⟨peer, frame, hhandshake, hframe, htold⟩
          · refine Or.inl ⟨hsent, hout, fun h => ?_⟩
            rw [hexit] at h
            cases fault <;> cases h
          · exact Or.inr ⟨request, frame, peer, rfl, hframe,
              TlsClient.trusted_of_handshake rfl hnetwork hhandshake, htold⟩

/-- A network with a responder that shows the certificate of `plainX509`. -/
def plainNetwork : Network where
  openSsl := TlsServer.plainOpenSsl
  dialling := { getaddrinfo := fun _ => .ok [.error "Connection refused", .ok ()] }
  sslConnect := fun _ => .ok (some TlsServer.plainX509)

theorem plainHandshake : TlsClient.handshake plainNetwork TlsServer.plainConfig (ascii "127.0.0.1")
    = .ok ⟨[], [], bytesToHex (FixedBytes.zero 32).val⟩ := by
  obtain ⟨ctx, hctx⟩ := TlsServer.exists_plainCtx false
  have hcreate : TlsContextFactory.createClient plainNetwork.openSsl TlsServer.plainConfig
      = .ok ctx := hctx
  have hdial : TlsClient.dial plainNetwork TlsServer.plainConfig (ascii "127.0.0.1") = .ok ctx := by
    rw [TlsClient.dial, hcreate]
    rfl
  have hnew : plainNetwork.sslNew = true := rfl
  have hconnect : sslExpectPositive (plainNetwork.sslConnect ctx) "SSL_connect"
      = .ok (some TlsServer.plainX509) := rfl
  have hvalid : CertificateUtils.validateCertificateProfile (some TlsServer.plainX509) = .ok () :=
    CertificateUtils.validateCertificateProfile_eq_ok_iff.2 ⟨_, rfl, TlsServer.plainX509_conforms⟩
  rw [TlsClient.handshake, hdial, Except.mapError_ok, Except.ok_bind, if_pos hnew, hconnect,
    Except.ok_bind, hvalid]
  rfl

/-- `asm_initiator 127.0.0.1 get-time server.pem server.key ca.pem`. -/
def plainArgv : List StdString :=
  ["asm_initiator", "127.0.0.1", "get-time", "server.pem", "server.key", "ca.pem"].map ascii

/-- The reply of a responder whose time is 1000. -/
def plainReply : ByteBuffer :=
  frameBytes (makeUl 0x02 0x11) ([0, 0, 0, 1] ++ [0, 0, 0, 0, 0, 0, 0x03, 0xe8] ++ [0])

def plainResponse : StandardResponse where
  command := .getTime
  requestId := some 1
  payload := [0, 0, 0, 0, 0, 0, 0x03, 0xe8]
  responseCode := .successful

/-- The line of that reply. -/
def plainLine : StdString := ascii "peer=" ++ bytesToHex (FixedBytes.zero 32).val
  ++ ascii " command=GetTime response=successful request_id=1 epoch=1000\n"

/-- The responder of that network is sent the request, and its answer is printed under its thumbprint. -/
theorem only_verified_responders_are_told_plain :
    let process := main plainNetwork plainArgv { incoming := [.ok plainReply] }
    process.sent = frameBytes (makeUl 0x02 0x10) [0, 0, 0, 1] ∧ process.out = plainLine ∧
    ∃ peer, peer.sha256Thumbprint = bytesToHex (FixedBytes.zero 32).val ∧
      TlsClient.Trusted (fun _ x509 => x509 = TlsServer.plainX509) TlsServer.plainConfig peer := by
  intro process
  have hverified : VerifiesPeer (fun _ x509 => x509 = TlsServer.plainX509) plainNetwork.sslConnect := by
    intro ctx x509 locations hconnect _ _
    exact (Option.some.inj (Except.ok.inj hconnect)).symm
  have hbuild : buildRequest plainArgv
      = .ok (some { command := .getTime, requestId := 1, payload := [] }) := by decide
  have hframe : encodeRequestFrame { command := .getTime, requestId := 1, payload := [] }
      = .ok (frameBytes (makeUl 0x02 0x10) [0, 0, 0, 1]) := by decide
  have hprint : (printResult { response := plainResponse
                               peerThumbprint := bytesToHex (FixedBytes.zero 32).val }).run []
      = .ok () plainLine := by rfl
  -- what the process prints under the thumbprint of the one peer there is
  obtain ⟨mid, hsent, hincoming, hmain⟩ :=
    main_of_handshake hbuild hframe plainHandshake [.ok plainReply]
  obtain ⟨stream, hread⟩ := TlsClient.run_readResponse hincoming (by decide)
  have hdecode : decodeResponseFrame (plainReply.take 4096) = .ok plainResponse := by decide
  rw [hdecode] at hread
  have hexit : process.exit = .returned 0 := by
    rw [show process = _ from hmain, hread, outcome, hprint]
  rcases only_verified_responders_are_told _ plainNetwork plainArgv { incoming := [.ok plainReply] }
    hverified rfl with ⟨-, -, hfailed⟩ | ⟨request, frame, peer, hbuild', hframe', htrusted, htold⟩
  · exact absurd hexit hfailed
  · obtain rfl := Option.some.inj (Except.ok.inj (hbuild.symm.trans hbuild'))
    obtain rfl := Except.ok.inj (hframe.symm.trans hframe')
    have hpeer : peer.sha256Thumbprint = bytesToHex (FixedBytes.zero 32).val := by
      obtain ⟨x509, hpeer, -, rfl⟩ := htrusted
      obtain rfl := Except.ok.inj hpeer
      rfl
    rcases htold.printed with ⟨-, fault, hfault⟩ | ⟨hwhole, message, response, hmessage, hresponse, hout⟩
    · rw [hfault] at hexit
      cases fault <;> cases hexit
    · refine ⟨hwhole, ?_, peer, hpeer, htrusted⟩
      obtain rfl := Option.some.inj hmessage
      obtain rfl := Except.ok.inj (hdecode.symm.trans hresponse)
      rw [hpeer, hprint] at hout
      exact hout

end AsmInitiator

end AsmProto
