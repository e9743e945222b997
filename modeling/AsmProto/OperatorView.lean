import AsmProto.AsmInitiator
import AsmProto.Console

set_option autoImplicit false

/-! # What operators see

Operators start the initiator again and again, and the responder serves them one after another. With
both programs and the bytes between them in the model, this comes to the console of `Console.lean`. -/

namespace AsmProto

/-- A start of the initiator, and how the responder meets it. -/
structure Visit where
  network : Network
  argv : List StdString
  /-- What its handshake comes to at the responder. -/
  handshake : Except Fault Certificate
  receivedAt : UInt64

namespace Visit

open AsmInitiator Initiator

variable {σ : Type}

/-- The connection the responder accepts, on which it reads what was sent. -/
def connection (visit : Visit) (sent : ByteBuffer) : Connection where
  handshake := visit.handshake
  stream := { incoming := [.ok sent] }
  receivedAt := visit.receivedAt

/-- The initiator gets as far as a connection. -/
def connects (visit : Visit) : Bool :=
  match buildRequest visit.argv with
  | .ok (some request) =>
      match TlsClient.dial visit.network (config visit.argv request.command) (visit.argv.getD 1 []) with
      | .ok _ => true
      | .error _ => false
  | _ => false

/-- Both programs at work. Each calls `SSL_write` once; the initiator writes before it reads, and reads
    no more than the first record of the reply. -/
def exchange (service : AsmService σ) (responder : Responder σ) (visit : Visit) :
    Process × Responder σ :=
  if visit.connects then
    let connection := visit.connection (main visit.network visit.argv {}).sent
    let answer := (TlsServer.sessions service true).step responder connection
    (main visit.network visit.argv { incoming := [.ok answer.1] }, answer.2)
  else (main visit.network visit.argv {}, responder)

end Visit

/-- The programs as a machine: every start of the initiator is answered with its process. -/
def exchanges {σ : Type} (service : AsmService σ) : Machine Visit AsmInitiator.Process (Responder σ) where
  step := Visit.exchange service

/-- The process shows this to its operator: of a failure, the text that was inserted into `std::cout`,
    whether or not it appears before the process aborts. -/
def Shows (process : AsmInitiator.Process) : Shown → Prop
  | .line text => process.exit = .returned 0 ∧ process.out = text
  | .failure text => process.exit ≠ .returned 0 ∧ process.out = text

namespace Visit

open AsmInitiator Initiator

/-- What a start asks of the console: nothing if its arguments make no request, and else the order of
    its request, with handshakes that succeed on both sides. -/
def Gives (visit : Visit) : Option Asked → Prop
  | none => ∀ request, buildRequest visit.argv ≠ .ok (some request)
  | some asked => buildRequest visit.argv = .ok (some asked.order.request) ∧
      (∃ peer, TlsClient.handshake visit.network (config visit.argv asked.order.command)
        (visit.argv.getD 1 []) = .ok peer ∧ peer.sha256Thumbprint = asked.peerThumbprint) ∧
      visit.handshake.Returns ∧ visit.receivedAt = asked.now

/-- The handshake of a start that makes a request succeeds, on both sides. -/
def Meets (visit : Visit) : Prop :=
  ∀ request, buildRequest visit.argv = .ok (some request) →
    (TlsClient.handshake visit.network (config visit.argv request.command)
      (visit.argv.getD 1 [])).Returns ∧ visit.handshake.Returns

theorem meets_of_gives {visit : Visit} {asked : Option Asked} (h : visit.Gives asked) :
    visit.Meets := by
  intro request hbuild
  cases asked with
  | none => exact absurd hbuild (h request)
  | some asked =>
      obtain ⟨hgiven, ⟨peer, hpeer, -⟩, hhandshake, -⟩ := h
      obtain rfl := Option.some.inj (Except.ok.inj (hgiven.symm.trans hbuild))
      exact ⟨⟨peer, hpeer⟩, hhandshake⟩

theorem meets_of_gives_all {visits : List Visit} {asked : List (Option Asked)}
    (h : List.Forall₂ Gives visits asked) : ∀ visit ∈ visits, visit.Meets := by
  induction h with
  | nil => exact List.forall_mem_nil _
  | cons hfirst _ ih => exact List.forall_mem_cons.2 ⟨meets_of_gives hfirst, ih⟩

/-- Whatever is typed gives an order, or none. -/
theorem exists_gives {visit : Visit} (h : visit.Meets) : ∃ asked, visit.Gives asked := by
  by_cases hbuild : ∃ request, buildRequest visit.argv = .ok (some request)
  · obtain ⟨request, hbuild⟩ := hbuild
    obtain ⟨⟨peer, hpeer⟩, hhandshake⟩ := h request hbuild
    obtain ⟨order, rfl⟩ := Order.exists_order hbuild
    exact ⟨some ⟨order, visit.receivedAt, peer.sha256Thumbprint⟩, hbuild, ⟨peer, hpeer, rfl⟩,
      hhandshake, rfl⟩
  · exact ⟨none, fun request hrequest => hbuild ⟨request, hrequest⟩⟩

theorem exists_gives_all {visits : List Visit} (h : ∀ visit ∈ visits, visit.Meets) :
    ∃ asked, List.Forall₂ Gives visits asked := by
  induction visits with
  | nil => exact ⟨[], .nil⟩
  | cons visit visits ih =>
      obtain ⟨hfirst, hrest⟩ := List.forall_mem_cons.1 h
      obtain ⟨first, hfirst⟩ := exists_gives hfirst
      obtain ⟨rest, hrest⟩ := ih hrest
      exact ⟨first :: rest, .cons hfirst hrest⟩

/-! ## The initiator's side -/

/-- A process whose handshake succeeds sends the frame of its request and then reads. -/
theorem main_of_gives {visit : Visit} {asked : Asked} (h : visit.Gives (some asked))
    (incoming : List (Except SslFailure ByteBuffer)) :
    ∃ mid : TlsStream, mid.sent = asked.order.frame ∧ mid.incoming = incoming ∧
      main visit.network visit.argv { incoming := incoming }
        = outcome asked.peerThumbprint (TlsClient.readResponse.run mid) := by
  obtain ⟨hbuild, ⟨peer, hpeer, hthumbprint⟩, -, -⟩ := h
  rw [← hthumbprint]
  exact main_of_handshake hbuild asked.order.encode_frame hpeer incoming

/-- What it sends does not depend on what comes. -/
theorem sent_of_gives {visit : Visit} {asked : Asked} (h : visit.Gives (some asked))
    (incoming : List (Except SslFailure ByteBuffer)) :
    (main visit.network visit.argv { incoming := incoming }).sent = asked.order.frame := by
  obtain ⟨mid, hsent, -, hmain⟩ := main_of_gives h incoming
  rw [hmain, sent_outcome, TlsClient.sent_readResponse, hsent]

theorem connects_of_gives {visit : Visit} {asked : Asked} (h : visit.Gives (some asked)) :
    visit.connects = true := by
  obtain ⟨hbuild, ⟨peer, hpeer, -⟩, -, -⟩ := h
  have hconfig : asked.order.request.command = asked.order.command := rfl
  obtain ⟨ctx, hdial, -⟩ := Except.bind_eq_ok_iff.1 hpeer
  rw [connects, hbuild]
  simp only [hconfig, Except.mapError_eq_ok_iff.1 hdial]

theorem exists_request_of_connects {visit : Visit} (h : visit.connects = true) :
    ∃ request, buildRequest visit.argv = .ok (some request) := by
  unfold connects at h
  cases hbuild : buildRequest visit.argv with
  | error ex => simp [hbuild] at h
  | ok built =>
      cases built with
      | none => simp [hbuild] at h
      | some request => exact ⟨request, rfl⟩

theorem not_connects_of_gives {visit : Visit} (h : visit.Gives none) : visit.connects = false := by
  unfold connects
  split
  · next request hbuild => exact absurd hbuild (h request)
  · rfl

/-- A start without an order shows a failure, and sends nothing. -/
theorem shows_of_no_order {visit : Visit} (h : visit.Gives none) :
    Shows (main visit.network visit.argv {}) (.failure []) := by
  unfold main
  cases hbuild : buildRequest visit.argv with
  | error ex =>
      refine ⟨fun hexit => ?_, rfl⟩
      cases hexit
  | ok built =>
      cases built with
      | none =>
          refine ⟨fun hexit => ?_, rfl⟩
          cases hexit
      | some request => exact absurd hbuild (h request)

/-- What is printed of a response, from its fields on. -/
theorem run_printResult (result : ClientExchangeResult) (out : StdString) :
    (printResult result).run out
      = match (printPayload result.response).run (out
          ++ (ascii "peer=" ++ result.peerThumbprint ++ ascii " command="
            ++ result.response.command.toText ++ ascii " response="
            ++ result.response.responseCode.toText)
          ++ match result.response.requestId with
            | some requestId => ascii " request_id=" ++ Numeral.print 10 requestId.toNat
            | none => []) with
        | .ok _ out => .ok () (out ++ ascii "\n")
        | .error ex out => .error ex out := by
  unfold printResult
  have hrest : ∀ out : StdString,
      ((do
        printPayload result.response
        print (ascii "\n")) : EStateM StdException StdString Unit).run out
      = match (printPayload result.response).run out with
        | .ok _ out => .ok () (out ++ ascii "\n")
        | .error ex out => .error ex out := by
    intro out
    rw [EStateM.run_bind]
    cases (printPayload result.response).run out <;> rfl
  rw [EStateM.run_bind, run_print]
  cases result.response.requestId with
  | some requestId => exact hrest _
  | none =>
      rw [List.append_nil]
      exact hrest _

/-- What the initiator makes of a reply: it decodes the first bytes of it. -/
theorem main_of_reply {visit : Visit} {asked : Asked} (h : visit.Gives (some asked))
    {reply : ByteBuffer} (hne : reply ≠ []) :
    ∃ sent, main visit.network visit.argv { incoming := [.ok reply] }
      = match decodeResponseFrame (reply.take 4096) with
        | .error ex => { exit := .terminated ex, sent := sent }
        | .ok response =>
            match (printResult { response := response
                                 peerThumbprint := asked.peerThumbprint }).run [] with
            | .ok _ out => { exit := .returned 0, out := out, sent := sent }
            | .error ex out => { exit := .terminated ex, out := out, sent := sent } := by
  obtain ⟨mid, -, hincoming, hmain⟩ := main_of_gives h [.ok reply]
  obtain ⟨stream, hread⟩ := TlsClient.run_readResponse hincoming hne
  refine ⟨stream.sent, ?_⟩
  rw [hmain, hread]
  cases decodeResponseFrame (reply.take 4096) with
  | error ex => rfl
  | ok response => rfl

/-- The length of the frame a response is sent in. -/
theorem length_of_encodeResponseFrame {response : StandardResponse} {frame : ByteBuffer}
    (hwell : Codec.WellIdentified response) (h : encodeResponseFrame response = .ok frame) :
    frame.length = 20 + (responseValue response).length := by
  obtain ⟨ul, -, -, rfl⟩ := (encodeResponseFrame_eq_ok_iff hwell).1 h
  exact frameBytes_length ul _

/-- Printing the response gives this. -/
def Displays (asked : Asked) (response : StandardResponse) : Shown → Prop
  | .line text =>
      (printResult { response := response, peerThumbprint := asked.peerThumbprint }).run []
        = .ok () text
  | .failure text => ∃ ex,
      (printResult { response := response, peerThumbprint := asked.peerThumbprint }).run []
        = .error ex text

/-- **A response is shown** if its frame fits one read, and lost if not. -/
theorem shows_of_response {visit : Visit} {asked : Asked} (h : visit.Gives (some asked))
    {response : StandardResponse} {frame : ByteBuffer} (hwell : Codec.WellIdentified response)
    (hframe : encodeResponseFrame response = .ok frame) {shown : Shown}
    (hlost : 4096 < 20 + (responseValue response).length → shown = .failure [])
    (hdisplays : 20 + (responseValue response).length ≤ 4096 → Displays asked response shown) :
    Shows (main visit.network visit.argv { incoming := [.ok frame] }) shown := by
  have hlen := length_of_encodeResponseFrame hwell hframe
  have hne : frame ≠ [] := by
    rintro rfl
    rw [List.length_nil] at hlen
    omega
  have hdecode := decodeResponseFrame_eq_ok_iff.2 ⟨hwell, hframe⟩
  obtain ⟨sent, hmain⟩ := main_of_reply h hne
  by_cases hfits : frame.length ≤ 4096
  · have hprint := hdisplays (by omega)
    rw [List.take_of_length_le hfits, hdecode] at hmain
    rw [hmain]
    cases shown with
    | line text =>
        rw [Displays] at hprint
        simp only [hprint]
        exact ⟨rfl, rfl⟩
    | failure text =>
        obtain ⟨ex, hprint⟩ := hprint
        simp only [hprint]
        refine ⟨fun hexit => ?_, rfl⟩
        cases hexit
  · -- what was read is refused for its length
    obtain ⟨packet, hpacket, -⟩ := Except.bind_eq_ok_iff.1 hdecode
    have hcut : frame.take 4096 ≠ frame := by
      intro heq
      have := congrArg List.length heq
      rw [List.length_take] at this
      omega
    obtain ⟨ex, hex⟩ := Except.not_returns_iff.1
      (Klv.not_returns_decode_of_initial hpacket (List.take_prefix 4096 frame) hcut)
    rw [hlost (by omega), hmain, decodeResponseFrame, hex, Except.error_bind]
    refine ⟨fun hexit => ?_, rfl⟩
    cases hexit

/-- The response of a report is displayed as the console says. -/
theorem displays_of_reports {asked : Asked} {response : StandardResponse} {report : Report}
    (hreports : asked.order.Reports response report) (hfits : 25 + report.size ≤ 4096) :
    Displays asked response (asked.shown report) := by
  have hsmall : 5 + report.size ≤ Klv.maxLength := by
    rw [Klv.maxLength]
    omega
  have hprints := hreports.prints hsmall
  have hrun : ∀ result : ClientExchangeResult, result.response = response →
      result.peerThumbprint = asked.peerThumbprint → (printResult result).run []
        = match (printPayload response).run (asked.head asked.order.command report.code
            ++ ascii " request_id=1") with
          | .ok _ out => .ok () (out ++ ascii "\n")
          | .error ex out => .error ex out := by
    intro result hresponse hthumbprint
    rw [run_printResult, hthumbprint, hresponse, hreports.response_eq]
    rfl
  have hprinted := hrun { response := response, peerThumbprint := asked.peerThumbprint } rfl rfl
  unfold Asked.shown
  rw [if_neg (Nat.not_lt.2 hsmall), if_neg (Nat.not_lt.2 hfits)]
  have hout := hprints (asked.head asked.order.command report.code ++ ascii " request_id=1")
  cases hfields : report.fields with
  | some fields =>
      rw [hfields] at hout
      rw [hout] at hprinted
      exact hprinted
  | none =>
      rw [hfields] at hout
      obtain ⟨ex, hout⟩ := hout
      rw [hout] at hprinted
      exact ⟨ex, hprinted⟩

/-- A BadRequest is displayed with the request it copies. -/
theorem displays_badRequestCopy (asked : Asked) (requestBytes : ByteBuffer) :
    Displays asked (badRequestCopy requestBytes) (.line (asked.head .badRequest .invalid
      ++ ascii " request_copy_hex=" ++ bytesToHex requestBytes ++ ascii "\n")) := by
  rw [Displays, run_printResult]
  simp only [badRequestCopy, printPayload, run_print, Asked.head, List.append_nil, List.nil_append,
    List.append_assoc]

/-! ## The responder's side -/

variable {σ : Type} {service : AsmService σ}

/-- The session of a start with an order sends one frame, and leaves what the service leaves. -/
theorem answer_of_gives {visit : Visit} {asked : Asked} (h : visit.Gives (some asked))
    (responder : Responder σ) :
    let answer := (TlsServer.sessions service true).step responder (visit.connection asked.order.frame)
    encodeResponseFrame (TlsServer.producedResponse service asked.now responder.store
      asked.order.frame) = .ok answer.1 ∧
    answer.2.store = (service.receiveOn asked.now asked.order.frame responder.store).2 := by
  intro answer
  obtain ⟨-, -, ⟨certificate, hhandshake⟩, hnow⟩ := h
  have hwrites : TlsStream.WritesSucceed { incoming := [.ok asked.order.frame] } := by
    simp [TlsStream.WritesSucceed]
  obtain ⟨session, hrun, hserved⟩ := @TlsServer.run_serveClient σ service asked.now
    (readPeerIdentity certificate)
    (TlsServer.opened responder (visit.connection asked.order.frame)) asked.order.frame [] rfl
    asked.order.frame_ne_nil hwrites true
  rw [List.take_of_length_le (asked.order.length_frame_le.trans (by decide))] at hserved
  have hsession : TlsServer.session service true responder (visit.connection asked.order.frame)
      = .ok () session := by
    rw [← hrun, TlsServer.session, TlsServer.serveConnection, connection, hhandshake, hnow]
    rfl
  obtain ⟨frame, hframe, hsent⟩ := hserved.sent
  refine ⟨?_, ?_⟩
  · have hanswer : answer.1 = session.stream.sent := congrArg (fun result => result.state.stream.sent)
      hsession
    rw [hanswer, hsent]
    exact hframe
  · have hstore : session.store
        = (service.receiveOn asked.now asked.order.frame responder.store).2 := hserved.store
    rw [← hstore]
    exact congrArg Responder.store
      (TlsServer.step_sessions_of_run (TlsServer.run_handleClient_of_ok hsession))

/-- What the server sends of a reply that is reported: the reply, or its BadRequest if no frame holds
    it. -/
theorem produced_of_reports {order : Order} {now : UInt64} {store : σ} {report : Report}
    (h : order.Reports (service.receiveOn now order.frame store).1.response report) :
    (responseValue (service.receiveOn now order.frame store).1.response).length = 5 + report.size ∧
    TlsServer.producedResponse service now store order.frame
      = if Klv.maxLength < 5 + report.size then badRequestCopy order.frame
        else (service.receiveOn now order.frame store).1.response := by
  have hwell : Codec.WellIdentified (service.receiveOn now order.frame store).1.response := by
    rw [h.response_eq]
    exact iff_of_false (by simp [regularResponse]) (command_ne_badRequest order.decode_frame)
  have hlen : (responseValue (service.receiveOn now order.frame store).1.response).length
      = 5 + report.size := by
    rw [h.response_eq, regularResponse_value_length, ← h.size]
  refine ⟨hlen, ?_⟩
  unfold TlsServer.producedResponse TlsServer.sentResponse
  by_cases hoversize : Klv.maxLength < 5 + report.size
  · obtain ⟨ex, hthrow⟩ := Except.not_returns_iff.1
      (mt (returns_encodeResponseFrame_iff hwell).1 (by omega))
    rw [if_pos hoversize, hthrow]
    rfl
  · obtain ⟨frame, hframe⟩ := (returns_encodeResponseFrame_iff hwell).2 (by omega)
    rw [if_neg hoversize, hframe]

/-! ## Runs -/

section Runs

variable {keysOf : σ → List LeKeyRecord} {events : List EventRecord} {status : QuerySpbStatus}

/-- **One start**: it shows what the console shows, and leaves the keys the console leaves. -/
theorem exchange_of_gives (hevents : service.eventLogStore = .ofEvents events)
    (hstatus : service.spbStatusProvider.currentStatus = status)
    (hmeans : service.leKeyStore.Means keysOf) (responder : Responder σ) {visit : Visit}
    {asked : Option Asked} (h : visit.Gives asked) :
    Shows ((exchanges service).step responder visit).1
        ((console events status).step (keysOf responder.store) asked).1 ∧
      keysOf ((exchanges service).step responder visit).2.store
        = ((console events status).step (keysOf responder.store) asked).2 := by
  show Shows (exchange service responder visit).1 _ ∧ keysOf (exchange service responder visit).2.store
    = _
  cases asked with
  | none =>
      rw [exchange, not_connects_of_gives h]
      exact ⟨shows_of_no_order h, rfl⟩
  | some asked =>
      have hsent : (main visit.network visit.argv {}).sent = asked.order.frame := sent_of_gives h []
      rw [exchange, if_pos (connects_of_gives h), hsent]
      obtain ⟨hframe, hstore⟩ := @answer_of_gives σ service visit asked h responder
      have hreports := Order.reports_order hevents hstatus hmeans responder.store asked.order asked.now
      have hkeys := Order.keys_receiveOn_frame hmeans responder.store asked.order asked.now
      refine ⟨?_, ?_⟩
      · have hwell := wellIdentified_producedResponse service asked.now responder.store
          asked.order.frame
        obtain ⟨hlen, hproduced⟩ := produced_of_reports hreports
        have hshort := asked.order.length_frame_le
        by_cases hoversize : Klv.maxLength < 5
            + (asked.order.report events status asked.now (keysOf responder.store)).size
        · -- the BadRequest that is sent instead copies the request
          rw [if_pos hoversize] at hproduced
          have hcopy : (responseValue (badRequestCopy asked.order.frame)).length ≤ 65 := by
            rw [TlsServer.badRequestCopy_value_length]
            omega
          rw [hproduced] at hwell hframe
          refine shows_of_response h hwell hframe (fun hlong => by omega) fun _ => ?_
          show Displays asked _ (asked.shown _)
          rw [Asked.shown, if_pos hoversize]
          exact displays_badRequestCopy asked asked.order.frame
        · rw [if_neg hoversize] at hproduced
          rw [hproduced] at hwell hframe
          refine shows_of_response h hwell hframe (fun hlong => ?_) fun hfits => ?_
          · show asked.shown _ = _
            rw [Asked.shown, if_neg hoversize, if_pos (by omega)]
          · exact displays_of_reports hreports (by omega)
      · exact (congrArg keysOf hstore).trans hkeys

/-- **Any number of exchanges** show what the console says, and leave its keys. -/
theorem run_of_gives (hevents : service.eventLogStore = .ofEvents events)
    (hstatus : service.spbStatusProvider.currentStatus = status)
    (hmeans : service.leKeyStore.Means keysOf) (responder : Responder σ) {visits : List Visit}
    {asked : List (Option Asked)} (h : List.Forall₂ Gives visits asked) :
    List.Forall₂ Shows ((exchanges service).answers responder visits)
        ((console events status).answers (keysOf responder.store) asked) ∧
      keysOf ((exchanges service).after responder visits).store
        = (console events status).after (keysOf responder.store) asked := by
  have hstep : ∀ (responder : Responder σ) keys visit asked, keysOf responder.store = keys →
      Gives visit asked →
      Shows ((exchanges service).step responder visit).1 ((console events status).step keys asked).1 ∧
        keysOf ((exchanges service).step responder visit).2.store
          = ((console events status).step keys asked).2 := by
    rintro responder _ visit asked rfl hvisit
    exact exchange_of_gives hevents hstatus hmeans responder hvisit
  exact Machine.run_of_related hstep rfl h

end Runs

end Visit

/-- **Operators see a console.** Over any sequence of starts of the initiator against one responder,
    whatever is typed, if the handshakes of those that come to a request succeed: each process prints
    the line, or fails as, the console says (and may then lose text it has not flushed), and the keys the
    store stands for are those of the console throughout. -/
theorem operators_see_console {σ : Type} (service : AsmService σ) (keysOf : σ → List LeKeyRecord)
    (events : List EventRecord) (status : QuerySpbStatus) (visits : List Visit)
    (responder : Responder σ) (hevents : service.eventLogStore = .ofEvents events)
    (hstatus : service.spbStatusProvider.currentStatus = status)
    (hmeans : service.leKeyStore.Means keysOf) (hmeets : ∀ visit ∈ visits, visit.Meets) :
    (∃ asked, List.Forall₂ Visit.Gives visits asked) ∧
    ∀ asked, List.Forall₂ Visit.Gives visits asked →
      List.Forall₂ Shows ((exchanges service).answers responder visits)
        ((console events status).answers (keysOf responder.store) asked) ∧
      keysOf ((exchanges service).after responder visits).store
        = (console events status).after (keysOf responder.store) asked := by
  refine ⟨Visit.exists_gives_all hmeets, fun asked hgives => ?_⟩
  exact Visit.run_of_gives hevents hstatus hmeans responder hgives

/-- A start that types an order, on a network where both sides show the certificate of `plainX509`. -/
def plainVisit (order : Order) : Visit where
  network := AsmInitiator.plainNetwork
  argv := order.argv (ascii "asm_initiator") (ascii "127.0.0.1") (ascii "server.pem")
    (ascii "server.key") (ascii "ca.pem")
  handshake := .ok { subject := [], issuer := [], sha256 := .zero 32 }
  receivedAt := 0

theorem gives_plainVisit (order : Order) : (plainVisit order).Gives
    (some { order := order, now := 0, peerThumbprint := bytesToHex (FixedBytes.zero 32).val }) := by
  have hconfig : AsmInitiator.config (plainVisit order).argv order.command = TlsServer.plainConfig := by
    cases order <;> rfl
  refine ⟨order.buildRequest_argv _ _ _ _ _, ⟨⟨[], [], bytesToHex (FixedBytes.zero 32).val⟩, ?_, rfl⟩,
    ⟨_, rfl⟩, rfl⟩
  rw [hconfig]
  exact AsmInitiator.plainHandshake

/-- One key is loaded, a start is mistyped, and the keys are purged one by one. -/
theorem operators_see_console_load :
    ((exchanges (AsmService.ofEvents [])).after { store := {} }
      [plainVisit (.load (blankKey 7)), { plainVisit .queryAll with argv := [] },
        plainVisit (.purge 8)]).store.keys = [blankKey 7] := by
  have hmistyped : Visit.Gives { plainVisit .queryAll with argv := [] } none := by
    intro request hbuild
    cases hbuild
  have hgives : List.Forall₂ Visit.Gives [plainVisit (.load (blankKey 7)),
      { plainVisit .queryAll with argv := [] }, plainVisit (.purge 8)] _ :=
    .cons (gives_plainVisit (.load (blankKey 7)))
      (.cons hmistyped (.cons (gives_plainVisit (.purge 8)) .nil))
  refine ((operators_see_console (AsmService.ofEvents []) InMemoryLeKeyStore.keys [] .notPlaying _
    { store := {} } rfl rfl InMemoryLeKeyStore.means (Visit.meets_of_gives_all hgives)).2 _
    hgives).2.trans ?_
  decide

end AsmProto
