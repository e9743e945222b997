import AsmProto.TlsRun

set_option autoImplicit false

/-! # The audit trace

`serve_client` fills its trace in as the session goes on, and gives it to the observer at the end. A
session that throws before that leaves only the trace that `run` builds anew, without peer, command
and request id. It throws when neither the reply nor the BadRequest copy gets out. Where a write raises
SIGPIPE, there is no trace at all. -/

namespace AsmProto

namespace TlsServer

/-- The trace `run` builds anew has no thumbprint. -/
theorem not_attributes_note (note : String) (certificate : Certificate) (message : ByteBuffer) :
    ¬ Attributes { note := note } (readPeerIdentity certificate).sha256Thumbprint message := by
  intro hattributes
  have hlength := congrArg List.length hattributes.peerThumbprint
  simp [readPeerIdentity, bytesToHex_length, certificate.sha256.property] at hlength

/-- What a connection leaves with the observer: if its session returns, a trace that names the peer and
    the request; if it throws, a bare note; and nothing if the process is killed. -/
def Leaves (connection : Connection) (before observed : List SessionTrace) : Ending → Prop
  | .returns => ∃ trace certificate message, observed = before ++ [trace] ∧
      connection.handshake = .ok certificate ∧ connection.stream.firstMessage = some message ∧
      Attributes trace (readPeerIdentity certificate).sha256Thumbprint message
  | .throws => ∃ note, observed = before ++ [{ note := note }]
  | .killed => observed = before

/-- The observer is called by the session as its last step, or not at all. -/
theorem observed_session {σ : Type} {service : AsmService σ} (connection : Connection)
    (responder : Responder σ) :
    (∃ last, session service true responder connection = .ok () last ∧
      Leaves connection responder.observed last.observed .returns) ∨
    ∃ fault last, session service true responder connection = .error fault last ∧
      last.observed = responder.observed := by
  unfold session serveConnection
  cases hhandshake : connection.handshake with
  | error fault => exact Or.inr ⟨fault, _, rfl, rfl⟩
  | ok certificate =>
      rw [Except.map]
      rcases readOneMessage_cases connection.stream with ⟨message, stream, hmessage, -, hread, hlen, -⟩ |
        ⟨-, fault, stream, hread, -⟩
      · obtain ⟨hlast, -⟩ := @run_tryCatch_respond_cases σ service connection.receivedAt
          (readPeerIdentity certificate) message
          { opened responder connection with
            trace := { peerThumbprint := (readPeerIdentity certificate).sha256Thumbprint }
            stream := stream } hlen
        have hopened : readOneMessage.run (opened responder connection).stream
            = .ok message stream := hread
        rw [run_serveClient_of_read hopened]
        generalize (catchException (respond service connection.receivedAt
          (readPeerIdentity certificate) message) (respondFailure message)).run _ = result at hlast ⊢
        have hobserved : result.state.observed = responder.observed := hlast.observed
        cases result with
        | ok _ last =>
            refine Or.inl ⟨_, rfl, last.trace, certificate, message, ?_, hhandshake, hmessage,
              hlast.attributes⟩
            rw [← hobserved]
            rfl
        | error fault last => exact Or.inr ⟨fault, last, rfl, hobserved⟩
      · refine Or.inr ⟨fault, { opened responder connection with
          trace := { peerThumbprint := (readPeerIdentity certificate).sha256Thumbprint }
          stream := stream }, ?_, rfl⟩
        rw [serveClient]
        simp only [EStateM.run_bind, EStateM.run_liftExcept_ok, run_setTrace, run_onStream, opened,
          hread]

/-- **What any connection leaves with the observer**, by the ending of its session. -/
theorem observed_handleClient {σ : Type} {service : AsmService σ} (connection : Connection)
    (responder : Responder σ) :
    Leaves connection responder.observed
      ((handleClient service true connection).run responder).state.observed
      (connection.ending service responder.store) := by
  rw [← @ending_session σ service true responder connection]
  rcases @observed_session σ service connection responder with ⟨last, hsession, hleaves⟩ |
    ⟨fault, last, hsession, hobserved⟩
  · rw [run_handleClient_of_ok hsession, hsession]
    exact hleaves
  · cases fault with
    | exception ex =>
        rw [run_handleClient_of_exception hsession, hsession]
        exact ⟨ex.what, by rw [← hobserved]; rfl⟩
    | sigpipe =>
        rw [run_handleClient_of_sigpipe hsession, hsession]
        exact hobserved

/-- The session of a connection that delivers a message ends as its writes do. -/
theorem ending_of_message {σ : Type} {service : AsmService σ} {connection : Connection}
    {certificate : Certificate} {message : ByteBuffer}
    (hhandshake : connection.handshake = .ok certificate)
    (hmessage : connection.stream.firstMessage = some message) (store : σ) :
    connection.ending service store
      = writesEnding service connection.receivedAt store message connection.stream.outcomes := by
  simp only [Connection.ending, sessionEnding, hhandshake, hmessage]

/-- **When the audit trace is complete.** For a connection whose handshake and certificate check
    succeed and that delivers a message, whatever happens to it and to the writes, the observer is
    called exactly once, unless a write kills the process; the trace it is given names the peer and,
    if the message decodes, command and id of the request, if and only if the reply or else the
    BadRequest copy gets out whole. -/
theorem audit_trace_complete_iff {σ : Type} (service : AsmService σ) (connection : Connection)
    (certificate : Certificate) (message : ByteBuffer) (responder : Responder σ)
    (hhandshake : connection.handshake = .ok certificate)
    (hmessage : connection.stream.firstMessage = some message) :
    let responder' := ((handleClient service true connection).run responder).state
    (writesEnding service connection.receivedAt responder.store message connection.stream.outcomes
        ≠ .killed →
      ∃ trace, responder'.observed = responder.observed ++ [trace]) ∧
    ((∃ trace, responder'.observed = responder.observed ++ [trace] ∧
        Attributes trace (readPeerIdentity certificate).sha256Thumbprint message) ↔
      Delivers service connection.receivedAt responder.store message connection.stream.outcomes) := by
  intro responder'
  have hleaves := @observed_handleClient σ service connection responder
  rw [ending_of_message hhandshake hmessage] at hleaves
  unfold Delivers
  cases hending : writesEnding service connection.receivedAt responder.store message
    connection.stream.outcomes with
  | returns =>
      rw [hending] at hleaves
      obtain ⟨trace, certificate', message', hobserved, hhandshake', hmessage', hattributes⟩ := hleaves
      obtain rfl := Except.ok.inj (hhandshake.symm.trans hhandshake')
      obtain rfl := Option.some.inj (hmessage.symm.trans hmessage')
      exact ⟨fun _ => ⟨trace, hobserved⟩, iff_of_true ⟨trace, hobserved, hattributes⟩ rfl⟩
  | throws =>
      rw [hending] at hleaves
      obtain ⟨note, hobserved⟩ := hleaves
      refine ⟨fun _ => ⟨_, hobserved⟩, iff_of_false ?_ (by simp)⟩
      intro hcomplete
      obtain ⟨trace, hobserved', hattributes⟩ := hcomplete
      have hsame := List.append_cancel_left (hobserved.symm.trans hobserved')
      obtain rfl := (List.cons.inj hsame).1
      exact not_attributes_note note certificate message hattributes
  | killed =>
      rw [hending] at hleaves
      refine ⟨fun hspared => absurd rfl hspared, iff_of_false ?_ (by simp)⟩
      intro hcomplete
      obtain ⟨trace, hobserved, -⟩ := hcomplete
      rw [show responder'.observed = responder.observed from hleaves] at hobserved
      simp at hobserved

/-- A load of one key. -/
def oneKeyLoad : StandardRequest where
  command := .leKeyLoad
  requestId := 1
  payload := LeKeyPayloadCodec.encodeLoadRequest [blankKey 7]

def oneKeyFrame : ByteBuffer := frameBytes (makeUl 0x03 0x20) (requestValue oneKeyLoad)

def someCertificate : Certificate := ⟨[], [], FixedBytes.zero 32⟩

/-- A client that sends the load; the calls of `SSL_write` do this. -/
def loadingClient (outcomes : List WriteOutcome) : Connection where
  handshake := .ok someCertificate
  stream := { incoming := [.ok oneKeyFrame], outcomes := outcomes }

theorem replyFrame_oneKeyFrame : replyFrame (AsmService.ofEvents []) 0 {} oneKeyFrame
    = some (frameBytes (makeUl 0x03 0x21) [0, 0, 0, 1, 0, 0]) := by decide

/-- The reply is lost and the BadRequest copy gets out. -/
theorem audit_trace_complete_load :
    ∃ trace, ((handleClient (AsmService.ofEvents []) true
        (loadingClient [.fails SslFailure.closed])).run { store := {} }).state.observed = [] ++ [trace] ∧
      Attributes trace (readPeerIdentity someCertificate).sha256Thumbprint oneKeyFrame := by
  refine (audit_trace_complete_iff (AsmService.ofEvents []) (loadingClient [.fails SslFailure.closed])
    someCertificate oneKeyFrame { store := {} } rfl (by decide)).2.2 ?_
  rw [Delivers, writesEnding, loadingClient, replyFrame_oneKeyFrame]
  decide

/-- Both writes fail: the key is stored, and the trace does not tell whose it is. -/
theorem unattributed_load :
    ∃ responder note, (handleClient (AsmService.ofEvents []) true
        (loadingClient [.fails SslFailure.closed, .fails SslFailure.closed])).run { store := {} }
          = .ok () responder ∧
      responder.store.keys = [blankKey 7] ∧ responder.observed = [{ note := note }] ∧
      ¬ Attributes { note := note } (readPeerIdentity someCertificate).sha256Thumbprint oneKeyFrame := by
  let client := loadingClient [.fails SslFailure.closed, .fails SslFailure.closed]
  have hfirst : client.stream.firstMessage = some oneKeyFrame := by decide
  have hending : client.ending (AsmService.ofEvents []) {} = .throws := by
    refine (ending_of_message rfl hfirst _).trans ?_
    have hreply : replyFrame (AsmService.ofEvents []) client.receivedAt {} oneKeyFrame = _ :=
      replyFrame_oneKeyFrame
    rw [writesEnding, hreply]
    decide
  have hleaves := @observed_handleClient _ (AsmService.ofEvents []) client { store := {} }
  obtain ⟨responder, hstore, ⟨-, hrun⟩ | ⟨hkilled, -⟩⟩ :=
    @run_handleClient _ (AsmService.ofEvents []) true { store := {} } client
  · rw [hending, hrun] at hleaves
    obtain ⟨note, hobserved⟩ := hleaves
    refine ⟨responder, note, hrun, ?_, hobserved, not_attributes_note note someCertificate oneKeyFrame⟩
    rw [hstore]
    decide
  · rw [hending] at hkilled
    cases hkilled

end TlsServer

end AsmProto
