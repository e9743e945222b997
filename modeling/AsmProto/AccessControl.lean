import AsmProto.SessionsAlike
import AsmProto.TlsProfile

set_option autoImplicit false

/-! # Who can act on the responder

Before the first byte of a message is read, `serve_client` builds a context, shakes hands and checks
the certificate of the peer. A client that gets past this had its certificate verified, and keeps the
profile. Any other changes nothing for the clients that are served; but one whose `accept` fails, or
whose handshake raises SIGPIPE, is the last that comes. -/

namespace AsmProto

/-- A client as the server meets it: what OpenSSL returns while it is served, and what it sends. -/
structure Client where
  openSsl : OpenSsl
  sslNew : Bool := true
  /-- `SSL_accept` with a context, and then `SSL_get1_peer_certificate`. -/
  sslAccept : SslCtx → Except SslFailure (Option X509)
  stream : TlsStream
  receivedAt : UInt64 := 0

def sslExpectPositive {α : Type} (result : Except SslFailure α) (action : String) : Except Fault α :=
  result.mapError (SslFailure.toFault action)

/-- `serve_client` before its first read. -/
def TlsServer.handshake (config : TlsConfig) (client : Client) : Except Fault Certificate := do
  let ctx ← (TlsContextFactory.createServer client.openSsl config).mapError .exception
  if client.sslNew then
    let peerCert ← sslExpectPositive (client.sslAccept ctx) "SSL_accept"
    (CertificateUtils.validateCertificateProfile peerCert).mapError .exception
    (CertificateUtils.readCertificate peerCert).mapError .exception
  else .error (.exception (.asmError "failed to allocate SSL object"))

def Client.connection (config : TlsConfig) (client : Client) : Connection where
  handshake := TlsServer.handshake config client
  stream := client.stream
  receivedAt := client.receivedAt

/-- `SSL_VERIFY_PEER`: no handshake succeeds with a certificate that the locations do not vouch for. -/
def VerifiesPeer (vouches : StdString → X509 → Prop)
    (shake : SslCtx → Except SslFailure (Option X509)) : Prop :=
  ∀ ctx x509 locations, shake ctx = .ok (some x509) → ctx.verifyPeer = true →
    ctx.verifyLocations = some locations → vouches locations x509

def Client.Verified (vouches : StdString → X509 → Prop) (client : Client) : Prop :=
  VerifiesPeer vouches client.sslAccept

/-- The connection of a client whose certificate was verified and keeps the profile. -/
def Admitted (vouches : StdString → X509 → Prop) (config : TlsConfig) (connection : Connection) :
    Prop :=
  ∃ x509 certificate, connection.handshake = .ok certificate ∧
    CertificateUtils.readCertificate (some x509) = .ok certificate ∧ x509.Conforms ∧
    vouches config.caCertificate x509

/-- The connection, if its handshake succeeded. -/
def Connection.shaken (connection : Connection) : Option Connection :=
  match connection.handshake with
  | .ok _ => some connection
  | .error _ => none

theorem Connection.shaken_eq_some_iff {connection connection' : Connection} :
    connection.shaken = some connection' ↔
      connection = connection' ∧ ∃ certificate, connection.handshake = .ok certificate := by
  unfold shaken
  cases connection.handshake with
  | ok certificate => simp
  | error ex => simp

theorem Connection.shaken_eq_none_iff {connection : Connection} :
    connection.shaken = none ↔ ∃ ex, connection.handshake = .error ex := by
  unfold shaken
  cases connection.handshake with
  | ok certificate => simp
  | error ex => simp

theorem TlsContextFactory.configured_of_createCtx {openSsl : OpenSsl} {config : TlsConfig}
    {serverMode : Bool} {ctx : SslCtx} (h : createCtx openSsl config serverMode = .ok ctx) :
    TlsProfile.Configured openSsl config ctx := by
  unfold createCtx at h
  split at h
  · cases happly : (TlsProfile.apply openSsl config serverMode).run {} with
    | ok _ ctx' =>
        rw [happly] at h
        obtain rfl := Except.ok.inj h
        exact TlsProfile.configured_of_apply happly
    | error ex ctx' =>
        rw [happly] at h
        cases h
  · cases h

/-- The certificate of a peer that came through a handshake and the check of its profile, on either
    side. -/
theorem exists_vouched {vouches : StdString → X509 → Prop} {openSsl : OpenSsl} {config : TlsConfig}
    {serverMode : Bool} {ctx : SslCtx} {shake : SslCtx → Except SslFailure (Option X509)}
    {action : String} {peerCert : Option X509} (hverify : config.verifyPeer = true)
    (hshake : VerifiesPeer vouches shake)
    (hctx : TlsContextFactory.createCtx openSsl config serverMode = .ok ctx)
    (hpeer : sslExpectPositive (shake ctx) action = .ok peerCert)
    (hvalid : CertificateUtils.validateCertificateProfile peerCert = .ok ()) :
    ∃ x509, peerCert = some x509 ∧ x509.Conforms ∧ vouches config.caCertificate x509 := by
  have hconfigured := TlsContextFactory.configured_of_createCtx hctx
  obtain ⟨x509, rfl, hconforms⟩ := CertificateUtils.validateCertificateProfile_eq_ok_iff.1 hvalid
  have hssl : shake ctx = .ok (some x509) := Except.mapError_eq_ok_iff.1 hpeer
  exact ⟨x509, rfl, hconforms,
    hshake ctx x509 _ hssl (hconfigured.verifyPeer.trans hverify) hconfigured.verifyLocations⟩

/-- **What a handshake that succeeds has checked**, whatever else OpenSSL returns. -/
theorem admitted_of_handshake {vouches : StdString → X509 → Prop} {config : TlsConfig} {client : Client}
    (hverify : config.verifyPeer = true) (hclient : client.Verified vouches) {certificate : Certificate}
    (h : TlsServer.handshake config client = .ok certificate) :
    Admitted vouches config (client.connection config) := by
  have hhandshake := h
  unfold TlsServer.handshake at h
  obtain ⟨ctx, hctx, h⟩ := Except.bind_eq_ok_iff.1 h
  split at h
  · obtain ⟨peerCert, haccept, h⟩ := Except.bind_eq_ok_iff.1 h
    obtain ⟨_, hvalid, hread⟩ := Except.bind_eq_ok_iff.1 h
    obtain ⟨x509, rfl, hconforms, hvouches⟩ := exists_vouched hverify hclient
      (Except.mapError_eq_ok_iff.1 hctx) haccept (Except.mapError_eq_ok_iff.1 hvalid)
    exact ⟨x509, certificate, hhandshake, Except.mapError_eq_ok_iff.1 hread, hconforms, hvouches⟩
  · cases h

namespace TlsServer

variable {σ : Type} {service : AsmService σ}

/-- **A connection whose handshake failed** changes neither the store nor what the others are sent,
    whether or not the process survives it. -/
theorem projects_shaken :
    (sessions service true).Projects (sessions service true) Connection.shaken id (fun _ _ => True)
      (Responder.Alike Eq fun _ _ => True) where
  visible := by
    intro responder responder' connection connection' hshaken halike _
    obtain ⟨rfl, -⟩ := Connection.shaken_eq_some_iff.1 hshaken
    have hservice := AsmService.alike_refl service
    refine ⟨?_, (alike_handleClient hservice (fun _ _ _ _ => trivial) true connection _ _ halike).state⟩
    have hopened : Session.Alike Eq (fun _ _ => True) (opened responder connection)
        (opened responder' connection) := ⟨halike.store, rfl, rfl, rfl, trivial⟩
    exact congrArg TlsStream.sent (alike_serveClient hservice (fun _ _ _ _ => trivial) _ _ true _ _
      hopened).state.stream
  silent := by
    intro responder responder' connection hshaken halike _
    obtain ⟨ex, hhandshake⟩ := Connection.shaken_eq_none_iff.1 hshaken
    have hmessage : connection.message = none := by
      simp only [Connection.message, delivered, hhandshake, Option.map_none]
    refine ⟨?_, trivial⟩
    show (afterConnection service true responder connection).store = responder'.store
    rw [store_afterConnection, hmessage]
    exact halike.store

/-- Nothing is sent on a connection whose handshake failed. -/
theorem sent_of_not_shaken {connection : Connection} (h : connection.shaken = none)
    (responder : Responder σ) :
    ((sessions service true).step responder connection).1 = connection.stream.sent := by
  obtain ⟨ex, hhandshake⟩ := Connection.shaken_eq_none_iff.1 h
  show (session service true responder connection).state.stream.sent = connection.stream.sent
  rw [session, serveConnection, hhandshake]
  rfl

/-- The trace is a note, or that of a session which returned and names the peer of its connection. -/
def NoteOrPeer (connections : List Connection) (trace : SessionTrace) : Prop :=
  (∃ note, trace = { note := note }) ∨
    ∃ connection ∈ connections, ∃ certificate, connection.handshake = .ok certificate ∧
      trace.peerThumbprint = (readPeerIdentity certificate).sha256Thumbprint

/-- The traces of a run name the peers of connections whose handshake succeeded. -/
theorem mem_observed {connections : List Connection} {responder : Responder σ} {trace : SessionTrace}
    (h : trace ∈ ((sessions service true).after responder connections).observed) :
    trace ∈ responder.observed ∨ NoteOrPeer connections trace := by
  refine Machine.invariant_after (P := fun responder' : Responder σ => ∀ trace ∈ responder'.observed,
    trace ∈ responder.observed ∨ NoteOrPeer connections trace) ?_ (fun trace => Or.inl) trace h
  intro responder' connection hconnection hobserved trace htrace
  have htrace' : trace ∈ (afterConnection service true responder' connection).observed := htrace
  rcases @exists_trace σ service connection responder' with ⟨-, hsame⟩ | ⟨new, hnew, hpeer⟩
  · rw [hsame] at htrace'
    exact hobserved trace htrace'
  · rw [hnew, List.mem_append, List.mem_singleton] at htrace'
    rcases htrace' with hold | rfl
    · exact hobserved trace hold
    · cases hending : connection.ending service responder'.store with
      | returns =>
          rw [hending] at hpeer
          exact Or.inr (Or.inr ⟨connection, hconnection, hpeer⟩)
      | throws =>
          rw [hending] at hpeer
          exact Or.inr (Or.inl hpeer)
      | killed =>
          rw [hending] at hpeer
          exact hpeer.elim

/-- **Only clients with a verified certificate act on the responder.** Over any run with `verify_peer`,
    whatever OpenSSL returns beyond its documented verification, and whether or not a peer certificate
    is required: the connections that get past the handshake show a certificate that the CA file
    vouches for, with an RSA key of 2048 bits and the exponent 65537. Those of them that are served are
    sent the bytes, and leave the store, that they would without the others; the others are sent
    nothing; and no trace names a peer but theirs. -/
theorem only_admitted_clients_act {σ : Type} (service : AsmService σ)
    (vouches : StdString → X509 → Prop) (config : TlsConfig) (turns : List Turn)
    (responder : Responder σ) (hverify : config.verifyPeer = true)
    (hclients : ∀ connection ∈ acceptedConnections turns, ∃ client : Client,
      client.Verified vouches ∧ connection = client.connection config) :
    let connections := servedConnections service responder.store turns
    let admitted := connections.filterMap Connection.shaken
    let last := ((run service true turns).run responder).state
    (∀ connection ∈ (acceptedConnections turns).filterMap Connection.shaken,
      Admitted vouches config connection) ∧
    (sessions service true).viewed Connection.shaken id responder connections
      = (sessions service true).answers responder admitted ∧
    last.store = ((sessions service true).after responder admitted).store ∧
    (∀ exchange ∈ (sessions service true).log responder connections, exchange.1.shaken = none →
      exchange.2 = exchange.1.stream.sent) ∧
    ∀ trace ∈ last.observed, trace ∈ responder.observed ∨ NoteOrPeer admitted trace := by
  intro connections admitted last
  have hstart : Responder.Alike Eq (fun _ _ => True) responder responder := ⟨rfl, trivial⟩
  have hall : ∀ exchange ∈ (sessions service true).log responder connections, True :=
    fun _ _ => trivial
  obtain ⟨hviewed, halike⟩ := projects_shaken.run hstart hall
  have hlast : last = (sessions service true).after responder connections :=
    (run_serves turns responder).1
  refine ⟨?_, hviewed, ?_, ?_, ?_⟩
  · intro connection hconnection
    obtain ⟨connection', haccepted, hshaken'⟩ := List.mem_filterMap.1 hconnection
    obtain ⟨rfl, certificate, hhandshake⟩ := Connection.shaken_eq_some_iff.1 hshaken'
    obtain ⟨client, hclient, rfl⟩ := hclients connection' haccepted
    exact admitted_of_handshake hverify hclient hhandshake
  · rw [hlast]
    exact halike.store
  · intro exchange hexchange hrefused
    obtain ⟨responder', hanswer⟩ := Machine.exists_step_of_mem_log hexchange
    exact hanswer.trans (sent_of_not_shaken hrefused responder')
  · intro trace htrace
    rw [hlast] at htrace
    rcases mem_observed htrace with
      hold | hnote | ⟨connection, hconnection, certificate, hhandshake, hpeer⟩
    · exact Or.inl hold
    · exact Or.inr (Or.inl hnote)
    · have hshaken : connection ∈ admitted := List.mem_filterMap.2
        ⟨connection, hconnection, Connection.shaken_eq_some_iff.2 ⟨rfl, certificate, hhandshake⟩⟩
      exact Or.inr (Or.inr ⟨connection, hshaken, certificate, hhandshake, hpeer⟩)

/-- A certificate with the profile, whose modulus is 2²⁰⁴⁷. -/
def plainX509 : X509 where
  publicKey := some (.rsa (some { n := some (2 ^ 2047), e := some 65537 }))
  subject := .missing
  issuer := .missing
  digest := some (FixedBytes.zero 32)

theorem plainX509_conforms : plainX509.Conforms := ⟨2 ^ 2047, rfl, by rw [Nat.size_pow]⟩

/-- Every file holds that certificate. -/
def plainOpenSsl : OpenSsl where
  pemFile := fun _ => some (some plainX509)

/-- A client with that certificate, and one whose handshake fails. -/
def plainClient (accepted : Bool) : Client where
  openSsl := plainOpenSsl
  sslAccept := fun _ => if accepted then .ok (some plainX509) else .error SslFailure.closed
  stream := { incoming := [.ok oneKeyFrame] }

def plainConfig : TlsConfig where
  certificate := ascii "server.pem"
  privateKey := ascii "server.key"
  caCertificate := ascii "ca.pem"

theorem exists_plainCtx (serverMode : Bool) :
    ∃ ctx, TlsContextFactory.createCtx plainOpenSsl plainConfig serverMode = .ok ctx := by
  have hvalid : CertificateUtils.validateCertificateProfileFromFile plainOpenSsl
      plainConfig.certificate = .ok () :=
    CertificateUtils.validateCertificateProfileFromFile_of_conforms rfl plainX509_conforms
  have happly : ∃ ctx, (TlsProfile.apply plainOpenSsl plainConfig serverMode).run {} = .ok () ctx := by
    rw [TlsProfile.apply, EStateM.run_bind, hvalid]
    exact ⟨_, rfl⟩
  obtain ⟨ctx, happly⟩ := happly
  have hnew : plainOpenSsl.ctxNew = true := rfl
  rw [TlsContextFactory.createCtx, if_pos hnew, happly]
  exact ⟨ctx, rfl⟩

def plainTurns : List Turn :=
  [{ poll := .accepts ((plainClient false).connection plainConfig) },
   { poll := .accepts ((plainClient true).connection plainConfig) },
   { stopFlag := true, poll := .timesOut }]

theorem exists_plainHandshake (stream : TlsStream) :
    ∃ certificate, handshake plainConfig { plainClient true with stream := stream }
      = .ok certificate := by
  obtain ⟨ctx, hctx⟩ := exists_plainCtx true
  have hcreate : TlsContextFactory.createServer (plainClient true).openSsl plainConfig = .ok ctx := hctx
  have hvalid : CertificateUtils.validateCertificateProfile (some plainX509) = .ok () :=
    CertificateUtils.validateCertificateProfile_eq_ok_iff.2 ⟨plainX509, rfl, plainX509_conforms⟩
  have hnew : (plainClient true).sslNew = true := rfl
  have haccept : sslExpectPositive ((plainClient true).sslAccept ctx) "SSL_accept"
      = .ok (some plainX509) := rfl
  refine ⟨{ subject := [], issuer := [], sha256 := FixedBytes.zero 32 }, ?_⟩
  rw [handshake, hcreate, Except.mapError_ok, Except.ok_bind, if_pos hnew, haccept, Except.ok_bind,
    hvalid]
  rfl

theorem only_admitted_clients_act_plain :
    Admitted (fun _ x509 => x509 = plainX509) plainConfig
      ((plainClient true).connection plainConfig) := by
  refine (only_admitted_clients_act (AsmService.ofEvents []) (fun _ x509 => x509 = plainX509)
    plainConfig plainTurns { store := {} } rfl ?_).1 _ ?_
  · have hverified : ∀ accepted, (plainClient accepted).Verified fun _ x509 => x509 = plainX509 := by
      intro accepted ctx x509 locations haccept _ _
      cases accepted with
      | false => cases haccept
      | true => exact (Option.some.inj (Except.ok.inj haccept)).symm
    intro connection hconnection
    rcases List.mem_pair.1 hconnection with rfl | rfl
    · exact ⟨_, hverified false, rfl⟩
    · exact ⟨_, hverified true, rfl⟩
  · obtain ⟨certificate, hhandshake⟩ := exists_plainHandshake (plainClient true).stream
    exact List.mem_filterMap.2 ⟨_, List.mem_pair.2 (Or.inr rfl),
      Connection.shaken_eq_some_iff.2 ⟨rfl, certificate, hhandshake⟩⟩

end TlsServer

end AsmProto
