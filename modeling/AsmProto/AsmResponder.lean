import AsmProto.AccessControl
import AsmProto.Atomicity
import AsmProto.EventFile
import AsmProto.Socket

set_option autoImplicit false

/-! # The responder program

`main` of `asm_responder.cpp`: the arguments choose the event log and the key store, and the server
runs until its stop flag is seen, an exception leaves `main` or SIGPIPE kills the process. What the
operating system, OpenSSL and the clients do is in the `Invocation`. The standard output is what is
inserted into `std::cout`, which works; the program flushes nothing, so a process that does not return
from `main` may leave the end of it unwritten. -/

namespace AsmProto

/-- What a turn of the accept loop meets, with the client behind an accepted connection. -/
inductive ClientPoll where
  | interrupted (stopFlag : Bool)
  | fails
  | timesOut
  | acceptFails (reason : String)
  | accepts (client : Client)

structure ClientTurn where
  stopFlag : Bool := false
  poll : ClientPoll

def ClientPoll.poll (config : TlsConfig) : ClientPoll → Poll
  | .interrupted stopFlag => .interrupted stopFlag
  | .fails => .fails
  | .timesOut => .timesOut
  | .acceptFails reason => .acceptFails reason
  | .accepts client => .accepts (client.connection config)

def ClientTurn.turn (config : TlsConfig) (turn : ClientTurn) : Turn :=
  { stopFlag := turn.stopFlag, poll := turn.poll.poll config }

/-- The records of the default `InMemoryEventLogProvider`. -/
def defaultEvents : List EventRecord :=
  [{ eventId := 1001, severity := .info, timestampEpoch := 1776758400,
     timestampText := ascii "2026-04-21T08:00:00Z", summary := ascii "Responder started" },
   { eventId := 1002, severity := .warning, timestampEpoch := 1776758700,
     timestampText := ascii "2026-04-21T08:05:00Z",
     summary := ascii "TLS profile uses development CA" },
   { eventId := 1003, severity := .error, timestampEpoch := 1776759000,
     timestampText := ascii "2026-04-21T08:10:00Z",
     summary := ascii "Link encryption material not loaded" }]

namespace AsmResponder

/-- How a process ends, or that it still serves. An exception that leaves `main` terminates it, and
    SIGPIPE kills it. -/
inductive Exit where
  | usage
  | notStarted (ex : StdException)
  | serving
  | stopped
  | terminated (ex : StdException)
  | killed

/-- A start of the program, with all that its run meets. -/
structure Invocation where
  /-- Without the name of the program. -/
  arguments : List StdString
  openSsl : OpenSsl
  listening : Socket.Listening := {}
  /-- What the file of events holds. -/
  eventFile : Option StdString := none
  keyFileOpens : Bool := true
  persist : OfstreamOutcome := .writesAll
  turns : List ClientTurn

/-- What a process leaves. -/
structure Process where
  exit : Exit
  /-- The connections that were served, each with the ending of its session. -/
  sessions : List (Connection × Ending) := []
  /-- What each of them was sent. -/
  sent : List ByteBuffer := []
  /-- What was inserted into `std::cout`. -/
  out : StdString := []
  keyFile : Option StdString

/-- The certificate, the key and the CA, if the number of arguments is right. -/
def config (arguments : List StdString) : Option TlsConfig :=
  match arguments with
  | certificate :: privateKey :: caCertificate :: files =>
      if files.length ≤ 2 then
        some { certificate := certificate, privateKey := privateKey, caCertificate := caCertificate }
      else none
  | _ => none

/-- The line of a trace, without its line break. -/
def traceText (trace : SessionTrace) : StdString :=
  ascii "peer=" ++ trace.peerThumbprint ++ ascii " command=" ++ trace.command.toText
    ++ ascii " response=" ++ trace.status.toText
    ++ (match trace.requestId with
        | some requestId => ascii " request_id=" ++ Numeral.print 10 requestId.toNat
        | none => [])
    ++ ascii " note=" ++ ascii trace.note

def printTrace (trace : SessionTrace) : StdString := traceText trace ++ [0x0a]

/-- `TlsServer::run` before its loop. -/
def setUp (config : TlsConfig) (invocation : Invocation) : Except StdException Unit := do
  let _ ← TlsContextFactory.createServer invocation.openSsl config
  Socket.listen invocation.listening

/-- The connections a process with these arguments accepts, if it is not killed. -/
def Invocation.connections (invocation : Invocation) (config : TlsConfig) : List Connection :=
  acceptedConnections (invocation.turns.map (ClientTurn.turn config))

/-- What a server leaves. -/
structure Served (σ : Type) where
  exit : Exit
  responder : Responder σ
  sessions : List (Connection × Ending) := []
  sent : List ByteBuffer := []

/-- The connections a server serves: none after one whose session is killed. -/
def Invocation.served {σ : Type} (invocation : Invocation) (config : TlsConfig)
    (service : AsmService σ) (store : σ) : List Connection :=
  TlsServer.servedConnections service store (invocation.turns.map (ClientTurn.turn config))

/-- How a process ends whose server ran so. -/
def exitOf {σ : Type} : EStateM.Result Fault (Responder σ) RunEnd → Exit
  | .ok .running _ => .serving
  | .ok .returned _ => .stopped
  | .error (.exception ex) _ => .terminated ex
  | .error .sigpipe _ => .killed

/-- `TlsServer::run` with the observer of `main`. -/
def serve {σ : Type} (service : AsmService σ) (config : TlsConfig) (invocation : Invocation)
    (store : σ) : Served σ :=
  match setUp config invocation with
  | .error ex => { exit := .notStarted ex, responder := { store := store } }
  | .ok _ =>
      let connections := invocation.served config service store
      let result := (TlsServer.run service true (invocation.turns.map (ClientTurn.turn config))).run
        { store := store }
      { exit := exitOf result
        responder := result.state
        sessions := (TlsServer.endings service).log store connections
        sent := (TlsServer.sessions service true).answers { store := store } connections }

/-- The process of a server, whose key file holds this in the end. -/
def Served.process {σ : Type} (served : Served σ) (keyFile : Option StdString) : Process where
  exit := served.exit
  sessions := served.sessions
  sent := served.sent
  out := served.responder.observed.flatMap printTrace
  keyFile := keyFile

/-- The event log the arguments choose. -/
def eventLog (reader : TimeReader) (invocation : Invocation) :
    Except StdException (List EventRecord) :=
  if 4 ≤ invocation.arguments.length then
    JsonlEventLogProvider.construct reader invocation.eventFile
  else .ok defaultEvents

def statusProvider : QuerySpbStatusProvider := { currentStatus := .notPlaying }

/-- The key store that is kept in a file. -/
def servePersistent (config : TlsConfig) (invocation : Invocation) (events : List EventRecord)
    (keyFile : Option StdString) : Process :=
  match JsonlLeKeyStore.construct keyFile invocation.keyFileOpens with
  | .error ex => { exit := .notStarted ex, keyFile := keyFile }
  | .ok store =>
      let served := serve
        (AsmService.persistent (.ofEvents events) statusProvider invocation.persist) config
        invocation store
      served.process served.responder.store.file

def serveInMemory (config : TlsConfig) (invocation : Invocation) (events : List EventRecord)
    (keyFile : Option StdString) : Process :=
  (serve (AsmService.inMemory (.ofEvents events) statusProvider) config invocation {}).process keyFile

def main (reader : TimeReader) (invocation : Invocation) (keyFile : Option StdString) : Process :=
  match config invocation.arguments with
  | none => { exit := .usage, keyFile := keyFile }
  | some config =>
      match eventLog reader invocation with
      | .error ex => { exit := .notStarted ex, keyFile := keyFile }
      | .ok events =>
          if invocation.arguments.length = 5 then servePersistent config invocation events keyFile
          else serveInMemory config invocation events keyFile

/-- The process came as far as its accept loop. -/
def Exit.Started : Exit → Prop
  | .usage => False
  | .notStarted _ => False
  | .serving => True
  | .stopped => True
  | .terminated _ => True
  | .killed => True

/-- A server that is not set up does nothing. -/
theorem serve_of_error {σ : Type} {service : AsmService σ} {config : TlsConfig}
    {invocation : Invocation} {ex : StdException} (h : setUp config invocation = .error ex) (store : σ) :
    serve service config invocation store
      = { exit := .notStarted ex, responder := { store := store } } := by
  rw [serve, h]

theorem exitOf_started {σ : Type} (result : EStateM.Result Fault (Responder σ) RunEnd) :
    (exitOf result).Started := by
  rcases result with ⟨_ | _, _⟩ | ⟨_ | _, _⟩ <;> exact trivial

theorem exitOf_eq_killed_iff {σ : Type} {result : EStateM.Result Fault (Responder σ) RunEnd} :
    exitOf result = .killed ↔ resultEnding result = .killed := by
  rcases result with ⟨_ | _, _⟩ | ⟨_ | _, _⟩ <;> simp [exitOf, Fault.ending]

/-- **A server that is set up** serves its connections, however it ends, and is killed when a session
    is. -/
theorem serve_of_ok {σ : Type} {service : AsmService σ} {config : TlsConfig}
    {invocation : Invocation} (h : setUp config invocation = .ok ()) (store : σ) :
    let connections := invocation.served config service store
    let sessions := (TlsServer.endings service).log store connections
    ∃ exit, exit.Started ∧ (exit = .killed ↔ ∃ session ∈ sessions, session.2 = .killed) ∧
      serve service config invocation store
        = { exit := exit
            responder := (TlsServer.sessions service true).after { store := store } connections
            sessions := sessions
            sent := (TlsServer.sessions service true).answers { store := store } connections } := by
  intro connections sessions
  obtain ⟨hstate, hkilled⟩ := @TlsServer.run_serves σ service true
    (invocation.turns.map (ClientTurn.turn config)) { store := store }
  refine ⟨_, exitOf_started _, exitOf_eq_killed_iff.trans hkilled, ?_⟩
  rw [serve, h]
  simp only [hstate]
  rfl

/-- A server that is set up and not killed serves all its connections. -/
theorem served_of_exit {σ : Type} {service : AsmService σ} {config : TlsConfig}
    {invocation : Invocation} {store : σ} (hsetUp : setUp config invocation = .ok ())
    (hexit : (serve service config invocation store).exit ≠ .killed) :
    invocation.served config service store = invocation.connections config := by
  obtain ⟨exit, -, hkilled, hserve⟩ := @serve_of_ok σ service config invocation hsetUp store
  rw [hserve] at hexit
  exact TlsServer.servedConnections_eq_self fun session hsession hending =>
    hexit (hkilled.2 ⟨session, hsession, hending⟩)

/-- A server whose connections raise no SIGPIPE is not killed. -/
theorem exit_serve_of_spared {σ : Type} {service : AsmService σ} {config : TlsConfig}
    {invocation : Invocation} (h : ∀ connection ∈ invocation.connections config, connection.Spared)
    (store : σ) : (serve service config invocation store).exit ≠ .killed := by
  cases hsetUp : setUp config invocation with
  | error ex =>
      rw [serve_of_error hsetUp]
      exact Exit.noConfusion
  | ok _ =>
      obtain ⟨exit, -, hkilled, hserve⟩ := @serve_of_ok σ service config invocation hsetUp store
      rw [hserve]
      intro hexit
      obtain ⟨session, hsession, hending⟩ := hkilled.1 hexit
      refine TlsServer.ending_ne_killed_of_spared (fun connection hconnection => h connection ?_)
        hsession hending
      exact (Machine.upTo_prefix _ _ _ _).subset hconnection

/-- The connections of a process are those of its clients. -/
theorem exists_client {invocation : Invocation} {config : TlsConfig} {connection : Connection}
    (h : connection ∈ invocation.connections config) :
    ∃ client : Client, connection = client.connection config := by
  obtain ⟨turn, hturn, hconnection⟩ := List.mem_filterMap.1 h
  obtain ⟨clientTurn, -, rfl⟩ := List.mem_map.1 ((List.takeWhile_sublist _).subset hturn)
  cases hpoll : clientTurn.poll with
  | accepts client =>
      simp only [ClientTurn.turn, Turn.connection, ClientPoll.poll, hpoll, Option.some.injEq]
        at hconnection
      exact ⟨client, hconnection.symm⟩
  | interrupted stopFlag => simp [ClientTurn.turn, Turn.connection, ClientPoll.poll, hpoll] at hconnection
  | fails => simp [ClientTurn.turn, Turn.connection, ClientPoll.poll, hpoll] at hconnection
  | timesOut => simp [ClientTurn.turn, Turn.connection, ClientPoll.poll, hpoll] at hconnection
  | acceptFails reason =>
      simp [ClientTurn.turn, Turn.connection, ClientPoll.poll, hpoll] at hconnection

end AsmResponder

end AsmProto
