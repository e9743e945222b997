import AsmProto.Jsonl
import AsmProto.TlsServer

set_option autoImplicit false

/-! # The accept loop

`TlsServer::run` once the listening socket is there: what each turn of its loop meets is a `Turn`, so
a list of turns is a part of a run. A session stands in a `try` block, whatever it throws ends with a
trace; `accept` stands before it, and no handler stops a SIGPIPE. -/

namespace AsmProto

/-- What OpenSSL reports of a certificate that passed `validate_certificate_profile`. -/
structure Certificate where
  subject : StdString
  issuer : StdString
  sha256 : FixedBytes 32
deriving DecidableEq

/-- `read_peer_identity`; `digest_to_hex` writes two digits a byte, as `bytesToHex` does. -/
def readPeerIdentity (certificate : Certificate) : PeerIdentity where
  subject := certificate.subject
  issuer := certificate.issuer
  sha256Thumbprint := bytesToHex certificate.sha256.val

/-- An accepted connection. `handshake` is the outcome of everything before the first read: the context,
    the SSL object, `SSL_accept` and the checks on the certificate. -/
structure Connection where
  handshake : Except Fault Certificate
  stream : TlsStream
  receivedAt : UInt64 := 0

/-- What `select` and then `accept` do. -/
inductive Poll where
  /-- `EINTR`; the stop flag is read again. -/
  | interrupted (stopFlag : Bool)
  | fails
  | timesOut
  | acceptFails (reason : String)
  | accepts (connection : Connection)

/-- A turn of the loop, with the stop flag its condition reads. -/
structure Turn where
  stopFlag : Bool := false
  poll : Poll

/-- The stop flag is seen in this turn. -/
def Turn.stops (turn : Turn) : Bool :=
  turn.stopFlag || match turn.poll with
    | .interrupted stopFlag => stopFlag
    | _ => false

/-- The turns before the stop flag is seen. -/
def servedTurns (turns : List Turn) : List Turn := turns.takeWhile fun turn => !turn.stops

/-- The message the server reads from the connection, and when. -/
def Connection.message (connection : Connection) : Option (UInt64 × ByteBuffer) :=
  (TlsServer.delivered connection.handshake connection.stream).map fun message =>
    (connection.receivedAt, message)

def Turn.message (turn : Turn) : Option (UInt64 × ByteBuffer) :=
  match turn.poll with
  | .accepts connection => connection.message
  | _ => none

/-- The messages that are read in a run, in order. -/
def readMessages (turns : List Turn) : List (UInt64 × ByteBuffer) :=
  (servedTurns turns).filterMap Turn.message

/-- How the session over the connection ends, with this store. -/
def Connection.ending {σ : Type} (service : AsmService σ) (store : σ) (connection : Connection) :
    Ending :=
  TlsServer.sessionEnding service connection.receivedAt store connection.handshake connection.stream

/-- The loop goes on, or `run` returned. -/
inductive RunEnd where
  | running
  | returned
deriving DecidableEq

/-- The key store and the traces the observer was given. -/
structure Responder (σ : Type) where
  store : σ
  observed : List SessionTrace := []

namespace TlsServer

variable {σ : Type}

/-- The state in which the session of a connection starts. -/
def opened (responder : Responder σ) (connection : Connection) : Session σ :=
  { store := responder.store, stream := connection.stream, observed := responder.observed }

/-- `serve_client` for a connection. -/
def serveConnection (service : AsmService σ) (observer : Bool) (connection : Connection) :
    EStateM Fault (Session σ) Unit :=
  serveClient service (connection.handshake.map readPeerIdentity) connection.receivedAt observer

/-- The `try` block around a session, and its handler, which builds a new trace. -/
def handleClient (service : AsmService σ) (observer : Bool) (connection : Connection) :
    EStateM Fault (Responder σ) Unit :=
  catchException
    (EStateM.zoom (fun responder => opened responder connection)
      (fun session responder =>
        { responder with store := session.store, observed := session.observed })
      (serveConnection service observer connection))
    (fun ex => do
      if observer then
        modify fun responder =>
          { responder with observed := responder.observed ++ [{ note := ex.what }] })

/-- The loop. -/
def run (service : AsmService σ) (observer : Bool) :
    List Turn → EStateM Fault (Responder σ) RunEnd
  | [] => return .running
  | turn :: turns =>
      if turn.stopFlag then return .returned
      else match turn.poll with
        | .interrupted stopFlag => if stopFlag then return .returned else run service observer turns
        | .fails => throw (.exception (.asmError "select failed"))
        | .timesOut => run service observer turns
        | .acceptFails reason => throw (.exception (.asmError ("accept failed: " ++ reason)))
        | .accepts connection => do
            handleClient service observer connection
            run service observer turns

/-! ## One connection -/

section Client

variable {service : AsmService σ} {observer : Bool}

/-- A session, from the handshake on. -/
def session (service : AsmService σ) (observer : Bool) (responder : Responder σ)
    (connection : Connection) : EStateM.Result Fault (Session σ) Unit :=
  (serveConnection service observer connection).run (opened responder connection)

theorem run_handleClient_of_ok {connection : Connection} {responder : Responder σ} {last : Session σ}
    (h : session service observer responder connection = .ok () last) :
    (handleClient service observer connection).run responder
      = .ok () { store := last.store, observed := last.observed } := by
  refine run_catchException_of_ok ?_ _
  rw [session] at h
  rw [EStateM.run_zoom, h]

theorem run_handleClient_of_exception {connection : Connection} {responder : Responder σ}
    {ex : StdException} {last : Session σ}
    (h : session service observer responder connection = .error (.exception ex) last) :
    (handleClient service observer connection).run responder
      = .ok () { store := last.store
                 observed := last.observed ++ if observer then [{ note := ex.what }] else [] } := by
  rw [session] at h
  have hzoom : (EStateM.zoom (fun responder => opened responder connection)
      (fun session responder =>
        { responder with store := session.store, observed := session.observed })
      (serveConnection service observer connection)).run responder
      = .error (.exception ex) { store := last.store, observed := last.observed } := by
    rw [EStateM.run_zoom, h]
  rw [handleClient, run_catchException_of_exception hzoom]
  cases observer with
  | false =>
      rw [if_neg Bool.false_ne_true, if_neg Bool.false_ne_true, List.append_nil]
      rfl
  | true => rfl

theorem run_handleClient_of_sigpipe {connection : Connection} {responder : Responder σ}
    {last : Session σ} (h : session service observer responder connection = .error .sigpipe last) :
    (handleClient service observer connection).run responder
      = .error .sigpipe { store := last.store, observed := last.observed } := by
  refine run_catchException_of_sigpipe ?_ _
  rw [session] at h
  rw [EStateM.run_zoom, h]

theorem ending_session (responder : Responder σ) (connection : Connection) :
    resultEnding (session service observer responder connection)
      = connection.ending service responder.store := by
  refine (ending_serveClient _ (opened responder connection) observer).trans ?_
  unfold Connection.ending sessionEnding
  cases connection.handshake <;> rfl

/-- A session does to the store what its message does. -/
theorem store_session (responder : Responder σ) (connection : Connection) :
    (session service observer responder connection).state.store
      = service.machine.after responder.store connection.message.toList := by
  refine (store_serveClient _ (opened responder connection) observer).trans ?_
  unfold Connection.message delivered
  cases connection.handshake with
  | error fault => rfl
  | ok certificate =>
      simp only [Except.map, opened]
      cases connection.stream.firstMessage <;> rfl

/-- **No exception of a connection leaves the loop**, and what is done to the store is what the message
    does. -/
theorem run_handleClient (responder : Responder σ) (connection : Connection) :
    ∃ responder', responder'.store = service.machine.after responder.store connection.message.toList ∧
      ((connection.ending service responder.store ≠ .killed ∧
          (handleClient service observer connection).run responder = .ok () responder') ∨
        (connection.ending service responder.store = .killed ∧
          (handleClient service observer connection).run responder = .error .sigpipe responder')) := by
  have hstore := @store_session σ service observer responder connection
  rw [← @ending_session σ service observer responder connection]
  cases hsession : session service observer responder connection with
  | ok _ last =>
      rw [hsession] at hstore
      exact ⟨_, hstore, Or.inl ⟨by simp, run_handleClient_of_ok hsession⟩⟩
  | error fault last =>
      rw [hsession] at hstore
      cases fault with
      | exception ex =>
          exact ⟨_, hstore, Or.inl ⟨by simp [Fault.ending], run_handleClient_of_exception hsession⟩⟩
      | sigpipe => exact ⟨_, hstore, Or.inr ⟨rfl, run_handleClient_of_sigpipe hsession⟩⟩

end Client

/-! ## The run -/

/-- The run goes on until the flag is seen, and leaves the store its messages lead to. -/
def StaysUp (service : AsmService σ) (observer : Bool) (turns : List Turn) (responder : Responder σ) :
    Prop :=
  ∃ ending responder', (run service observer turns).run responder = .ok ending responder' ∧
    (ending = .returned ↔ ∃ turn ∈ turns, turn.stops = true) ∧
    responder'.store = service.machine.after responder.store (readMessages turns)

/-- The store through the turns of a run. -/
def turnStores (service : AsmService σ) : Machine Turn Unit σ where
  step store turn := ((), service.machine.after store turn.message.toList)

/-- A turn with this store that no run survives: `accept` fails, or a call of OpenSSL in the session
    raises SIGPIPE. -/
def Breaks (service : AsmService σ) (store : σ) (turn : Turn) : Prop :=
  (∃ reason, turn.poll = .acceptFails reason) ∨
    ∃ connection, turn.poll = .accepts connection ∧ connection.ending service store = .killed

/-- There is no such turn before the stop flag is seen. -/
def Undisturbed (service : AsmService σ) (store : σ) (turns : List Turn) : Prop :=
  (turnStores service).Quiet (Breaks service) store (servedTurns turns)

section Run

variable {service : AsmService σ} {observer : Bool}

theorem staysUp_nil (responder : Responder σ) : StaysUp service observer [] responder :=
  ⟨.running, responder, rfl, by simp, rfl⟩

theorem servedTurns_of_stops {turn : Turn} (h : turn.stops = true) (turns : List Turn) :
    servedTurns (turn :: turns) = [] :=
  List.takeWhile_cons_of_neg (by simp [h])

theorem servedTurns_of_not_stops {turn : Turn} (h : turn.stops = false) (turns : List Turn) :
    servedTurns (turn :: turns) = turn :: servedTurns turns :=
  List.takeWhile_cons_of_pos (by simp [h])

/-- A turn that sees the flag ends the run. -/
theorem staysUp_of_stops {turn : Turn} (h : turn.stops = true) (turns : List Turn)
    (responder : Responder σ) : StaysUp service observer (turn :: turns) responder := by
  have hserved : readMessages (turn :: turns) = [] := by
    rw [readMessages, servedTurns_of_stops h, List.filterMap_nil]
  have hrun : (run service observer (turn :: turns)).run responder = .ok .returned responder := by
    unfold Turn.stops at h
    rw [run]
    split
    · rfl
    · next hflag =>
        rw [Bool.eq_false_of_not_eq_true hflag, Bool.false_or] at h
        cases hpoll : turn.poll with
        | interrupted stopFlag =>
            rw [hpoll] at h
            subst h
            rfl
        | fails => simp [hpoll] at h
        | timesOut => simp [hpoll] at h
        | acceptFails reason => simp [hpoll] at h
        | accepts connection => simp [hpoll] at h
  exact ⟨.returned, responder, hrun, by simp [h], by rw [hserved]; rfl⟩

/-- A turn after which the loop goes on. -/
theorem staysUp_cons {turn : Turn} (h : turn.stops = false) {turns : List Turn}
    {responder responder' : Responder σ}
    (hrun : (run service observer (turn :: turns)).run responder
      = (run service observer turns).run responder')
    (hstore : responder'.store = service.machine.after responder.store turn.message.toList) :
    StaysUp service observer (turn :: turns) responder ↔ StaysUp service observer turns responder' := by
  have hmessages : service.machine.after responder.store (readMessages (turn :: turns))
      = service.machine.after responder'.store (readMessages turns) := by
    rw [readMessages, servedTurns_of_not_stops h, hstore, ← Machine.after_append]
    cases hmessage : turn.message with
    | none => rw [List.filterMap_cons_none hmessage]; rfl
    | some message => rw [List.filterMap_cons_some hmessage]; rfl
  unfold StaysUp
  simp only [hrun, hmessages, List.mem_cons, exists_eq_or_imp, h, Bool.false_eq_true, false_or]

theorem stopFlag_of_not_stops {turn : Turn} (h : turn.stops = false) : turn.stopFlag = false := by
  unfold Turn.stops at h
  exact (Bool.or_eq_false_iff.1 h).1

/-- A turn in which no client comes. -/
theorem staysUp_cons_of_idle {turn : Turn} (h : turn.stops = false)
    (hidle : turn.poll = .timesOut ∨ ∃ stopFlag, turn.poll = .interrupted stopFlag)
    {turns : List Turn} {responder : Responder σ} :
    StaysUp service observer (turn :: turns) responder ↔
      StaysUp service observer turns responder := by
  have hflag := stopFlag_of_not_stops h
  rcases hidle with hpoll | ⟨stopFlag, hpoll⟩
  · refine staysUp_cons h ?_ (by rw [Turn.message, hpoll]; rfl)
    rw [run, if_neg (by simp [hflag]), hpoll]
  · have hclear : stopFlag = false := by
      unfold Turn.stops at h
      rw [hpoll] at h
      exact (Bool.or_eq_false_iff.1 h).2
    refine staysUp_cons h ?_ (by rw [Turn.message, hpoll]; rfl)
    rw [run, if_neg (by simp [hflag]), hpoll]
    simp only [hclear, Bool.false_eq_true, if_false]

/-- A turn with a client whose session is not killed. -/
theorem staysUp_cons_of_accepts {turn : Turn} (h : turn.stops = false) {connection : Connection}
    (hpoll : turn.poll = .accepts connection) {responder : Responder σ}
    (hspared : connection.ending service responder.store ≠ .killed) (turns : List Turn) :
    ∃ responder', responder'.store = service.machine.after responder.store turn.message.toList ∧
      (StaysUp service observer (turn :: turns) responder ↔
        StaysUp service observer turns responder') := by
  have hmessage : turn.message = connection.message := by rw [Turn.message, hpoll]
  obtain ⟨responder', hstore, ⟨-, hclient⟩ | ⟨hkilled, -⟩⟩ :=
    @run_handleClient σ service observer responder connection
  · rw [← hmessage] at hstore
    refine ⟨responder', hstore, staysUp_cons h ?_ hstore⟩
    rw [run, if_neg (by simp [stopFlag_of_not_stops h]), hpoll]
    simp only [EStateM.run_bind, hclient]
  · exact absurd hkilled hspared

theorem not_breaks_of_ending {store : σ} {connection : Connection}
    (h : connection.ending service store ≠ .killed) :
    ¬ Breaks service store { poll := .accepts connection } := by
  rintro (⟨reason, hpoll⟩ | ⟨connection', hpoll, hkilled⟩)
  · cases hpoll
  · obtain rfl := Poll.accepts.inj hpoll
    exact h hkilled

/-- Neither the exception of a failed `accept` nor a SIGPIPE leaves the loop running. -/
theorem not_staysUp_of_breaks {turn : Turn} (h : turn.stops = false) {responder : Responder σ}
    (hbreaks : Breaks service responder.store turn) (turns : List Turn) :
    ¬ StaysUp service observer (turn :: turns) responder := by
  intro hup
  obtain ⟨ending, responder', hrun, -⟩ := hup
  rcases hbreaks with ⟨reason, hpoll⟩ | ⟨connection, hpoll, hkilled⟩
  · rw [run, if_neg (by simp [stopFlag_of_not_stops h]), hpoll] at hrun
    injection hrun
  · rw [run, if_neg (by simp [stopFlag_of_not_stops h]), hpoll] at hrun
    obtain ⟨last, -, ⟨hspared, -⟩ | ⟨-, hclient⟩⟩ :=
      @run_handleClient σ service observer responder connection
    · exact hspared hkilled
    · simp only [EStateM.run_bind, hclient] at hrun
      injection hrun

/-- **When one client cannot stop the responder.** With a working `select`, over any connections and
    whatever fails in them, `run` does not leave its loop before the stop flag is seen, and the key
    store is the one that the messages it read lead to, in order, if and only if, before the flag is
    seen, no `accept` fails and no session is killed by SIGPIPE. -/
theorem responder_survives_iff {σ : Type} (service : AsmService σ) (observer : Bool)
    (turns : List Turn) (responder : Responder σ) (hselect : ∀ turn ∈ turns, turn.poll ≠ .fails) :
    StaysUp service observer turns responder ↔ Undisturbed service responder.store turns := by
  unfold Undisturbed
  induction turns generalizing responder with
  | nil => exact iff_of_true (staysUp_nil responder) trivial
  | cons turn turns ih =>
      obtain ⟨hturn, hturns⟩ := List.forall_mem_cons.1 hselect
      by_cases hstops : turn.stops = true
      · rw [servedTurns_of_stops hstops]
        exact iff_of_true (staysUp_of_stops hstops turns responder) trivial
      · rw [Bool.not_eq_true] at hstops
        rw [servedTurns_of_not_stops hstops, Machine.Quiet]
        by_cases hbreaks : Breaks service responder.store turn
        · exact iff_of_false (not_staysUp_of_breaks hstops hbreaks turns) fun h => h.1 hbreaks
        · -- the loop goes on, with the store that the message of this turn leads to
          suffices hgoes : ∃ responder',
              responder'.store = service.machine.after responder.store turn.message.toList ∧
              (StaysUp service observer (turn :: turns) responder ↔
                StaysUp service observer turns responder') by
            obtain ⟨responder', hstore, hup⟩ := hgoes
            rw [hup, ih responder' hturns, hstore, and_iff_right hbreaks]
            rfl
          cases hpoll : turn.poll with
          | interrupted stopFlag =>
              exact ⟨responder, by rw [Turn.message, hpoll]; rfl,
                staysUp_cons_of_idle hstops (Or.inr ⟨stopFlag, hpoll⟩)⟩
          | fails => exact absurd hpoll hturn
          | timesOut =>
              exact ⟨responder, by rw [Turn.message, hpoll]; rfl,
                staysUp_cons_of_idle hstops (Or.inl hpoll)⟩
          | acceptFails reason => exact absurd (Or.inl ⟨reason, hpoll⟩) hbreaks
          | accepts connection =>
              exact staysUp_cons_of_accepts hstops hpoll
                (fun hkilled => hbreaks (Or.inr ⟨connection, hpoll, hkilled⟩)) turns

/-- A client that is gone when its handshake is answered ends the process. -/
example : ¬ Undisturbed (AsmService.ofEvents []) {} [{ poll := .accepts {
    handshake := .error (SslFailure.raisesSigpipe.toFault "SSL_accept")
    stream := {} } }] :=
  fun h => h.1 (Or.inr ⟨_, rfl, rfl⟩)

end Run

/-- A client that sends a stray byte and closes, another that fails its handshake, and the stop. -/
def quarrelsomeTurns : List Turn :=
  [{ poll := .accepts { handshake := .ok ⟨[], [], FixedBytes.zero 32⟩
                        stream := { incoming := [.ok [0x2a]], outcomes := [.fails SslFailure.closed] } } },
   { poll := .accepts { handshake := .error (SslFailure.closed.toFault "SSL_accept"), stream := {} } },
   { stopFlag := true, poll := .timesOut }]

theorem responder_survives_quarrelsome_turns :
    StaysUp (AsmService.ofEvents []) true quarrelsomeTurns { store := {} } := by
  refine (responder_survives_iff (AsmService.ofEvents []) true quarrelsomeTurns { store := {} }
    (by simp [quarrelsomeTurns])).2 ⟨?_, ?_, trivial⟩
  · exact not_breaks_of_ending (by decide)
  · exact not_breaks_of_ending (by decide)

/-- A connection that is gone before it is accepted ends the run, although no flag is set. -/
theorem failed_accept_ends_run :
    (run (AsmService.ofEvents []) true
        [{ poll := .acceptFails "Software caused connection abort" }]).run { store := {} }
      = .error (.exception (.asmError "accept failed: Software caused connection abort"))
          { store := {} } ∧
    ¬ StaysUp (AsmService.ofEvents []) true
        [{ poll := .acceptFails "Software caused connection abort" }] { store := {} } := by
  refine ⟨rfl, fun hup => ?_⟩
  obtain ⟨ending, responder', hrun, -⟩ := hup
  injection hrun

end TlsServer

end AsmProto
