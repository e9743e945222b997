import AsmProto.AuditTrace

set_option autoImplicit false

/-! # The sessions of a run

Whatever its turns meet, a run of the accept loop serves the connections it accepts one after another,
and none after a session that SIGPIPE kills. Each of the others, a failed handshake or read included,
gives the observer exactly one trace. -/

namespace AsmProto

/-- The loop ends in this turn: the stop flag is seen, or `select` or `accept` fails. -/
def Turn.ends (turn : Turn) : Bool :=
  turn.stopFlag || match turn.poll with
    | .interrupted stopFlag => stopFlag
    | .fails => true
    | .acceptFails _ => true
    | _ => false

def Turn.connection (turn : Turn) : Option Connection :=
  match turn.poll with
  | .accepts connection => some connection
  | _ => none

/-- The connections that are accepted in a run, in order, if no session is killed. -/
def acceptedConnections (turns : List Turn) : List Connection :=
  (turns.takeWhile fun turn => !turn.ends).filterMap Turn.connection

/-- Nothing raises SIGPIPE while the connection is served. -/
structure Connection.Spared (connection : Connection) : Prop where
  handshake : connection.handshake ≠ .error .sigpipe
  stream : connection.stream.Spared

namespace TlsServer

variable {σ : Type} {service : AsmService σ} {observer : Bool}

/-- The key store as a machine: each connection is answered with the ending of its session. -/
def endings (service : AsmService σ) : Machine Connection Ending σ where
  step store connection :=
    (connection.ending service store, service.machine.after store connection.message.toList)

/-- The connections that are served in a run, in order: the one whose session is killed is the last. -/
def servedConnections (service : AsmService σ) (store : σ) (turns : List Turn) : List Connection :=
  (endings service).upTo Ending.isKilled store (acceptedConnections turns)

/-- The responder after one connection. -/
def afterConnection (service : AsmService σ) (observer : Bool) (responder : Responder σ)
    (connection : Connection) : Responder σ :=
  ((handleClient service observer connection).run responder).state

/-- The responder as a machine: each connection is answered with the bytes it is sent. -/
def sessions (service : AsmService σ) (observer : Bool) :
    Machine Connection ByteBuffer (Responder σ) where
  step responder connection :=
    ((session service observer responder connection).state.stream.sent,
      afterConnection service observer responder connection)

theorem step_sessions_of_run {connection : Connection} {responder : Responder σ}
    {result : EStateM.Result Fault (Responder σ) Unit}
    (h : (handleClient service observer connection).run responder = result) :
    ((sessions service observer).step responder connection).2 = result.state := by
  subst h
  rfl

theorem store_afterConnection (responder : Responder σ) (connection : Connection) :
    (afterConnection service observer responder connection).store
      = service.machine.after responder.store connection.message.toList := by
  obtain ⟨responder', hstore, ⟨-, hrun⟩ | ⟨-, hrun⟩⟩ :=
    @run_handleClient σ service observer responder connection
  · rw [afterConnection, hrun]
    exact hstore
  · rw [afterConnection, hrun]
    exact hstore

/-- A turn with a client, whose session is not killed. -/
theorem run_cons_of_spared {connection : Connection} {responder responder' : Responder σ}
    (h : (handleClient service observer connection).run responder = .ok () responder')
    (turns : List Turn) :
    (run service observer ({ poll := .accepts connection } :: turns)).run responder
      = (run service observer turns).run responder' := by
  rw [run, if_neg Bool.false_ne_true]
  simp only [EStateM.run_bind, h]

theorem run_cons_of_killed {connection : Connection} {responder responder' : Responder σ}
    (h : (handleClient service observer connection).run responder = .error .sigpipe responder')
    (turns : List Turn) :
    (run service observer ({ poll := .accepts connection } :: turns)).run responder
      = .error .sigpipe responder' := by
  rw [run, if_neg Bool.false_ne_true]
  simp only [EStateM.run_bind, h]

/-- **A run is the connections it serves**, however it ends; and it is killed when one of them is. -/
theorem run_serves (turns : List Turn) (responder : Responder σ) :
    ((run service observer turns).run responder).state
        = (sessions service observer).after responder
            (servedConnections service responder.store turns) ∧
      (resultEnding ((run service observer turns).run responder) = .killed ↔
        ∃ step ∈ (endings service).log responder.store
          (servedConnections service responder.store turns), step.2 = .killed) := by
  -- a turn that ends the loop serves nothing
  have hidle : ∀ {result : EStateM.Result Fault (Responder σ) RunEnd}, resultEnding result ≠ .killed →
      (resultEnding result = .killed ↔ ∃ step ∈ ([] : List (Connection × Ending)), step.2 = .killed) :=
    fun hresult => iff_of_false hresult (by simp)
  unfold servedConnections
  induction turns generalizing responder with
  | nil => exact ⟨rfl, hidle (by rw [run]; exact Ending.noConfusion)⟩
  | cons turn turns ih =>
      obtain ⟨stopFlag, poll⟩ := turn
      cases stopFlag with
      | true => exact ⟨rfl, hidle Ending.noConfusion⟩
      | false =>
          cases poll with
          | interrupted stopFlag =>
              cases stopFlag with
              | true => exact ⟨rfl, hidle Ending.noConfusion⟩
              | false => exact ih responder
          | fails => exact ⟨rfl, hidle Ending.noConfusion⟩
          | timesOut => exact ih responder
          | acceptFails reason => exact ⟨rfl, hidle Ending.noConfusion⟩
          | accepts connection =>
              have haccepted : acceptedConnections ({ poll := .accepts connection } :: turns)
                  = connection :: acceptedConnections turns := rfl
              obtain ⟨responder', hstore, ⟨hspared, hclient⟩ | ⟨hkilled, hclient⟩⟩ :=
                @run_handleClient σ service observer responder connection
              · have hnext : ((endings service).step responder.store connection).2 = responder'.store :=
                  hstore.symm
                obtain ⟨hrest, hkilled⟩ := ih responder'
                rw [run_cons_of_spared hclient, haccepted, Machine.upTo_cons_of_not_last
                    (Ending.isKilled_eq_false_iff.2 hspared), Machine.after_cons, Machine.log, hnext,
                  step_sessions_of_run hclient, EStateM.Result.state_ok, List.exists_mem_cons_iff]
                exact ⟨hrest, hkilled.trans (or_iff_right hspared).symm⟩
              · rw [run_cons_of_killed hclient, haccepted, Machine.upTo_cons_of_last
                    (Ending.isKilled_eq_true_iff.2 hkilled), Machine.after_cons, Machine.log,
                  step_sessions_of_run hclient, EStateM.Result.state_error, List.exists_mem_cons_iff]
                exact ⟨rfl, iff_of_true rfl (Or.inl hkilled)⟩

/-- Where no session is killed, all the connections are served. -/
theorem servedConnections_eq_self {turns : List Turn} {store : σ}
    (h : ∀ session ∈ (endings service).log store (servedConnections service store turns),
      session.2 ≠ .killed) : servedConnections service store turns = acceptedConnections turns :=
  Machine.upTo_eq_self fun session hsession => Ending.isKilled_eq_false_iff.2 (h session hsession)

/-- No session is killed of connections that raise no SIGPIPE. -/
theorem ending_ne_killed_of_spared {connections : List Connection}
    (h : ∀ connection ∈ connections, connection.Spared) {store : σ} {session : Connection × Ending}
    (hsession : session ∈ (endings service).log store connections) : session.2 ≠ .killed := by
  obtain ⟨store', hending⟩ := Machine.exists_step_of_mem_log hsession
  have hspared := h session.1 (Machine.mem_of_mem_log hsession)
  rw [hending]
  exact sessionEnding_of_spared hspared.handshake hspared.stream store'

/-! ## The trace of a session -/

/-- What the trace of a connection tells, by the ending of its session: the certificate that was
    checked, or no more than a note. -/
def NamesPeer (connection : Connection) (trace : SessionTrace) : Ending → Prop
  | .returns => ∃ certificate, connection.handshake = .ok certificate ∧
      trace.peerThumbprint = (readPeerIdentity certificate).sha256Thumbprint
  | .throws => ∃ note, trace = { note := note }
  | .killed => False

/-- **Every connection has one trace**, unless its session is killed, and that of a session which
    returns names its peer. -/
theorem exists_trace (connection : Connection) (responder : Responder σ) :
    let after := afterConnection service true responder connection
    (connection.ending service responder.store = .killed ∧ after.observed = responder.observed) ∨
    ∃ trace, after.observed = responder.observed ++ [trace] ∧
      NamesPeer connection trace (connection.ending service responder.store) := by
  intro after
  have hleaves := @observed_handleClient σ service connection responder
  cases hending : connection.ending service responder.store with
  | returns =>
      rw [hending] at hleaves
      obtain ⟨trace, certificate, message, hobserved, hhandshake, -, hattributes⟩ := hleaves
      exact Or.inr ⟨trace, hobserved, certificate, hhandshake, hattributes.peerThumbprint⟩
  | throws =>
      rw [hending] at hleaves
      obtain ⟨note, hobserved⟩ := hleaves
      exact Or.inr ⟨_, hobserved, note, rfl⟩
  | killed =>
      rw [hending] at hleaves
      exact Or.inl ⟨rfl, hleaves⟩

end TlsServer

end AsmProto
