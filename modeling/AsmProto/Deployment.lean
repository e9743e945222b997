import AsmProto.OperatorView
import AsmProto.RestartedResponder

set_option autoImplicit false

/-! # Both programs, restarts included

The responder program is started again and again with one key file, and the initiator program again and
again against it. `RestartedResponder.lean` turns the responders into one, and `OperatorView.lean` turns
one responder into the console; together they say what a deployment of the two programs comes to. -/

namespace AsmProto

namespace Visit

open AsmInitiator

/-- The connections the starts open, in order, each with what is sent on it. -/
def dialled (visits : List Visit) : List Connection :=
  (visits.filter connects).map fun visit =>
    visit.connection (main visit.network visit.argv {}).sent

/-- Where the handshakes succeed, no connection raises SIGPIPE. -/
theorem spared_of_dialled {visits : List Visit} (hmeets : ∀ visit ∈ visits, visit.Meets)
    {connection : Connection} (h : connection ∈ dialled visits) : connection.Spared := by
  obtain ⟨visit, hvisit, rfl⟩ := List.mem_map.1 h
  obtain ⟨hmem, hconnects⟩ := List.mem_filter.1 hvisit
  have hstream : TlsStream.Spared { incoming := [.ok (main visit.network visit.argv {}).sent] } :=
    ⟨by simp, by simp⟩
  refine ⟨fun hkilled => ?_, hstream⟩
  obtain ⟨request, hbuild⟩ := exists_request_of_connects hconnects
  obtain ⟨-, certificate, hhandshake⟩ := hmeets visit hmem request hbuild
  cases hhandshake.symm.trans hkilled

theorem dialled_cons (visit : Visit) (visits : List Visit) :
    dialled (visit :: visits) = dialled [visit] ++ dialled visits := by
  simp only [dialled, ← List.map_append, ← List.filter_append, List.singleton_append]

/-- The processes of the starts, when the connections are sent these replies, in order. -/
def processes : List Visit → List ByteBuffer → List Process
  | [], _ => []
  | visit :: visits, replies =>
      if visit.connects then
        main visit.network visit.argv { incoming := replies.head?.toList.map .ok }
          :: processes visits replies.tail
      else main visit.network visit.argv {} :: processes visits replies

/-- **The starts and the sessions** are two views of one run. -/
theorem answers_exchanges {σ : Type} (service : AsmService σ) (responder : Responder σ)
    (visits : List Visit) :
    (exchanges service).answers responder visits
        = processes visits ((TlsServer.sessions service true).answers responder (dialled visits)) ∧
      (exchanges service).after responder visits
        = (TlsServer.sessions service true).after responder (dialled visits) := by
  induction visits generalizing responder with
  | nil => exact ⟨rfl, rfl⟩
  | cons visit visits ih =>
      have hstep : (exchanges service).step responder visit = exchange service responder visit := rfl
      rw [Machine.answers, Machine.after_cons, hstep, processes, dialled, List.filter_cons, exchange]
      cases visit.connects with
      | true =>
          obtain ⟨hanswers, hafter⟩ := ih ((TlsServer.sessions service true).step responder
            (visit.connection (main visit.network visit.argv {}).sent)).2
          rw [if_pos rfl, if_pos rfl, if_pos rfl, List.map_cons, Machine.answers, Machine.after_cons,
            hanswers, hafter]
          exact ⟨rfl, rfl⟩
      | false =>
          obtain ⟨hanswers, hafter⟩ := ih responder
          rw [if_neg Bool.false_ne_true, if_neg Bool.false_ne_true, if_neg Bool.false_ne_true, hanswers,
            hafter]
          exact ⟨rfl, rfl⟩

end Visit

namespace AsmResponder

/-- **A deployment is a console.** Responders run one after another on one key file whose writes
    succeed, and initiators connect to them, whatever is typed, with handshakes that succeed: every
    initiator prints the line, or fails as, the console says that started with the keys of the first
    file and was never stopped (a failed one may lose text it has not flushed), and the last file reads
    back as its keys. -/
theorem deployment_is_console (reader : TimeReader) (config : TlsConfig) (events : List EventRecord)
    (invocations : List Invocation) (keyFile : Option StdString) (keys : List LeKeyRecord)
    (visits : List Visit) (hkeys : readKeys (keyFile.getD []) = .ok keys)
    (hsound : ∀ invocation ∈ invocations, invocation.Sound reader config events)
    (hmeets : ∀ visit ∈ visits, visit.Meets)
    (hserved : (invocations.flatMap fun invocation => invocation.connections config)
      = Visit.dialled visits) :
    let responders := (starts reader).answers keyFile invocations
    let initiators := Visit.processes visits (responders.flatMap Process.sent)
    (∃ asked, List.Forall₂ Visit.Gives visits asked) ∧
    ∀ asked, List.Forall₂ Visit.Gives visits asked →
      List.Forall₂ Shows initiators ((console events .notPlaying).answers keys asked) ∧
      readKeys (((starts reader).after keyFile invocations).getD [])
        = .ok ((console events .notPlaying).after keys asked) := by
  intro responders initiators
  refine ⟨Visit.exists_gives_all hmeets, fun asked hgives => ?_⟩
  have hexits : ∀ process ∈ responders, process.exit ≠ .killed :=
    exits_of_spared hsound fun connection hconnection =>
      Visit.spared_of_dialled hmeets (hserved ▸ hconnection)
  obtain ⟨hsent, -, hread⟩ := @sound_processes reader config events invocations hsound keyFile
    { store := { keys := keys } } hkeys hexits
  rw [hserved] at hsent hread
  obtain ⟨hanswers, hafter⟩ := Visit.answers_exchanges
    (AsmService.inMemory (.ofEvents events) statusProvider) { store := { keys := keys } } visits
  have hinitiators : initiators = (exchanges (AsmService.inMemory (.ofEvents events)
      statusProvider)).answers { store := { keys := keys } } visits := by
    rw [hanswers, ← hsent]
  rw [hinitiators, hread, ← hafter]
  obtain ⟨hshows, hend⟩ := @Visit.run_of_gives _ (AsmService.inMemory (.ofEvents events) statusProvider)
    InMemoryLeKeyStore.keys events .notPlaying rfl rfl InMemoryLeKeyStore.means
    { store := { keys := keys } } visits asked hgives
  exact ⟨hshows, congrArg Except.ok hend⟩

/-- The client behind a start that types this order. -/
def orderingClient (order : Order) : Client :=
  { TlsServer.plainClient true with stream := { incoming := [.ok order.frame] } }

/-- A start of the responder that serves this order. -/
def orderedStart (order : Order) : Invocation :=
  { loadingStart with
    turns := [{ poll := .accepts (orderingClient order) }, { stopFlag := true, poll := .timesOut }] }

def orderingVisit (order : Order) : Visit :=
  { plainVisit order with handshake := TlsServer.handshake TlsServer.plainConfig (orderingClient order) }

theorem gives_orderingVisit (order : Order) : (orderingVisit order).Gives
    (some { order := order, now := 0, peerThumbprint := bytesToHex (FixedBytes.zero 32).val }) := by
  obtain ⟨hbuild, hhandshake, -, hnow⟩ := gives_plainVisit order
  exact ⟨hbuild, hhandshake, TlsServer.exists_plainHandshake _, hnow⟩

theorem orderedStart_sound (order : Order) :
    (orderedStart order).Sound .getTime TlsServer.plainConfig [] where
  arguments := rfl
  configured := rfl
  events := rfl
  setUp := loadingStart_sound.setUp
  keyFileOpens := rfl
  persist := rfl

theorem connections_orderedStart (order : Order) :
    (orderedStart order).connections TlsServer.plainConfig = Visit.dialled [orderingVisit order] := by
  rw [Visit.dialled, List.filter_cons_of_pos (Visit.connects_of_gives (gives_orderingVisit order)),
    List.filter_nil, List.map_singleton, Visit.sent_of_gives (gives_orderingVisit order) []]
  rfl

/-- A key is loaded, and found after a restart. -/
theorem deployment_is_console_restarted :
    readKeys (((starts .getTime).after none
      [orderedStart (.load (blankKey 7)), orderedStart .queryAll]).getD []) = .ok [blankKey 7] := by
  have hserved : ([orderedStart (.load (blankKey 7)), orderedStart .queryAll].flatMap fun invocation =>
      invocation.connections TlsServer.plainConfig)
      = Visit.dialled [orderingVisit (.load (blankKey 7)), orderingVisit .queryAll] := by
    rw [List.flatMap_cons, List.flatMap_singleton, connections_orderedStart, connections_orderedStart]
    exact (Visit.dialled_cons _ _).symm
  have hgives : List.Forall₂ Visit.Gives
      [orderingVisit (.load (blankKey 7)), orderingVisit .queryAll] _ :=
    .cons (gives_orderingVisit _) (.cons (gives_orderingVisit _) .nil)
  refine ((deployment_is_console .getTime TlsServer.plainConfig [] _ none [] _ rfl ?_
    (Visit.meets_of_gives_all hgives) hserved).2 _ hgives).2
  intro invocation hinvocation
  rcases List.mem_pair.1 hinvocation with rfl | rfl
  · exact orderedStart_sound _
  · exact orderedStart_sound _

end AsmResponder

end AsmProto
