import AsmProto.AsmResponder
import AsmProto.LeKey.Lifetime

set_option autoImplicit false

/-! # Restarts of the responder program

The responder is started again and again with the same key file. As long as its file works and no
SIGPIPE kills it, the clients and the reader of the logs cannot tell this from one process that keeps
its keys in memory: the store and its file stay in step, and every process starts from what the one
before left. -/

namespace AsmProto

namespace AsmResponder

/-- The starts of the program, each on the key file the last one left. -/
def starts (reader : TimeReader) : Machine Invocation Process (Option StdString) where
  step keyFile invocation :=
    (main reader invocation keyFile, (main reader invocation keyFile).keyFile)

/-- The program is started with a key file and its server comes up; every write to the file
    succeeds. -/
structure Invocation.Sound (reader : TimeReader) (config : TlsConfig) (events : List EventRecord)
    (invocation : Invocation) : Prop where
  arguments : invocation.arguments.length = 5
  configured : AsmResponder.config invocation.arguments = some config
  events : eventLog reader invocation = .ok events
  setUp : AsmResponder.setUp config invocation = .ok ()
  keyFileOpens : invocation.keyFileOpens = true
  persist : invocation.persist = .writesAll

/-- The persistent store is in step with its file, and holds the keys of the store in memory. -/
structure InStep (store : JsonlLeKeyStore) (memory : InMemoryLeKeyStore) : Prop where
  synced : JsonlLeKeyStore.Synced store
  keys : store.keys = memory.keys

/-- **Both stores do the same**, call by call. -/
theorem alike_calls (call : StoreCall) :
    EStateM.Alike InStep ((JsonlLeKeyStore.toStore .writesAll).call call)
      (InMemoryLeKeyStore.toStore.call call) := by
  intro store memory hstep
  obtain ⟨store', hrun, hkeys, hsynced⟩ := JsonlLeKeyStore.run_call_synced hstep.synced call
  rw [hrun, InMemoryLeKeyStore.run_call, hstep.keys]
  exact .ok _ ⟨hsynced, by rw [hkeys, hstep.keys]⟩

theorem alike_services (eventLogStore : EventLogStore) (spbStatusProvider : QuerySpbStatusProvider) :
    AsmService.Alike InStep (AsmService.persistent eventLogStore spbStatusProvider .writesAll)
      (AsmService.inMemory eventLogStore spbStatusProvider) :=
  ⟨rfl, rfl, alike_calls⟩

/-- The traces of a process, after those that were there before. -/
def After (before : List SessionTrace) (observed whole : List SessionTrace) : Prop :=
  whole = before ++ observed

/-- **Sessions of alike services** send the same and stay alike, over any connections. -/
theorem answers_of_alike {σ τ : Type} {service : AsmService σ} {service' : AsmService τ}
    {R : σ → τ → Prop} (h : service.Alike R service') (before : List SessionTrace)
    {responder : Responder σ} {responder' : Responder τ}
    (halike : Responder.Alike R (After before) responder responder') (connections : List Connection) :
    (TlsServer.sessions service true).answers responder connections
        = (TlsServer.sessions service' true).answers responder' connections ∧
      Responder.Alike R (After before) ((TlsServer.sessions service true).after responder connections)
        ((TlsServer.sessions service' true).after responder' connections) := by
  have hafter : ∀ observed whole, After before observed whole → ∀ trace : SessionTrace,
      After before (observed ++ [trace]) (whole ++ [trace]) := by
    rintro observed whole rfl trace
    exact List.append_assoc _ _ _
  have hany : ∀ observed whole : List SessionTrace, True → ∀ trace : SessionTrace, True :=
    fun _ _ _ _ => trivial
  refine Machine.answers_of_simulation (R := Responder.Alike R (After before)) ?_ halike connections
  intro responder responder' connection halike
  have hopened : Session.Alike R (fun _ _ => True) (TlsServer.opened responder connection)
      (TlsServer.opened responder' connection) := ⟨halike.store, rfl, rfl, rfl, trivial⟩
  refine ⟨congrArg TlsStream.sent (TlsServer.alike_serveClient h hany _ _ true _ _
    hopened).state.stream, ?_⟩
  exact (TlsServer.alike_handleClient h hafter true connection _ _ halike).state

/-- The store is opened, and the server runs on it. -/
theorem main_of_sound {reader : TimeReader} {config : TlsConfig} {events : List EventRecord}
    {invocation : Invocation} (hsound : invocation.Sound reader config events)
    {keyFile : Option StdString} {keys : List LeKeyRecord}
    (hkeys : readKeys (keyFile.getD []) = .ok keys) :
    let store : JsonlLeKeyStore := { file := some (keyFile.getD []), keys := keys }
    let served := serve (AsmService.persistent (.ofEvents events) statusProvider .writesAll) config
      invocation store
    JsonlLeKeyStore.Synced store ∧
      main reader invocation keyFile = served.process served.responder.store.file := by
  intro store served
  have hopen : JsonlLeKeyStore.construct keyFile true = .ok store :=
    JsonlLeKeyStore.construct_eq_ok_iff.2 ⟨rfl, rfl, hkeys⟩
  refine ⟨JsonlLeKeyStore.synced_of_construct hopen, ?_⟩
  rw [main, hsound.configured]
  simp only [hsound.events, if_pos hsound.arguments, servePersistent, hsound.keyFileOpens, hopen,
    hsound.persist]
  rfl

/-- **One life**: a process that is not killed sends and prints what the store in memory would, and
    leaves its keys. -/
theorem sound_process {reader : TimeReader} {config : TlsConfig} {events : List EventRecord}
    {invocation : Invocation} (hsound : invocation.Sound reader config events)
    {keyFile : Option StdString} {memory : Responder InMemoryLeKeyStore}
    (hkeys : readKeys (keyFile.getD []) = .ok memory.store.keys)
    (hexit : (main reader invocation keyFile).exit ≠ .killed) :
    let process := main reader invocation keyFile
    let alone := TlsServer.sessions (AsmService.inMemory (.ofEvents events) statusProvider) true
    let connections := invocation.connections config
    process.sent = alone.answers memory connections ∧
    (∃ traces, (alone.after memory connections).observed = memory.observed ++ traces ∧
      process.out = traces.flatMap printTrace) ∧
    readKeys (process.keyFile.getD []) = .ok (alone.after memory connections).store.keys := by
  intro process alone connections
  obtain ⟨hsynced, hmain⟩ := main_of_sound hsound hkeys
  rw [hmain] at hexit
  have hstart : Responder.Alike InStep (After memory.observed)
      { store := { file := some (keyFile.getD []), keys := memory.store.keys } } memory :=
    ⟨⟨hsynced, rfl⟩, (List.append_nil _).symm⟩
  obtain ⟨hsent, hend⟩ := answers_of_alike (alike_services (.ofEvents events) statusProvider)
    memory.observed hstart connections
  obtain ⟨exit, -, -, hserve⟩ := @serve_of_ok _
    (AsmService.persistent (.ofEvents events) statusProvider .writesAll) config invocation hsound.setUp
    { file := some (keyFile.getD []), keys := memory.store.keys }
  rw [served_of_exit hsound.setUp hexit] at hserve
  have hprocess : process = main reader invocation keyFile := rfl
  rw [hmain, hserve] at hprocess
  refine ⟨?_, ?_, ?_⟩
  · rw [hprocess]
    exact hsent
  · refine ⟨_, hend.observed, ?_⟩
    rw [hprocess, Served.process]
  · obtain ⟨-, -, hread⟩ := JsonlLeKeyStore.construct_eq_ok_iff.1 hend.store.synced
    rw [hprocess, Served.process]
    exact hread.trans (congrArg Except.ok hend.store.keys)

/-- **All lives**, after whatever the single process has served before. -/
theorem sound_processes {reader : TimeReader} {config : TlsConfig} {events : List EventRecord}
    {invocations : List Invocation}
    (hsound : ∀ invocation ∈ invocations, invocation.Sound reader config events)
    {keyFile : Option StdString} {memory : Responder InMemoryLeKeyStore}
    (hkeys : readKeys (keyFile.getD []) = .ok memory.store.keys)
    (hexits : ∀ process ∈ (starts reader).answers keyFile invocations, process.exit ≠ .killed) :
    let processes := (starts reader).answers keyFile invocations
    let alone := TlsServer.sessions (AsmService.inMemory (.ofEvents events) statusProvider) true
    let connections := invocations.flatMap fun invocation => invocation.connections config
    processes.flatMap Process.sent = alone.answers memory connections ∧
    (∃ traces, (alone.after memory connections).observed = memory.observed ++ traces ∧
      processes.flatMap Process.out = traces.flatMap printTrace) ∧
    readKeys (((starts reader).after keyFile invocations).getD [])
      = .ok (alone.after memory connections).store.keys := by
  induction invocations generalizing keyFile memory with
  | nil => exact ⟨rfl, ⟨[], (List.append_nil _).symm, rfl⟩, hkeys⟩
  | cons invocation invocations ih =>
      intro processes alone connections
      obtain ⟨hfirst, hrest⟩ := List.forall_mem_cons.1 hsound
      obtain ⟨hexit, hexits⟩ := List.forall_mem_cons.1 hexits
      obtain ⟨hsent, ⟨traces, hobserved, hout⟩, hread⟩ := sound_process hfirst hkeys hexit
      obtain ⟨hsent', ⟨traces', hobserved', hout'⟩, hread'⟩ := ih hrest hread hexits
      have hconnections : connections = invocation.connections config
          ++ invocations.flatMap fun invocation => invocation.connections config := rfl
      rw [hconnections, Machine.answers_append, Machine.after_append]
      refine ⟨?_, ⟨traces ++ traces', ?_, ?_⟩, hread'⟩
      · exact congrArg₂ (· ++ ·) hsent hsent'
      · rw [hobserved', hobserved, List.append_assoc]
      · rw [List.flatMap_append, ← hout, ← hout']
        rfl

/-- **Nobody can tell that the responder was restarted.** Over any number of processes with one key
    file, whose writes succeed, each ended by its stop flag or by an exception of the loop and none by
    SIGPIPE: the bytes every connection is sent and the lines that are inserted into `std::cout` (of
    which a process that an exception ends may leave the last ones unwritten) are those of a single
    process that keeps the keys of the first file in memory and serves all the connections, and the last
    file reads back as its keys. -/
theorem restarts_are_invisible (reader : TimeReader) (config : TlsConfig) (events : List EventRecord)
    (invocations : List Invocation) (keyFile : Option StdString) (keys : List LeKeyRecord)
    (hkeys : readKeys (keyFile.getD []) = .ok keys)
    (hsound : ∀ invocation ∈ invocations, invocation.Sound reader config events)
    (hexits : ∀ process ∈ (starts reader).answers keyFile invocations, process.exit ≠ .killed) :
    let processes := (starts reader).answers keyFile invocations
    let alone := TlsServer.sessions (AsmService.inMemory (.ofEvents events) statusProvider) true
    let connections := invocations.flatMap fun invocation => invocation.connections config
    let start : Responder InMemoryLeKeyStore := { store := { keys := keys } }
    processes.flatMap Process.sent = alone.answers start connections ∧
    processes.flatMap Process.out = (alone.after start connections).observed.flatMap printTrace ∧
    readKeys (((starts reader).after keyFile invocations).getD [])
      = .ok (alone.after start connections).store.keys := by
  intro processes alone connections start
  obtain ⟨hsent, ⟨traces, hobserved, hout⟩, hread⟩ :=
    @sound_processes reader config events invocations hsound keyFile start hkeys hexits
  refine ⟨hsent, ?_, hread⟩
  rw [hobserved]
  exact hout

/-- No process is killed whose connections raise no SIGPIPE, whatever its key file holds. -/
theorem exits_of_spared {reader : TimeReader} {config : TlsConfig} {events : List EventRecord}
    {invocations : List Invocation}
    (hsound : ∀ invocation ∈ invocations, invocation.Sound reader config events)
    (hspared : ∀ connection ∈ invocations.flatMap fun invocation => invocation.connections config,
      connection.Spared) {keyFile : Option StdString} :
    ∀ process ∈ (starts reader).answers keyFile invocations, process.exit ≠ .killed := by
  intro process hprocess
  rw [Machine.answers_eq_map_log] at hprocess
  obtain ⟨start, hstart, rfl⟩ := List.mem_map.1 hprocess
  obtain ⟨keyFile', hmain⟩ := Machine.exists_step_of_mem_log hstart
  have hinvocation := Machine.mem_of_mem_log hstart
  have hfirst := hsound start.1 hinvocation
  rw [hmain]
  show (main reader start.1 keyFile').exit ≠ .killed
  rw [main, hfirst.configured]
  simp only [hfirst.events, if_pos hfirst.arguments, servePersistent]
  cases JsonlLeKeyStore.construct keyFile' start.1.keyFileOpens with
  | error ex => exact Exit.noConfusion
  | ok store =>
      exact exit_serve_of_spared (fun connection hconnection => hspared connection
        (List.mem_flatMap.2 ⟨start.1, hinvocation, hconnection⟩)) store

/-- A start with the certificate of `plainX509` that serves a load of one key. -/
def loadingStart : Invocation where
  arguments := [ascii "server.pem", ascii "server.key", ascii "ca.pem", ascii "events.jsonl",
    ascii "keys.jsonl"]
  openSsl := TlsServer.plainOpenSsl
  eventFile := some []
  turns := [{ poll := .accepts (TlsServer.plainClient true) }, { stopFlag := true, poll := .timesOut }]

theorem loadingStart_spared : ∀ connection ∈ loadingStart.connections TlsServer.plainConfig,
    connection.Spared := by
  intro connection hconnection
  rw [List.mem_singleton.1 hconnection]
  obtain ⟨certificate, hhandshake⟩ := TlsServer.exists_plainHandshake {
    incoming := [.ok TlsServer.oneKeyFrame] }
  have hstream : TlsStream.Spared { incoming := [.ok TlsServer.oneKeyFrame] } := ⟨by simp, by simp⟩
  refine ⟨fun hkilled => ?_, hstream⟩
  cases hhandshake.symm.trans hkilled

theorem loadingStart_sound : loadingStart.Sound .getTime TlsServer.plainConfig [] where
  arguments := rfl
  configured := rfl
  events := rfl
  setUp := by
    obtain ⟨ctx, hctx⟩ := TlsServer.exists_plainCtx true
    have hcreate : TlsContextFactory.createServer loadingStart.openSsl TlsServer.plainConfig
        = .ok ctx := hctx
    rw [AsmResponder.setUp, hcreate]
    rfl
  keyFileOpens := rfl
  persist := rfl

theorem restarts_are_invisible_twice :
    readKeys (((starts .getTime).after none [loadingStart, loadingStart]).getD [])
      = .ok ((TlsServer.sessions (AsmService.inMemory (.ofEvents []) statusProvider) true).after
          { store := { keys := [] } }
          ([loadingStart, loadingStart].flatMap fun invocation =>
            invocation.connections TlsServer.plainConfig)).store.keys := by
  have hsound : ∀ invocation ∈ [loadingStart, loadingStart],
      invocation.Sound .getTime TlsServer.plainConfig [] := by
    intro invocation hinvocation
    rcases List.mem_pair.1 hinvocation with rfl | rfl
    · exact loadingStart_sound
    · exact loadingStart_sound
  refine (restarts_are_invisible .getTime TlsServer.plainConfig [] [loadingStart, loadingStart] none []
    rfl hsound (exits_of_spared hsound fun connection hconnection => ?_)).2.2
  obtain ⟨invocation, hinvocation, hconnection⟩ := List.mem_flatMap.1 hconnection
  rcases List.mem_pair.1 hinvocation with rfl | rfl
  · exact loadingStart_spared connection hconnection
  · exact loadingStart_spared connection hconnection

end AsmResponder

end AsmProto
