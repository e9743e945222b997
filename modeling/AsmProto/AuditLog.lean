import AsmProto.AsmResponder
import AsmProto.ErrorTexts
import AsmProto.Lib.Delimited
import AsmProto.Lib.Lines

set_option autoImplicit false

/-! # The log of the responder

The observer of `main` prints one line for each session, but for one in which SIGPIPE kills the process.
Whatever the clients send, and whatever the program meets, no other session can print more or less than
its line, and the text tells the fields of every trace. -/

namespace AsmProto

namespace AsmResponder

/-! ## One line -/

/-- The fields of a trace, as far as its line has them. -/
def traceFields (trace : SessionTrace) :
    StdString × Command × GeneralResponse × Option RequestId × StdString :=
  (trace.peerThumbprint, trace.command, trace.status, trace.requestId, ascii trace.note)

theorem toText_command_injective : Function.Injective Command.toText := by
  intro command command'
  cases command <;> cases command' <;> decide

theorem toText_status_injective : Function.Injective GeneralResponse.toText := by
  intro status status'
  cases status <;> cases status' <;> decide

/-- What follows the blank behind the response. -/
def traceTail (trace : SessionTrace) : StdString :=
  match trace.requestId with
  | some requestId => ascii "request_id=" ++ (Numeral.print 10 requestId.toNat
      ++ 0x20 :: (ascii "note=" ++ ascii trace.note))
  | none => ascii "note=" ++ ascii trace.note

theorem traceText_eq (trace : SessionTrace) :
    traceText trace = ascii "peer=" ++ (trace.peerThumbprint ++ 0x20 :: (ascii "command="
      ++ (trace.command.toText ++ 0x20 :: (ascii "response="
        ++ (trace.status.toText ++ 0x20 :: traceTail trace))))) := by
  have hcommand : ascii " command=" = 0x20 :: ascii "command=" := by decide
  have hresponse : ascii " response=" = 0x20 :: ascii "response=" := by decide
  have hid : ascii " request_id=" = 0x20 :: ascii "request_id=" := by decide
  have hnote : ascii " note=" = 0x20 :: ascii "note=" := by decide
  rw [traceText, traceTail, hcommand, hresponse, hid, hnote]
  cases trace.requestId with
  | none => simp only [List.append_assoc, List.cons_append, List.nil_append]
  | some requestId => simp only [List.append_assoc, List.cons_append]

theorem not_mem_toText_command {c : UInt8} (h : c = 0x20 ∨ c = 0x0a) (command : Command) :
    c ∉ command.toText := by
  rcases h with rfl | rfl
  · cases command <;> decide
  · cases command <;> decide

theorem not_mem_toText_status {c : UInt8} (h : c = 0x20 ∨ c = 0x0a) (status : GeneralResponse) :
    c ∉ status.toText := by
  rcases h with rfl | rfl
  · cases status <;> decide
  · cases status <;> decide

theorem not_mem_thumbprint {c : UInt8} (h : c = 0x20 ∨ c = 0x0a) {trace : SessionTrace}
    (htrace : trace.Printable) : c ∉ trace.peerThumbprint := by
  intro hmem
  obtain ⟨d, hd, hdigit⟩ := htrace.peerThumbprint c hmem
  have hplain := Numeral.isDigit_digitChar (by decide : 16 ≤ 36) hd
  rw [← hdigit] at hplain
  rcases h with rfl | rfl
  · exact absurd hplain (by decide)
  · exact absurd hplain (by decide)

/-- **The line of a trace has no line break in it.** -/
theorem newline_not_mem_traceText {trace : SessionTrace} (h : trace.Printable) :
    (0x0a : UInt8) ∉ traceText trace := by
  have hnewline : (0x0a : UInt8) = 0x20 ∨ (0x0a : UInt8) = 0x0a := Or.inr rfl
  have htail : (0x0a : UInt8) ∉ traceTail trace := by
    have hnote : (0x0a : UInt8) ∉ ascii trace.note := h.note
    unfold traceTail
    cases trace.requestId with
    | none =>
        rw [List.mem_append, not_or]
        exact ⟨by decide, hnote⟩
    | some requestId =>
        simp only [List.mem_append, List.mem_cons, not_or]
        exact ⟨by decide, Numeral.not_mem_print (by decide) _, by decide, by decide, hnote⟩
  rw [traceText_eq]
  simp only [List.mem_append, List.mem_cons, not_or]
  exact ⟨by decide, not_mem_thumbprint hnewline h, by decide, by decide,
    not_mem_toText_command hnewline _, by decide, by decide, not_mem_toText_status hnewline _,
    by decide, htail⟩

theorem traceTail_inj {trace trace' : SessionTrace} (h : traceTail trace = traceTail trace') :
    trace.requestId = trace'.requestId ∧ ascii trace.note = ascii trace'.note := by
  unfold traceTail at h
  cases hid : trace.requestId with
  | none =>
      cases hid' : trace'.requestId with
      | none =>
          rw [hid, hid'] at h
          exact ⟨rfl, List.append_cancel_left h⟩
      | some requestId' =>
          rw [hid, hid'] at h
          -- the first letters differ
          exact absurd (List.cons.inj h).1 (by decide)
  | some requestId =>
      cases hid' : trace'.requestId with
      | none =>
          rw [hid, hid'] at h
          exact absurd (List.cons.inj h).1 (by decide)
      | some requestId' =>
          rw [hid, hid'] at h
          obtain ⟨hprint, hrest⟩ := Delimited.word_inj (Numeral.not_mem_print (by decide) _)
            (Numeral.not_mem_print (by decide) _) (List.append_cancel_left h)
          have hvalue := congrArg (Numeral.value 10) hprint
          rw [Numeral.value_print_ten, Numeral.value_print_ten] at hvalue
          exact ⟨congrArg some (UInt32.toNat_inj.1 hvalue), List.append_cancel_left hrest⟩

/-- **The line of a trace tells its fields.** -/
theorem traceFields_of_traceText {trace trace' : SessionTrace} (h : trace.Printable)
    (h' : trace'.Printable) (heq : traceText trace = traceText trace') :
    traceFields trace = traceFields trace' := by
  have hblank : (0x20 : UInt8) = 0x20 ∨ (0x20 : UInt8) = 0x0a := Or.inl rfl
  rw [traceText_eq, traceText_eq] at heq
  obtain ⟨hpeer, heq⟩ := Delimited.word_inj (not_mem_thumbprint hblank h)
    (not_mem_thumbprint hblank h') (List.append_cancel_left heq)
  obtain ⟨hcommand, heq⟩ := Delimited.word_inj (not_mem_toText_command hblank _)
    (not_mem_toText_command hblank _) (List.append_cancel_left heq)
  obtain ⟨hstatus, heq⟩ := Delimited.word_inj (not_mem_toText_status hblank _)
    (not_mem_toText_status hblank _) (List.append_cancel_left heq)
  obtain ⟨hid, hnote⟩ := traceTail_inj heq
  rw [traceFields, traceFields, hpeer, toText_command_injective hcommand,
    toText_status_injective hstatus, hid, hnote]

/-! ## The whole log -/

/-- The lines of printable traces are their texts. -/
theorem getLines_printTrace {traces : List SessionTrace} (h : ∀ trace ∈ traces, trace.Printable) :
    Lines.getLines 0x0a (traces.flatMap printTrace) = traces.map traceText := by
  have hplain : ∀ line ∈ traces.map traceText, (0x0a : UInt8) ∉ line := by
    intro line hline
    obtain ⟨trace, htrace, rfl⟩ := List.mem_map.1 hline
    exact newline_not_mem_traceText (h trace htrace)
  have hlines := Lines.getLines_flatMap (0x0a : UInt8) hplain []
  rw [List.append_nil, Lines.getLines_nil, List.append_nil, List.flatMap_map] at hlines
  exact hlines

theorem map_traceFields_of_map_traceText {traces traces' : List SessionTrace}
    (h : ∀ trace ∈ traces, trace.Printable) (h' : ∀ trace ∈ traces', trace.Printable)
    (heq : traces.map traceText = traces'.map traceText) :
    traces.map traceFields = traces'.map traceFields := by
  induction traces generalizing traces' with
  | nil => rw [List.map_eq_nil_iff.1 heq.symm]
  | cons trace traces ih =>
      cases traces' with
      | nil => simp at heq
      | cons trace' traces' =>
          obtain ⟨htext, hrest⟩ := List.cons.inj heq
          simp only [List.forall_mem_cons] at h h'
          rw [List.map_cons, List.map_cons, traceFields_of_traceText h.1 h'.1 htext,
            ih h.2 h'.2 hrest]

/-- **A log tells the fields of its traces.** -/
theorem traceFields_of_log {traces traces' : List SessionTrace}
    (h : ∀ trace ∈ traces, trace.Printable) (h' : ∀ trace ∈ traces', trace.Printable)
    (heq : traces.flatMap printTrace = traces'.flatMap printTrace) :
    traces.map traceFields = traces'.map traceFields := by
  have hlines := congrArg (Lines.getLines 0x0a) heq
  rw [getLines_printTrace h, getLines_printTrace h'] at hlines
  exact map_traceFields_of_map_traceText h h' hlines

end AsmResponder

/-- **One trace for each session of a run** that is not killed, in order. -/
theorem TlsServer.exists_traces {σ : Type} {service : AsmService σ} (connections : List Connection)
    (responder : Responder σ) :
    ∃ traces, ((sessions service true).after responder connections).observed
        = responder.observed ++ traces ∧
      List.Forall₂ (fun session trace => NamesPeer session.1 trace session.2)
        (((endings service).log responder.store connections).filter
          fun session => !session.2.isKilled) traces := by
  induction connections generalizing responder with
  | nil => exact ⟨[], (List.append_nil _).symm, .nil⟩
  | cons connection connections ih =>
      obtain ⟨traces, hrest, hpeers⟩ := ih (afterConnection service true responder connection)
      have hlog : (endings service).log responder.store (connection :: connections)
          = (connection, connection.ending service responder.store)
            :: (endings service).log (afterConnection service true responder connection).store
              connections := by
        rw [store_afterConnection]
        rfl
      rw [Machine.after_cons, hlog]
      rcases @exists_trace σ service connection responder with ⟨hkilled, hsame⟩ |
        ⟨trace, hobserved, hpeer⟩
      · refine ⟨traces, hrest.trans (by rw [hsame]), ?_⟩
        rw [List.filter_cons_of_neg (by simp [hkilled, Ending.isKilled])]
        exact hpeers
      · have hspared : connection.ending service responder.store ≠ .killed := by
          intro hkilled
          rw [hkilled] at hpeer
          exact hpeer
        refine ⟨trace :: traces, ?_, ?_⟩
        · refine hrest.trans ?_
          rw [hobserved, List.append_assoc, List.singleton_append]
        · rw [List.filter_cons_of_pos (by simp [Ending.isKilled, hspared])]
          exact .cons hpeer hpeers

namespace AsmResponder

/-- What the log of a process tells of the connections it could accept: each has a session, in order, up
    to one that is killed, and each session that is not killed has a trace. -/
structure Logs (process : Process) (connections : List Connection) (traces : List SessionTrace) :
    Prop where
  out : process.out = traces.flatMap printTrace
  printable : ∀ trace ∈ traces, trace.Printable
  traces : List.Forall₂ (fun session trace => TlsServer.NamesPeer session.1 trace session.2)
    (process.sessions.filter fun session => !session.2.isKilled) traces
  accepted : process.sessions.map Prod.fst <+: connections
  all : process.exit.Started → process.exit ≠ .killed → process.sessions.map Prod.fst = connections
  killed : process.exit = .killed ↔ ∃ session ∈ process.sessions, session.2 = .killed
  last : ∀ session ∈ process.sessions.dropLast, session.2 ≠ .killed

/-- A process that serves nothing. -/
theorem logs_of_not_started {process : Process} (hexit : ¬ process.exit.Started)
    (hsessions : process.sessions = []) (hout : process.out = []) (connections : List Connection) :
    Logs process connections [] where
  out := hout
  printable := by simp
  traces := by
    rw [hsessions]
    exact .nil
  accepted := by
    rw [hsessions]
    exact List.nil_prefix
  all hstarted := absurd hstarted hexit
  killed := by
    refine iff_of_false (fun hkilled => hexit ?_) (by simp [hsessions])
    rw [hkilled]
    trivial
  last := by simp [hsessions]

theorem exists_logs_serve {σ : Type} {service : AsmService σ} (h : service.ThrowsOneLine)
    (config : TlsConfig) (invocation : Invocation) (store : σ) (keyFile : Option StdString) :
    ∃ traces, Logs ((serve service config invocation store).process keyFile)
      (invocation.connections config) traces := by
  cases hsetUp : setUp config invocation with
  | error ex =>
      rw [serve_of_error hsetUp]
      refine ⟨[], logs_of_not_started ?_ rfl rfl _⟩
      exact not_false
  | ok _ =>
      obtain ⟨exit, -, hkilled, hserve⟩ := @serve_of_ok σ service config invocation hsetUp store
      obtain ⟨traces, hobserved, hpeers⟩ := @TlsServer.exists_traces σ service
        (invocation.served config service store) { store := store }
      rw [List.nil_append] at hobserved
      have hinitial : invocation.served config service store <+: invocation.connections config :=
        Machine.upTo_prefix _ _ _ _
      have hsessions : ∀ connections, ((TlsServer.endings service).log store connections).map Prod.fst
          = connections := Machine.map_fst_log _ _
      rw [hserve]
      refine ⟨traces, ?_, ?_, hpeers, ?_, fun _ hspared => ?_, hkilled, fun session hsession => ?_⟩
      · rw [Served.process, hobserved]
      · have hhandshakes : ∀ connection ∈ invocation.served config service store,
            FailsOneLine connection.handshake := by
          intro connection hconnection
          obtain ⟨client, rfl⟩ := exists_client (hinitial.subset hconnection)
          exact failsOneLine_handshake config client
        have hstart : ({ store := store } : Responder σ).Printable :=
          fun _ htrace => absurd htrace List.not_mem_nil
        have hprintable := TlsServer.printable_sessions h hhandshakes hstart
        unfold Responder.Printable at hprintable
        rwa [hobserved] at hprintable
      · show ((TlsServer.endings service).log store _).map Prod.fst <+: _
        rw [hsessions]
        exact hinitial
      · refine (hsessions _).trans (Machine.upTo_eq_self fun session hsession => ?_)
        exact Ending.isKilled_eq_false_iff.2 fun hending =>
          hspared (hkilled.2 ⟨session, hsession, hending⟩)
      · exact Ending.isKilled_eq_false_iff.1 (Machine.not_last_of_mem_dropLast hsession)

theorem exists_logs_main (reader : TimeReader) (invocation : Invocation) (keyFile : Option StdString) :
    ∃ traces, Logs (main reader invocation keyFile)
      (((config invocation.arguments).map invocation.connections).getD []) traces := by
  have hnone : ∀ exit, ¬ exit.Started → ∀ connections,
      ∃ traces, Logs { exit := exit, keyFile := keyFile } connections traces :=
    fun exit hexit connections => ⟨[], logs_of_not_started hexit rfl rfl connections⟩
  unfold main
  cases config invocation.arguments with
  | none => exact hnone .usage not_false _
  | some config =>
      simp only [Option.map_some, Option.getD_some]
      cases eventLog reader invocation with
      | error ex => exact hnone (.notStarted ex) not_false _
      | ok events =>
          simp only
          split
          · unfold servePersistent
            cases JsonlLeKeyStore.construct keyFile invocation.keyFileOpens with
            | error ex => exact hnone (.notStarted ex) not_false _
            | ok store =>
                exact exists_logs_serve (throwsOneLine_persistent events statusProvider _) config
                  invocation store _
          · exact exists_logs_serve (throwsOneLine_inMemory events statusProvider) config invocation {} _

/-- **The log of the responder cannot be forged.** For any arguments, files, behaviour of OpenSSL and
    of the clients: a process that serves prints exactly one line for each connection it accepts, in
    order, but for one whose session SIGPIPE kills, which is the last; the line names the peer if the
    session returned, and holds no more than the text of an exception if it threw; a process that does
    not start prints nothing; and no other traces that a process can print have the same text, but for
    fields the line does not have. -/
theorem audit_log_faithful (reader : TimeReader) (invocation : Invocation)
    (keyFile : Option StdString) :
    let process := main reader invocation keyFile
    ∃ traces, Logs process (((config invocation.arguments).map invocation.connections).getD []) traces ∧
      Lines.getLines 0x0a process.out = traces.map traceText ∧
      ∀ reader' invocation' keyFile' traces' connections',
        Logs (main reader' invocation' keyFile') connections' traces' →
        (main reader' invocation' keyFile').out = process.out →
        traces'.map traceFields = traces.map traceFields := by
  intro process
  obtain ⟨traces, hlogs⟩ := exists_logs_main reader invocation keyFile
  refine ⟨traces, hlogs, ?_, ?_⟩
  · rw [hlogs.out]
    exact getLines_printTrace hlogs.printable
  · intro reader' invocation' keyFile' traces' connections' hlogs' heq
    rw [hlogs.out, hlogs'.out] at heq
    exact traceFields_of_log hlogs'.printable hlogs.printable heq

end AsmResponder

end AsmProto
