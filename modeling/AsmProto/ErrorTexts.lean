import AsmProto.AccessControl
import AsmProto.Atomicity
import AsmProto.Lib.Respects

set_option autoImplicit false

/-! # Texts of one line

The texts of the exceptions a session can meet, and the notes of the service, end up in the log of the
responder. They are fixed, but for the numbers OpenSSL reports; none has a line break, whatever the
client sends. -/

namespace AsmProto

/-- The text has no line break. -/
def OneLine (text : String) : Prop := (0x0a : UInt8) ∉ ascii text

instance (text : String) : Decidable (OneLine text) := inferInstanceAs (Decidable (_ ∉ _))

def StdException.OneLine (ex : StdException) : Prop := AsmProto.OneLine ex.what

def Fault.OneLine : Fault → Prop
  | .exception ex => ex.OneLine
  | .sigpipe => True

/-- Only exceptions with a text of one line are thrown. -/
abbrev ThrowsOneLine {α : Type} (x : Except StdException α) : Prop :=
  x.Respects (fun _ => True) StdException.OneLine

theorem ascii_append (a b : String) : ascii (a ++ b) = ascii a ++ ascii b := by
  simp [ascii]

theorem OneLine.append {a b : String} (ha : OneLine a) (hb : OneLine b) : OneLine (a ++ b) := by
  unfold OneLine
  rw [ascii_append, List.mem_append, not_or]
  exact ⟨ha, hb⟩

theorem oneLine_toString (n : ℕ) : OneLine (toString n) := by
  unfold OneLine ascii
  intro hmem
  obtain ⟨c, hc, hbyte⟩ := List.mem_map.1 hmem
  rw [Nat.toString_eq_ofList_toDigits, String.toList_ofList] at hc
  have hdigit : c.isDigit = true := Nat.isDigit_of_mem_toDigits (by omega) (by omega) hc
  simp only [Char.isDigit, Bool.and_eq_true, decide_eq_true_eq, ge_iff_le, UInt32.le_iff_toNat_le]
    at hdigit
  have hvalue := congrArg UInt8.toNat hbyte
  simp only [Char.toUInt8, UInt32.toNat_toUInt8] at hvalue
  have hlow : 48 ≤ c.val.toNat := hdigit.1
  have hhigh : c.val.toNat ≤ 57 := hdigit.2
  have hten : (0x0a : UInt8).toNat = 10 := rfl
  omega

theorem oneLine_sslFailure (failure : SslFailure) {action : String} (h : OneLine action) :
    (failure.toFault action).OneLine := by
  cases failure with
  | reports error =>
      refine OneLine.append (.append (.append (.append h (by decide)) (oneLine_toString _)) (by decide)) ?_
      exact oneLine_toString _
  | raisesSigpipe => trivial

/-- A procedure that throws only such exceptions, in any state. -/
abbrev RaisesOneLine {σ α : Type} (x : EStateM StdException σ α) : Prop :=
  EStateM.Respects (fun _ => True) (fun _ => True) StdException.OneLine x

/-- A procedure on a connection whose exceptions are such. -/
abbrev FaultsOneLine {σ α : Type} (x : EStateM Fault σ α) : Prop :=
  EStateM.Respects (fun _ => True) (fun _ => True) Fault.OneLine x

section Texts

variable {σ α β : Type}

theorem throwsOneLine_ok (a : α) : ThrowsOneLine (.ok a) := trivial

theorem throwsOneLine_asmError {text : String} (h : OneLine text) :
    ThrowsOneLine (.error (.asmError text) : Except StdException α) := h

theorem throwsOneLine_bind {x : Except StdException α} {f : α → Except StdException β}
    (h : ThrowsOneLine x) (hf : ∀ a, ThrowsOneLine (f a)) : ThrowsOneLine (x >>= f) :=
  h.bind fun a _ => hf a

theorem raisesOneLine_liftExcept {x : Except StdException α} (h : ThrowsOneLine x) :
    RaisesOneLine (EStateM.liftExcept x : EStateM StdException σ α) :=
  EStateM.respects_liftExcept h

theorem raisesOneLine_bind {x : EStateM StdException σ α} {f : α → EStateM StdException σ β}
    (h : RaisesOneLine x) (hf : ∀ a, RaisesOneLine (f a)) : RaisesOneLine (x >>= f) :=
  EStateM.respects_bind h fun a _ => hf a

end Texts

/-! ## Frames -/

theorem throwsOneLine_decodeBeU32 (bytes : List UInt8) (offset : ℕ) :
    ThrowsOneLine (decodeBeU32 bytes offset) := by
  unfold decodeBeU32
  split
  · exact throwsOneLine_asmError (by decide)
  · exact throwsOneLine_ok _

theorem throwsOneLine_ulFor (command : Command) (response : Bool) :
    ThrowsOneLine (Codec.ulFor command response) := by
  refine throwsOneLine_bind ?_ fun entry => throwsOneLine_ok _
  unfold lookupEntry
  split
  · exact throwsOneLine_ok _
  · exact throwsOneLine_asmError (by decide)

theorem throwsOneLine_klvDecode (bytes : List UInt8) : ThrowsOneLine (Klv.decode bytes) := by
  unfold Klv.decode
  split
  · exact throwsOneLine_asmError (by decide)
  · refine throwsOneLine_bind ?_ fun decoded => ?_
    · unfold Klv.decodeBerLength
      split
      · exact throwsOneLine_asmError (by decide)
      · split
        · exact throwsOneLine_asmError (by decide)
        · exact throwsOneLine_ok _
    · obtain ⟨length, consumed⟩ := decoded
      exact Except.respects_ite (fun _ => throwsOneLine_asmError (by decide))
        fun _ => throwsOneLine_ok _

theorem throwsOneLine_klvEncode (packet : KlvPacket) : ThrowsOneLine (Klv.encode packet) := by
  unfold Klv.encode
  split
  · exact throwsOneLine_asmError (by decide)
  · refine throwsOneLine_bind ?_ fun encodedLength => throwsOneLine_ok _
    unfold Klv.encodeBerLength
    split
    · exact throwsOneLine_asmError (by decide)
    · exact throwsOneLine_ok _

theorem throwsOneLine_decodeRequest (packet : KlvPacket) :
    ThrowsOneLine (Codec.decodeRequest packet) := by
  refine throwsOneLine_bind ?_ fun descriptor => ?_
  · unfold Codec.describeUl
    split
    · exact throwsOneLine_ok _
    · exact throwsOneLine_asmError (by decide)
  · split
    · exact throwsOneLine_asmError (by decide)
    · split
      · exact throwsOneLine_asmError (by decide)
      · exact throwsOneLine_bind (throwsOneLine_decodeBeU32 _ _) fun requestId => throwsOneLine_ok _

theorem throwsOneLine_encodeResponseFrame (response : StandardResponse) :
    ThrowsOneLine (encodeResponseFrame response) := by
  refine throwsOneLine_bind ?_ throwsOneLine_klvEncode
  refine throwsOneLine_bind (throwsOneLine_ulFor _ _) fun ul => ?_
  refine throwsOneLine_bind ?_ fun head => throwsOneLine_ok _
  unfold Codec.encodeResponseId
  split
  · split
    · exact throwsOneLine_asmError (by decide)
    · exact throwsOneLine_ok _
  · exact throwsOneLine_ok _

/-! ## Payloads -/

theorem throwsOneLine_decodeIdPayload {tooLong : String} (h : OneLine tooLong) (bytes : List UInt8) :
    ThrowsOneLine (decodeIdPayload tooLong bytes) := by
  unfold decodeIdPayload
  split
  · exact throwsOneLine_asmError h
  · exact throwsOneLine_decodeBeU32 _ _

theorem throwsOneLine_eventListRequest (bytes : List UInt8) :
    ThrowsOneLine (GetEventListPayloadCodec.decodeRequest bytes) := by
  unfold GetEventListPayloadCodec.decodeRequest
  split
  · exact throwsOneLine_asmError (by decide)
  · refine throwsOneLine_bind (throwsOneLine_decodeBeU32 _ _) fun timeStart => ?_
    exact throwsOneLine_bind (throwsOneLine_decodeBeU32 _ _) fun timeStop => throwsOneLine_ok _

theorem throwsOneLine_loadRequest (bytes : List UInt8) :
    ThrowsOneLine (LeKeyPayloadCodec.decodeLoadRequest bytes) := by
  cases h : LeKeyPayloadCodec.decodeLoadRequest bytes with
  | ok keys => exact throwsOneLine_ok _
  | error ex =>
      have hmem := decodeBatch_error recordItem 32 rfl h
      simp only [List.mem_cons, List.not_mem_nil, or_false] at hmem
      rcases hmem with rfl | rfl | rfl
      · exact throwsOneLine_asmError (by decide)
      · exact throwsOneLine_asmError (by decide)
      · exact throwsOneLine_asmError (by decide)

/-! ## The service -/

/-- The event log and the key store throw only texts of one line. -/
structure AsmService.ThrowsOneLine {σ : Type} (service : AsmService σ) : Prop where
  listEventIds : ∀ timeStart timeStop,
    AsmProto.ThrowsOneLine (service.eventLogStore.listEventIds timeStart timeStop)
  getEventXml : ∀ eventId, AsmProto.ThrowsOneLine (service.eventLogStore.getEventXml eventId)
  calls : ∀ call, RaisesOneLine (service.leKeyStore.call call)

theorem throwsOneLine_inMemory (events : List EventRecord)
    (spbStatusProvider : QuerySpbStatusProvider) :
    (AsmService.inMemory (.ofEvents events) spbStatusProvider).ThrowsOneLine where
  listEventIds _ _ := throwsOneLine_ok _
  getEventXml _ := throwsOneLine_ok _
  calls call store _ := by
    have hrun := InMemoryLeKeyStore.run_call call store
    show EStateM.Result.Respects _ _ _ ((InMemoryLeKeyStore.toStore.call call).run store)
    rw [hrun]
    exact ⟨trivial, trivial⟩

theorem throwsOneLine_persistent (events : List EventRecord)
    (spbStatusProvider : QuerySpbStatusProvider) (outcome : OfstreamOutcome) :
    (AsmService.persistent (.ofEvents events) spbStatusProvider outcome).ThrowsOneLine where
  listEventIds _ _ := throwsOneLine_ok _
  getEventXml _ := throwsOneLine_ok _
  calls call store _ := by
    show EStateM.Result.Respects _ _ _ (((JsonlLeKeyStore.toStore outcome).call call).run store)
    rcases JsonlLeKeyStore.run_call_cases outcome store call with ⟨store', hrun, -⟩ | ⟨-, hrun⟩
    · rw [hrun]
      exact ⟨trivial, trivial⟩
    · rw [hrun]
      exact ⟨trivial, throwsOneLine_asmError (α := Unit) (by decide)⟩

def ServiceResult.OneLine (result : ServiceResult) : Prop := AsmProto.OneLine result.note

/-- A plan that answers at once has a note of one line. -/
def AsmService.Plan.OneLine : AsmService.Plan → Prop
  | .reply result => result.OneLine
  | .ask _ _ => True

section Service

variable {σ : Type} {service : AsmService σ}

theorem respects_plan (h : service.ThrowsOneLine) (now : UInt64) (request : StandardRequest)
    (rawRequest : List UInt8) :
    (service.plan now request rawRequest).Respects AsmService.Plan.OneLine StdException.OneLine := by
  unfold AsmService.plan
  refine Except.respects_ite (fun _ => (by decide : OneLine "request id must be non-zero")) fun _ => ?_
  cases request.command with
  | getTime => exact (by decide : OneLine "GetTime handled")
  | getEventList =>
      have hreply : ∀ result : ServiceResult, result.OneLine → Except.Respects AsmService.Plan.OneLine
          StdException.OneLine (.ok (.reply result)) := fun _ hnote => hnote
      refine Except.Respects.bind ?_ hreply
      refine (throwsOneLine_eventListRequest _).bind fun payload _ => ?_
      refine Except.respects_ite (fun _ => ?_) fun _ => ?_
      · exact (by decide : OneLine "GetEventList rejected because time_start > time_stop")
      · exact (h.listEventIds _ _).bind fun _ _ => (by decide : OneLine "GetEventList handled")
  | getEventId =>
      have hreply : ∀ result : ServiceResult, result.OneLine → Except.Respects AsmService.Plan.OneLine
          StdException.OneLine (.ok (.reply result)) := fun _ hnote => hnote
      refine Except.Respects.bind ?_ hreply
      refine (throwsOneLine_decodeIdPayload (by decide) _).bind fun eventId _ => ?_
      refine (h.getEventXml eventId).bind fun xml _ => ?_
      cases xml with
      | none => exact (by decide : OneLine "GetEventID rejected because event id was not found")
      | some xml => exact (by decide : OneLine "GetEventID handled")
  | querySpb =>
      unfold AsmService.handleQuerySpb
      by_cases hpayload : request.payload ≠ []
      · rw [if_pos hpayload]
        exact (by decide : OneLine "QuerySPB rejected because payload was not empty")
      · rw [if_neg hpayload]
        exact (by decide : OneLine "QuerySPB handled")
  | leKeyLoad => exact (throwsOneLine_loadRequest _).bind fun _ _ => trivial
  | leKeyQueryId => exact (throwsOneLine_decodeIdPayload (by decide) _).bind fun _ _ => trivial
  | leKeyQueryAll =>
      refine Except.respects_ite (fun _ => ?_) fun _ => trivial
      exact (by decide : OneLine "LEKeyQueryAll rejected because payload was not empty")
  | leKeyPurgeId => exact (throwsOneLine_decodeIdPayload (by decide) _).bind fun _ _ => trivial
  | leKeyPurgeAll =>
      refine Except.respects_ite (fun _ => ?_) fun _ => trivial
      exact (by decide : OneLine "LEKeyPurgeAll rejected because payload was not empty")
  | badRequest => exact (by decide : OneLine "unsupported request command")

theorem oneLine_keyReply (request : StandardRequest) (call : StoreCall) (answer : StoreAnswer) :
    (AsmService.keyReply request call answer).OneLine := by
  unfold ServiceResult.OneLine
  cases call with
  | loadKeys keys =>
      simp only [AsmService.keyReply, answerTo]
      split
      · decide
      · decide
  | containsKey keyId => exact (by decide : OneLine "LEKeyQueryID handled")
  | listKeyIds => exact (by decide : OneLine "LEKeyQueryAll handled")
  | purgeKey keyId =>
      simp only [AsmService.keyReply, answerTo]
      split
      · decide
      · decide
  | purgeAll => exact (by decide : OneLine "LEKeyPurgeAll handled")

/-- **The notes and exceptions of the service have one line**, for any request. -/
theorem respects_handleRequest (h : service.ThrowsOneLine) (now : UInt64) (request : StandardRequest)
    (rawRequest : List UInt8) :
    EStateM.Respects (fun _ => True) ServiceResult.OneLine StdException.OneLine
      (service.handleRequest now request rawRequest) := by
  intro store hstore
  have hplan := respects_plan h now request rawRequest
  rw [AsmService.run_handleRequest]
  generalize service.plan now request rawRequest = plan at hplan ⊢
  cases plan with
  | error ex => exact ⟨trivial, hplan⟩
  | ok plan =>
      cases plan with
      | reply result => exact ⟨trivial, hplan⟩
      | ask request call =>
          exact EStateM.respects_bind (h.calls call)
            (fun answer _ => EStateM.respects_pure (oneLine_keyReply request call answer)) store hstore

end Service

/-! ## The connection -/

theorem faultsOneLine_sslRead (capacity : ℕ) : FaultsOneLine (sslRead capacity) := by
  intro stream _
  simp only [sslRead, EStateM.run_bind, EStateM.run_get]
  cases stream.incoming with
  | nil => exact ⟨trivial, oneLine_sslFailure _ (by decide)⟩
  | cons first rest =>
      cases first with
      | error failure => exact ⟨trivial, oneLine_sslFailure _ (by decide)⟩
      | ok record =>
          by_cases hempty : record = []
          · simp only [EStateM.run_bind, EStateM.run_set, if_pos hempty]
            exact ⟨trivial, oneLine_sslFailure _ (by decide)⟩
          · simp only [EStateM.run_bind, EStateM.run_set, if_neg hempty]
            exact ⟨trivial, trivial⟩

theorem faultsOneLine_sslWrite (bytes : ByteBuffer) : FaultsOneLine (sslWrite bytes) := by
  intro stream _
  simp only [sslWrite, EStateM.run_bind, EStateM.run_get]
  cases stream.outcomes.headD (.accepts bytes.length) with
  | fails failure =>
      simp only [EStateM.run_bind, EStateM.run_set]
      exact ⟨trivial, oneLine_sslFailure _ (by decide)⟩
  | accepts count =>
      simp only [EStateM.run_bind, EStateM.run_set]
      split
      · exact ⟨trivial, trivial⟩
      · exact ⟨trivial, oneLine_sslFailure _ (by decide)⟩

theorem faultsOneLine_writeAll (bytes : ByteBuffer) : FaultsOneLine (writeAll bytes) := by
  induction hn : bytes.length using Nat.strong_induction_on generalizing bytes with
  | _ n ih =>
      rw [writeAll]
      by_cases hne : bytes = []
      · rw [if_pos hne]
        exact EStateM.respects_pure trivial
      · rw [if_neg hne]
        refine EStateM.respects_bind (faultsOneLine_sslWrite bytes) fun rc _ => ih _ ?_ _ rfl
        have hpos := rc.property
        have hlen : 0 < bytes.length := List.length_pos_iff.2 hne
        rw [List.length_drop]
        omega

/-! ## Sessions -/

/-- A handshake that throws only such exceptions, if it fails. -/
abbrev FailsOneLine {α : Type} (x : Except Fault α) : Prop :=
  x.Respects (fun _ => True) Fault.OneLine

section Faults

variable {σ α β : Type} {I : σ → Prop} {Q : α → Prop}

theorem failsOneLine_bind {x : Except Fault α} {f : α → Except Fault β} (h : FailsOneLine x)
    (hf : ∀ a, FailsOneLine (f a)) : FailsOneLine (x >>= f) :=
  h.bind fun a _ => hf a

theorem failsOneLine_mapError {x : Except StdException α} (h : ThrowsOneLine x) :
    FailsOneLine (x.mapError .exception) := by
  cases x with
  | ok a => trivial
  | error ex => exact h

theorem respects_throwing {x : Except StdException α} (h : ThrowsOneLine x) :
    EStateM.Respects I (fun _ => True) Fault.OneLine (throwing x : EStateM Fault σ α) :=
  EStateM.respects_liftExcept (failsOneLine_mapError h)

theorem respects_catchException {x : EStateM Fault σ α} {handler : StdException → EStateM Fault σ α}
    (h : EStateM.Respects I Q Fault.OneLine x)
    (hhandler : ∀ ex, ex.OneLine → EStateM.Respects I Q Fault.OneLine (handler ex)) :
    EStateM.Respects I Q Fault.OneLine (catchException x handler) := by
  refine EStateM.respects_tryCatch h fun fault hfault => ?_
  cases fault with
  | exception ex => exact hhandler ex hfault
  | sigpipe => exact EStateM.respects_throw trivial

end Faults

/-- A trace that prints as one line, and whose thumbprint has digits only. -/
structure SessionTrace.Printable (trace : SessionTrace) : Prop where
  peerThumbprint : ∀ c ∈ trace.peerThumbprint, ∃ d < 16, c = Numeral.digitChar d
  note : OneLine trace.note

structure Session.Printable {σ : Type} (session : Session σ) : Prop where
  trace : session.trace.Printable
  observed : ∀ trace ∈ session.observed, trace.Printable

def Responder.Printable {σ : Type} (responder : Responder σ) : Prop :=
  ∀ trace ∈ responder.observed, trace.Printable

theorem printable_note {ex : StdException} (h : ex.OneLine) :
    SessionTrace.Printable { note := ex.what } where
  peerThumbprint _ hc := absurd hc List.not_mem_nil
  note := h

namespace TlsServer

variable {σ : Type} {service : AsmService σ}

/-- A procedure on the connection leaves the traces alone. -/
theorem respects_onStream {α : Type} {x : EStateM Fault TlsStream α}
    (h : FaultsOneLine x) :
    EStateM.Respects Session.Printable (fun _ => True) Fault.OneLine
      (onStream x : EStateM Fault (Session σ) α) :=
  EStateM.respects_zoom (fun _ _ => trivial) (fun _ _ hs _ => ⟨hs.trace, hs.observed⟩) h

theorem respects_setNote {status : GeneralResponse} {note : String} (h : OneLine note) :
    EStateM.Respects Session.Printable (fun _ => True) Fault.OneLine
      (setTrace fun trace => { trace with status := status, note := note } :
        EStateM Fault (Session σ) Unit) :=
  EStateM.respects_modify fun _ hs => ⟨⟨hs.trace.peerThumbprint, h⟩, hs.observed⟩

theorem respects_logCall (call : ServiceCall) :
    EStateM.Respects Session.Printable (fun _ => True) Fault.OneLine
      (logCall call : EStateM Fault (Session σ) Unit) :=
  EStateM.respects_modify fun _ hs => ⟨hs.trace, hs.observed⟩

theorem respects_respond (h : service.ThrowsOneLine) (now : UInt64) (peer : PeerIdentity)
    (requestBytes : ByteBuffer) :
    EStateM.Respects Session.Printable (fun _ => True) Fault.OneLine
      (respond service now peer requestBytes) := by
  unfold respond
  refine EStateM.respects_bind (respects_throwing (throwsOneLine_klvDecode _)) fun packet _ => ?_
  refine EStateM.respects_bind (respects_throwing (throwsOneLine_decodeRequest _))
    fun request _ => ?_
  refine EStateM.respects_bind (EStateM.respects_modify fun _ hs =>
    ⟨⟨hs.trace.peerThumbprint, hs.trace.note⟩, hs.observed⟩) fun _ _ => ?_
  refine EStateM.respects_bind (respects_logCall _) fun _ _ => ?_
  refine EStateM.respects_bind (EStateM.respects_zoom (fun _ _ => trivial)
    (fun _ _ hs _ => ⟨hs.trace, hs.observed⟩) (EStateM.respects_adaptExcept (fun _ hex => hex)
      (respects_handleRequest h now request requestBytes))) fun result hresult => ?_
  refine EStateM.respects_bind (respects_setNote hresult) fun _ _ => ?_
  refine EStateM.respects_bind (respects_throwing (throwsOneLine_encodeResponseFrame _))
    fun response _ => ?_
  exact respects_onStream (faultsOneLine_writeAll response)

theorem respects_respondFailure (requestBytes : ByteBuffer) {ex : StdException} (h : ex.OneLine) :
    EStateM.Respects Session.Printable (fun _ => True) Fault.OneLine
      (respondFailure requestBytes ex : EStateM Fault (Session σ) Unit) := by
  unfold respondFailure
  refine EStateM.respects_bind (respects_logCall _) fun _ _ => ?_
  refine EStateM.respects_bind (respects_setNote h) fun _ _ => ?_
  refine EStateM.respects_bind (respects_throwing (throwsOneLine_encodeResponseFrame _))
    fun response _ => ?_
  exact respects_onStream (faultsOneLine_writeAll response)

/-- **A session gives the observer traces of one line**, if its handshake throws such texts. -/
theorem respects_serveClient (h : service.ThrowsOneLine) {handshake : Except Fault Certificate}
    (hhandshake : FailsOneLine handshake) (now : UInt64) :
    EStateM.Respects Session.Printable (fun _ => True) Fault.OneLine
      (serveClient service (handshake.map readPeerIdentity) now true) := by
  unfold serveClient
  refine EStateM.respects_bind (Q := fun peer =>
    ∀ c ∈ peer.sha256Thumbprint, ∃ d < 16, c = Numeral.digitChar d) ?_ fun peer hpeer => ?_
  · refine EStateM.respects_liftExcept ?_
    cases handshake with
    | error ex => exact hhandshake
    | ok certificate => exact fun c hc => isDigit_of_mem_bytesToHex hc
  refine EStateM.respects_bind (EStateM.respects_modify fun _ hs =>
    ⟨⟨hpeer, (by decide : OneLine "")⟩, hs.observed⟩) fun _ _ => ?_
  refine EStateM.respects_bind (respects_onStream (faultsOneLine_sslRead 4096)) fun requestBytes _ => ?_
  refine EStateM.respects_bind (respects_catchException (respects_respond h now peer requestBytes)
    fun ex hex => respects_respondFailure requestBytes hex) fun _ _ => ?_
  refine EStateM.respects_modify fun session hs => ⟨hs.trace, fun trace htrace => ?_⟩
  rcases List.mem_append.1 htrace with hold | hnew
  · exact hs.observed trace hold
  · rw [List.mem_singleton.1 hnew]
    exact hs.trace

theorem respects_handleClient (h : service.ThrowsOneLine) {connection : Connection}
    (hhandshake : FailsOneLine connection.handshake) :
    EStateM.Respects Responder.Printable (fun _ => True) Fault.OneLine
      (handleClient service true connection) := by
  unfold handleClient
  refine respects_catchException (EStateM.respects_zoom
    (fun responder hr => ⟨⟨fun _ hc => absurd hc List.not_mem_nil, (by decide : OneLine "")⟩, hr⟩)
    (fun _ _ _ hs => hs.observed) (respects_serveClient h hhandshake connection.receivedAt))
    fun ex hex => ?_
  refine EStateM.respects_modify fun responder hr trace htrace => ?_
  rcases List.mem_append.1 htrace with hold | hnew
  · exact hr trace hold
  · rw [List.mem_singleton.1 hnew]
    exact printable_note hex

/-- **Whatever the connections of a run send**, every trace is printable. -/
theorem printable_sessions (h : service.ThrowsOneLine) {connections : List Connection}
    (hhandshakes : ∀ connection ∈ connections, FailsOneLine connection.handshake)
    {responder : Responder σ} (hresponder : responder.Printable) :
    ((sessions service true).after responder connections).Printable :=
  Machine.invariant_after (P := Responder.Printable) (fun responder connection hconnection hr =>
    (respects_handleClient h (hhandshakes connection hconnection) responder hr).state) hresponder

end TlsServer

/-! ## Handshakes -/

theorem throwsOneLine_validate (certificate : Option X509) :
    ThrowsOneLine (CertificateUtils.validateCertificateProfile certificate) := by
  unfold CertificateUtils.validateCertificateProfile
  split
  · exact throwsOneLine_asmError (by decide)
  · split
    · exact throwsOneLine_asmError (by decide)
    · exact throwsOneLine_asmError (by decide)
    · exact throwsOneLine_asmError (by decide)
    · split
      · split
        · exact throwsOneLine_asmError (by decide)
        · split
          · exact throwsOneLine_asmError (by decide)
          · exact throwsOneLine_ok _
      · exact throwsOneLine_asmError (by decide)

theorem throwsOneLine_nameToString (name : X509Name) :
    ThrowsOneLine (CertificateUtils.nameToString name) := by
  cases name with
  | missing => exact throwsOneLine_ok _
  | withoutBio => exact throwsOneLine_asmError (by decide)
  | unprintable => exact throwsOneLine_asmError (by decide)
  | withoutBuffer => exact throwsOneLine_ok _
  | printed text => exact throwsOneLine_ok _

theorem throwsOneLine_readCertificate (certificate : Option X509) :
    ThrowsOneLine (CertificateUtils.readCertificate certificate) := by
  cases certificate with
  | none => exact throwsOneLine_asmError (by decide)
  | some x509 =>
      refine throwsOneLine_bind ?_ fun digest => ?_
      · unfold CertificateUtils.sha256
        cases x509.digest with
        | none => exact throwsOneLine_asmError (by decide)
        | some digest => exact throwsOneLine_ok _
      · refine throwsOneLine_bind (throwsOneLine_nameToString _) fun subject => ?_
        exact throwsOneLine_bind (throwsOneLine_nameToString _) fun issuer => throwsOneLine_ok _

theorem raisesOneLine_expect {result : Bool} {message : String} {effect : SslCtx → SslCtx}
    (h : OneLine message) : RaisesOneLine (TlsProfile.expect result message effect) := by
  unfold TlsProfile.expect
  cases result with
  | false => exact EStateM.respects_throw h
  | true => exact EStateM.respects_modify fun _ _ => trivial

theorem raisesOneLine_apply (openSsl : OpenSsl) (config : TlsConfig) (serverMode : Bool) :
    RaisesOneLine (TlsProfile.apply openSsl config serverMode) := by
  have hmodify : ∀ f : SslCtx → SslCtx, RaisesOneLine (modify f : EStateM StdException SslCtx Unit) :=
    fun f => EStateM.respects_modify fun _ _ => trivial
  unfold TlsProfile.apply
  refine raisesOneLine_bind (raisesOneLine_liftExcept ?_) fun _ => ?_
  · unfold CertificateUtils.validateCertificateProfileFromFile
    split
    · exact throwsOneLine_asmError (by decide)
    · exact throwsOneLine_asmError (by decide)
    · exact throwsOneLine_validate _
  refine raisesOneLine_bind (raisesOneLine_expect (by decide)) fun _ => ?_
  refine raisesOneLine_bind ?_ fun _ => ?_
  · unfold TlsProfile.pinVersion
    split
    · exact raisesOneLine_bind (raisesOneLine_expect (by decide)) fun _ =>
        raisesOneLine_expect (by decide)
    · exact EStateM.respects_pure trivial
  refine raisesOneLine_bind (hmodify _) fun _ => ?_
  refine raisesOneLine_bind ?_ fun _ => ?_
  · unfold TlsProfile.loadCredentials
    split
    · exact EStateM.respects_pure trivial
    · split
      · exact EStateM.respects_throw
          (by decide : OneLine "certificate and private key must be provided together")
      · refine raisesOneLine_bind (raisesOneLine_expect (by decide)) fun _ => ?_
        refine raisesOneLine_bind (raisesOneLine_expect (by decide)) fun _ => ?_
        exact raisesOneLine_bind (fun _ _ => ⟨trivial, trivial⟩) fun _ =>
          raisesOneLine_expect (by decide)
  exact raisesOneLine_bind (raisesOneLine_expect (by decide)) fun _ => hmodify _

/-- **Whatever OpenSSL makes of a client**, a failed handshake has a text of one line. -/
theorem failsOneLine_handshake (config : TlsConfig) (client : Client) :
    FailsOneLine (TlsServer.handshake config client) := by
  unfold TlsServer.handshake
  refine failsOneLine_bind (failsOneLine_mapError ?_) fun ctx => ?_
  · unfold TlsContextFactory.createServer TlsContextFactory.createCtx
    split
    · have happly := raisesOneLine_apply client.openSsl config true {} trivial
      generalize (TlsProfile.apply client.openSsl config true).run {} = result at happly ⊢
      cases result with
      | ok _ ctx => exact throwsOneLine_ok _
      | error ex ctx => exact happly.2
    · exact throwsOneLine_asmError (by decide)
  · split
    · refine failsOneLine_bind ?_ fun peerCert => ?_
      · unfold sslExpectPositive
        cases client.sslAccept ctx with
        | ok peerCert => trivial
        | error failure => exact oneLine_sslFailure failure (by decide)
      · exact failsOneLine_bind (failsOneLine_mapError (throwsOneLine_validate _)) fun _ =>
          failsOneLine_mapError (throwsOneLine_readCertificate _)
    · exact throwsOneLine_asmError (α := Certificate) (by decide)

end AsmProto
