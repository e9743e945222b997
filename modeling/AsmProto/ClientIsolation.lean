import AsmProto.AuditTrace
import AsmProto.KeyMachine
import AsmProto.Lib.KeyedView

set_option autoImplicit false

/-! # Clients with keys of their own

Several clients share a responder; the order in which their sessions are accepted is arbitrary. When
each names key ids of its own only, and no load is refused for want of room, none can tell that the
others are there: it gets the answers, and finds the records, that a store of its own would give it. -/

namespace AsmProto

/-- The call names ids of `own` only. The calls for all keys name every id. -/
def StoreCall.NamesOnly (own : UInt32 → Bool) : StoreCall → Prop
  | .loadKeys keys => ∀ key ∈ keys, own key.keyId = true
  | .containsKey keyId => own keyId = true
  | .listKeyIds => False
  | .purgeKey keyId => own keyId = true
  | .purgeAll => False

/-- The call the message makes of the store, if it makes one, names ids of `own` only. -/
def NamesOnly (own : UInt32 → Bool) (message : ByteBuffer) : Prop :=
  ∀ request call, decodeRequestFrame message = .ok request → request.requestId ≠ 0 →
    AsmService.Asks request call → call.NamesOnly own

/-- A load that was refused with Overflow. -/
def ServiceResult.Overflows (result : ServiceResult) : Prop :=
  result.response.command = .leKeyLoad ∧ result.response.responseCode = .failed

/-- The message of one client among those of all. -/
def messageOf {ι : Type} [DecidableEq ι] (client : ι) (sent : ι × ReceivedMessage) :
    Option ReceivedMessage :=
  if sent.1 = client then some sent.2 else none

/-! ## One call -/

section Call

variable {own : UInt32 → Bool} {call : StoreCall} {keys : List LeKeyRecord}

/-- The keys of a client. -/
abbrev ownKeys (own : UInt32 → Bool) (keys : List LeKeyRecord) : List LeKeyRecord :=
  KeyedList.view LeKeyRecord.keyId own keys

/-- A batch that fits next to the keys of the others fits without them. -/
theorem not_wouldOverflow_ownKeys {incoming : List LeKeyRecord}
    (hown : ∀ key ∈ incoming, own key.keyId = true)
    (h : ¬ wouldOverflow incoming keys kCapacity = true) :
    ¬ wouldOverflow incoming (ownKeys own keys) kCapacity = true := by
  rw [wouldOverflow_iff, Nat.not_lt] at h ⊢
  refine le_trans (Nat.add_le_add (KeyedList.length_view_le _ _ _) (le_of_eq ?_)) h
  refine List.countP_congr fun key hkey => ?_
  rw [decide_eq_true_iff, decide_eq_true_iff, KeyedList.mem_map_key_view]
  simp [hown key hkey]

/-- **A call on own ids** is answered from the own keys alone, and does to them what it would do to
    them alone. -/
theorem StoreCall.on_ownKeys (hown : call.NamesOnly own)
    (hfits : ∀ incoming, call = .loadKeys incoming → ¬ wouldOverflow incoming keys kCapacity = true) :
    call.answer keys = call.answer (ownKeys own keys) ∧
      ownKeys own (call.after keys) = call.after (ownKeys own keys) := by
  have hmem : ∀ keyId, own keyId = true →
      (keyId ∈ keys.map LeKeyRecord.keyId ↔ keyId ∈ (ownKeys own keys).map LeKeyRecord.keyId) := by
    intro keyId h
    rw [KeyedList.mem_map_key_view]
    simp [h]
  cases call with
  | loadKeys incoming =>
      have hshared := hfits incoming rfl
      have halone := not_wouldOverflow_ownKeys hown hshared
      refine ⟨?_, ?_⟩
      · rw [answer, answer, Bool.eq_false_iff.2 hshared, Bool.eq_false_iff.2 halone]
      · rw [after, after, if_neg hshared, if_neg halone]
        exact KeyedList.view_upsertAll_of_visible _ _ hown _
  | containsKey keyId =>
      refine ⟨?_, rfl⟩
      rw [answer, answer, decide_eq_decide.2 (hmem keyId hown)]
  | listKeyIds => exact absurd hown id
  | purgeKey keyId =>
      refine ⟨?_, KeyedList.view_eraseKey _ _ _ _⟩
      rw [answer, answer, decide_eq_decide.2 (hmem keyId hown)]
  | purgeAll => exact absurd hown id

/-- **A call on the ids of another client** leaves the own keys alone. -/
theorem StoreCall.after_of_foreign {other : UInt32 → Bool} (hother : call.NamesOnly other)
    (hdisjoint : ∀ keyId, other keyId = true → own keyId = false) :
    ownKeys own (call.after keys) = ownKeys own keys := by
  cases call with
  | loadKeys incoming =>
      rw [after]
      split
      · rfl
      · exact KeyedList.view_upsertAll_of_hidden _ _
          (fun key hkey => hdisjoint key.keyId (hother key hkey)) _
  | containsKey keyId => rfl
  | listKeyIds => rfl
  | purgeKey keyId => exact KeyedList.view_eraseKey_of_hidden _ _ (hdisjoint keyId hother) _
  | purgeAll => exact absurd hother id

end Call

/-! ## A whole run -/

section Run

variable {σ : Type} {ι : Type} [DecidableEq ι]

/-- The responder that serves the messages of all clients in the order they come in. -/
def AsmService.shared (service : AsmService σ) (ι : Type) :
    Machine (ι × ReceivedMessage) ServiceResult σ :=
  service.machine.comap Prod.snd

/-- A client that keeps to its own ids, and a message that is not refused for want of room. -/
def KeepsApart (own : ι → UInt32 → Bool) (sent : ι × ReceivedMessage) (result : ServiceResult) : Prop :=
  NamesOnly (own sent.1) sent.2.2 ∧ ¬ result.Overflows

/-- A load that is answered without Overflow fitted. -/
theorem not_wouldOverflow_of_not_overflows {request : StandardRequest} {call : StoreCall}
    {keys : List LeKeyRecord}
    (h : ¬ (AsmService.keyReply request call (call.answer keys)).Overflows)
    (incoming : List LeKeyRecord) (hcall : call = .loadKeys incoming) :
    ¬ wouldOverflow incoming keys kCapacity = true := by
  subst hcall
  intro hoverflow
  refine h ⟨rfl, ?_⟩
  rw [AsmService.keyReply, StoreCall.answer, hoverflow]
  rfl

/-- **A message on own ids** that is not refused is answered from the own keys alone. -/
theorem AsmService.keyMachine_step_ownKeys {service : AsmService σ} {own : UInt32 → Bool}
    {received : ReceivedMessage} {keys : List LeKeyRecord} (hnames : NamesOnly own received.2)
    (hroom : ¬ (service.keyMachine.step keys received).1.Overflows) :
    (service.keyMachine.step keys received).1
        = (service.keyMachine.step (ownKeys own keys) received).1 ∧
      ownKeys own (service.keyMachine.step keys received).2
        = (service.keyMachine.step (ownKeys own keys) received).2 := by
  cases hreceived : service.received received.1 received.2 with
  | reply result =>
      rw [keyMachine_step_of_reply hreceived, keyMachine_step_of_reply hreceived]
      exact ⟨rfl, rfl⟩
  | ask request call =>
      rw [keyMachine_step_of_ask hreceived] at hroom
      obtain ⟨hdecode, hid, hasks⟩ := received_eq_ask_iff.1 hreceived
      obtain ⟨hanswer, hkeep⟩ := StoreCall.on_ownKeys (hnames request call hdecode hid hasks)
        (not_wouldOverflow_of_not_overflows hroom)
      rw [keyMachine_step_of_ask hreceived, keyMachine_step_of_ask hreceived, hanswer]
      exact ⟨rfl, hkeep⟩

/-- **A message on the ids of another client** leaves the own keys alone, refused or not. -/
theorem AsmService.ownKeys_keyMachine_step_of_foreign {service : AsmService σ}
    {own other : UInt32 → Bool} {received : ReceivedMessage} (hnames : NamesOnly other received.2)
    (hdisjoint : ∀ keyId, other keyId = true → own keyId = false) (keys : List LeKeyRecord) :
    ownKeys own (service.keyMachine.step keys received).2 = ownKeys own keys := by
  cases hreceived : service.received received.1 received.2 with
  | reply result => rw [keyMachine_step_of_reply hreceived]
  | ask request call =>
      rw [keyMachine_step_of_ask hreceived]
      obtain ⟨hdecode, hid, hasks⟩ := received_eq_ask_iff.1 hreceived
      exact StoreCall.after_of_foreign (hnames request call hdecode hid hasks) hdisjoint

/-- **The shared responder, seen by one client**, is a responder over the keys of that client. -/
theorem projects_client {service : AsmService σ} {keysOf : σ → List LeKeyRecord}
    (hmeans : service.leKeyStore.Means keysOf) {own : ι → UInt32 → Bool}
    (hdisjoint : ∀ client other keyId, own client keyId = true → own other keyId = true →
      client = other) (client : ι) :
    (service.shared ι).Projects service.keyMachine (messageOf client) id (KeepsApart own)
      (fun store keys => ownKeys (own client) (keysOf store) = keys) where
  visible := by
    intro store keys sent message hproject hkeys hfine
    obtain ⟨sender, received⟩ := sent
    obtain ⟨rfl, rfl⟩ : sender = client ∧ received = message := by
      by_cases hsender : sender = client
      · exact ⟨hsender, Option.some.inj ((if_pos hsender).symm.trans hproject)⟩
      · exact absurd ((if_neg hsender).symm.trans hproject) (by simp)
    obtain ⟨hresult, hafter⟩ := receiveOn_of_means hmeans store received
    obtain ⟨hnames, hroom⟩ := hfine
    change ¬ (service.machine.step store received).1.Overflows at hroom
    show (service.machine.step store received).1 = (service.keyMachine.step keys received).1 ∧
      ownKeys (own sender) (keysOf (service.machine.step store received).2)
        = (service.keyMachine.step keys received).2
    rw [hresult] at hroom ⊢
    rw [hafter, ← hkeys]
    exact AsmService.keyMachine_step_ownKeys hnames hroom
  silent := by
    intro store keys sent hproject hkeys hfine
    obtain ⟨sender, received⟩ := sent
    have hsender : sender ≠ client := fun h => absurd ((if_pos h).symm.trans hproject) (by simp)
    have hforeign : ∀ keyId, own sender keyId = true → own client keyId = false := by
      intro keyId hkeyId
      rw [Bool.eq_false_iff]
      exact fun h => hsender (hdisjoint sender client keyId hkeyId h)
    obtain ⟨-, hafter⟩ := receiveOn_of_means hmeans store received
    show ownKeys (own client) (keysOf (service.machine.step store received).2) = keys
    rw [hafter, ← hkeys]
    exact AsmService.ownKeys_keyMachine_step_of_foreign hfine.1 hforeign _

/-- Every client gets the answers a store in memory of its own would give it, and finds the records
    that store would hold. -/
def Isolated (service : AsmService σ) (keysOf : σ → List LeKeyRecord) (own : ι → UInt32 → Bool)
    (store : σ) (messages : List (ι × ReceivedMessage)) : Prop :=
  ∀ client,
    let alone := AsmService.inMemory service.eventLogStore service.spbStatusProvider
    let start : InMemoryLeKeyStore := { keys := ownKeys (own client) (keysOf store) }
    let mine := messages.filterMap (messageOf client)
    (service.shared ι).viewed (messageOf client) id store messages = alone.machine.answers start mine ∧
    ownKeys (own client) (keysOf ((service.shared ι).after store messages))
      = (alone.machine.after start mine).keys

theorem isolated_of_means {service : AsmService σ} {keysOf : σ → List LeKeyRecord}
    (hmeans : service.leKeyStore.Means keysOf) {own : ι → UInt32 → Bool}
    (hdisjoint : ∀ client other keyId, own client keyId = true → own other keyId = true →
      client = other) {store : σ} {messages : List (ι × ReceivedMessage)}
    (hnames : ∀ sent ∈ messages, NamesOnly (own sent.1) sent.2.2)
    (hroom : ∀ step ∈ (service.shared ι).log store messages, ¬ step.2.Overflows) :
    Isolated service keysOf own store messages := by
  intro client alone start mine
  have hfine : ∀ step ∈ (service.shared ι).log store messages, KeepsApart own step.1 step.2 :=
    fun step hstep => ⟨hnames step.1 (Machine.mem_of_mem_log hstep), hroom step hstep⟩
  obtain ⟨hviewed, hkeys⟩ := (projects_client hmeans hdisjoint client).run rfl hfine
  obtain ⟨halone, hend⟩ := @answers_of_means _ alone InMemoryLeKeyStore.keys InMemoryLeKeyStore.means
    start mine
  exact ⟨hviewed.trans halone.symm, hkeys.trans hend.symm⟩

end Run

/-- **Clients that keep to ids of their own do not notice each other.** Over both stores, the second
    with files that work: when no two clients own an id in common, each message names ids of its sender
    only and no load is answered with Overflow, then in whatever order the messages come in, every
    client gets the results that a fresh responder with its keys alone would give to its messages, and
    its records end up as they would there, in the same order. -/
theorem clients_are_isolated {ι : Type} [DecidableEq ι] (eventLogStore : EventLogStore)
    (spbStatusProvider : QuerySpbStatusProvider) (own : ι → UInt32 → Bool)
    (messages : List (ι × ReceivedMessage))
    (hdisjoint : ∀ client other keyId, own client keyId = true → own other keyId = true →
      client = other)
    (hnames : ∀ sent ∈ messages, NamesOnly (own sent.1) sent.2.2) :
    (∀ self, let service := AsmService.inMemory eventLogStore spbStatusProvider
      (∀ step ∈ (service.shared ι).log self messages, ¬ step.2.Overflows) →
        Isolated service InMemoryLeKeyStore.keys own self messages) ∧
    ∀ self, let service := AsmService.persistent eventLogStore spbStatusProvider .writesAll
      (∀ step ∈ (service.shared ι).log self messages, ¬ step.2.Overflows) →
        Isolated service JsonlLeKeyStore.keys own self messages :=
  ⟨fun _ hroom => isolated_of_means InMemoryLeKeyStore.means hdisjoint hnames hroom,
    fun _ hroom => isolated_of_means JsonlLeKeyStore.means hdisjoint hnames hroom⟩

/-- The frame of a load or a query of one id. -/
def keyFrame (command : Command) (payload : ByteBuffer) : ByteBuffer :=
  frameBytes (if command = .leKeyLoad then makeUl 0x03 0x20 else makeUl 0x03 0x22)
    (requestValue { command := command, requestId := 1, payload := payload })

def otherKeyLoad : ByteBuffer := keyFrame .leKeyLoad (LeKeyPayloadCodec.encodeLoadRequest [blankKey 8])

def otherQuery : ByteBuffer := keyFrame .leKeyQueryId (u32Bytes 8)

/-- The owners of id 8 and of id 7 load them, and the first asks for its own. -/
def twoClients : List (Bool × ReceivedMessage) :=
  [(false, 0, otherKeyLoad), (true, 0, TlsServer.oneKeyFrame), (false, 1, otherQuery)]

def ownId (client : Bool) (keyId : UInt32) : Bool := keyId = if client then 7 else 8

theorem clients_are_isolated_two :
    Isolated (AsmService.ofEvents []) InMemoryLeKeyStore.keys ownId { keys := [blankKey 7] }
      twoClients := by
  refine (clients_are_isolated (.ofEvents []) { currentStatus := .notPlaying } ownId twoClients
    ?_ ?_).1 { keys := [blankKey 7] } ?_
  · intro client other keyId h h'
    have hid : keyId = if client then 7 else 8 := of_decide_eq_true h
    have hid' : keyId = if other then 7 else 8 := of_decide_eq_true h'
    rw [hid] at hid'
    revert hid'
    cases client <;> cases other <;> decide
  · have hother : (AsmService.ofEvents []).received 0 otherKeyLoad
        = .ask { command := .leKeyLoad, requestId := 1,
                 payload := LeKeyPayloadCodec.encodeLoadRequest [blankKey 8] }
            (.loadKeys [blankKey 8]) := rfl
    have hload : (AsmService.ofEvents []).received 0 TlsServer.oneKeyFrame
        = .ask TlsServer.oneKeyLoad (.loadKeys [blankKey 7]) := rfl
    have hquery : (AsmService.ofEvents []).received 1 otherQuery
        = .ask { command := .leKeyQueryId, requestId := 1, payload := u32Bytes 8 }
            (.containsKey 8) := rfl
    intro sent hsent
    rcases List.mem_cons.1 hsent with rfl | hsent
    · refine (AsmService.forall_asks_iff hother fun call => call.NamesOnly _).2 fun key hkey => ?_
      rw [List.mem_singleton.1 hkey]
      rfl
    · rcases List.mem_pair.1 hsent with rfl | rfl
      · refine (AsmService.forall_asks_iff hload fun call => call.NamesOnly _).2 fun key hkey => ?_
        rw [List.mem_singleton.1 hkey]
        rfl
      · exact (AsmService.forall_asks_iff hquery fun call => call.NamesOnly _).2 rfl
  · intro step hstep
    rcases List.mem_cons.1 hstep with rfl | hstep
    · exact fun h => nomatch h.2
    · rcases List.mem_pair.1 hstep with rfl | rfl
      · exact fun h => nomatch h.2
      · exact fun h => nomatch h.1

end AsmProto
