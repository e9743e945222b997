import AsmProto.AuditTrace
import AsmProto.KeyMachine
import AsmProto.Lib.Alike

set_option autoImplicit false

/-! # Key material stays in the store

A key record is an id with key material, an expiry time and an attribute. The protocol asks for ids
only, and of a load it tells only whether the keys fit. So two runs that load different material under
the same ids cannot be told apart by what the service answers and notes, however the loads are mixed
with other requests. Material comes back in one case only: a load that `persist` throws at is answered
with BadRequest, which has a copy of the load and goes to its sender. -/

namespace AsmProto

/-- The lists name the same ids in the same order. -/
def SameIds (keys keys' : List LeKeyRecord) : Prop :=
  keys.map LeKeyRecord.keyId = keys'.map LeKeyRecord.keyId

/-- The same call, or two loads that differ in what they load under their ids. -/
inductive StoreCall.SameButMaterial : StoreCall → StoreCall → Prop where
  | same (call : StoreCall) : SameButMaterial call call
  | load {keys keys' : List LeKeyRecord} (hkeys : SameIds keys keys') :
      SameButMaterial (.loadKeys keys) (.loadKeys keys')

/-- The same message, or two loads that differ in what they load under their ids. -/
inductive SameButMaterial : ReceivedMessage → ReceivedMessage → Prop where
  | same (received : ReceivedMessage) : SameButMaterial received received
  | load {now : UInt64} {message message' : ByteBuffer} {request request' : StandardRequest}
      {keys keys' : List LeKeyRecord} (hdecode : decodeRequestFrame message = .ok request)
      (hdecode' : decodeRequestFrame message' = .ok request') (hid : request.requestId ≠ 0)
      (hsame : request.requestId = request'.requestId)
      (hasks : AsmService.Asks request (.loadKeys keys))
      (hasks' : AsmService.Asks request' (.loadKeys keys')) (hkeys : SameIds keys keys') :
      SameButMaterial (now, message) (now, message')

/-! ## One call -/

namespace SameIds

variable {keys keys' incoming incoming' : List LeKeyRecord}

theorem length_eq (h : SameIds keys keys') : keys.length = keys'.length := by
  simpa only [List.length_map] using congrArg List.length h

/-- How many of the batch are not stored is a matter of ids. -/
theorem countP_eq (h : SameIds keys keys') (hincoming : SameIds incoming incoming') :
    incoming.countP (fun key => decide (key.keyId ∉ keys.map LeKeyRecord.keyId))
      = incoming'.countP (fun key => decide (key.keyId ∉ keys'.map LeKeyRecord.keyId)) := by
  have hids : ∀ batch stored : List LeKeyRecord,
      batch.countP (fun key => decide (key.keyId ∉ stored.map LeKeyRecord.keyId))
        = (batch.map LeKeyRecord.keyId).countP
          (fun keyId => decide (keyId ∉ stored.map LeKeyRecord.keyId)) := by
    intro batch stored
    rw [List.countP_map]
    rfl
  rw [hids, hids, h, hincoming]

theorem wouldOverflow_eq (h : SameIds keys keys') (hincoming : SameIds incoming incoming')
    (capacity : ℕ) : wouldOverflow incoming keys capacity = wouldOverflow incoming' keys' capacity := by
  rw [Bool.eq_iff_iff, wouldOverflow_iff, wouldOverflow_iff, h.length_eq, h.countP_eq hincoming]

/-- **A call** is answered from the ids, and changes them alike, whatever it loads under them. -/
theorem call (h : SameIds keys keys') {call call' : StoreCall} (hcall : call.SameButMaterial call') :
    call.answer keys = call'.answer keys' ∧ SameIds (call.after keys) (call'.after keys') := by
  cases hcall with
  | load hincoming =>
      have hoverflow := h.wouldOverflow_eq hincoming kCapacity
      refine ⟨by rw [StoreCall.answer, StoreCall.answer, hoverflow], ?_⟩
      rw [StoreCall.after, StoreCall.after, hoverflow]
      split
      · exact h
      · exact KeyedList.map_key_upsertAll_of_map_eq LeKeyRecord.keyId h hincoming
  | same =>
      cases call with
      | loadKeys incoming =>
          have hoverflow := h.wouldOverflow_eq (Eq.refl (incoming.map LeKeyRecord.keyId)) kCapacity
          refine ⟨by rw [StoreCall.answer, StoreCall.answer, hoverflow], ?_⟩
          rw [StoreCall.after, StoreCall.after, hoverflow]
          split
          · exact h
          · exact KeyedList.map_key_upsertAll_of_map_eq LeKeyRecord.keyId h rfl
      | containsKey keyId => exact ⟨by rw [StoreCall.answer, StoreCall.answer, h], h⟩
      | listKeyIds => exact ⟨by rw [StoreCall.answer, StoreCall.answer, h], h⟩
      | purgeKey keyId =>
          refine ⟨by rw [StoreCall.answer, StoreCall.answer, h], ?_⟩
          rw [SameIds, StoreCall.after, StoreCall.after, KeyedList.map_key_eraseKey,
            KeyedList.map_key_eraseKey, h]
      | purgeAll => exact ⟨rfl, rfl⟩

theorem writes_iff (h : SameIds keys keys') {call call' : StoreCall}
    (hcall : call.SameButMaterial call') : call.writes keys ↔ call'.writes keys' := by
  cases hcall with
  | load hincoming => rw [StoreCall.writes, StoreCall.writes, h.wouldOverflow_eq hincoming kCapacity]
  | same =>
      cases call with
      | loadKeys incoming =>
          rw [StoreCall.writes, StoreCall.writes,
            h.wouldOverflow_eq (Eq.refl (incoming.map LeKeyRecord.keyId)) kCapacity]
      | containsKey keyId => exact Iff.rfl
      | listKeyIds => exact Iff.rfl
      | purgeKey keyId => rw [StoreCall.writes, StoreCall.writes, h]
      | purgeAll => exact Iff.rfl

end SameIds

/-- The store returns and throws the same whatever is stored and loaded under the ids, and throws only
    if it `fails`. -/
structure LeKeyStore.Hides {σ : Type} (store : LeKeyStore σ) (keysOf : σ → List LeKeyRecord)
    (fails : Prop) : Prop where
  alike : ∀ {call call'}, call.SameButMaterial call' →
    EStateM.Alike (fun s t => SameIds (keysOf s) (keysOf t)) (store.call call) (store.call call')
  fails_of_throw : ∀ {call s ex s'}, (store.call call).run s = .error ex s' → fails

theorem InMemoryLeKeyStore.hides : toStore.Hides InMemoryLeKeyStore.keys False where
  alike := by
    intro call call' hcall self self' hids
    rw [run_call, run_call, (hids.call hcall).1]
    exact .ok _ (hids.call hcall).2
  fails_of_throw := by
    intro call self ex self' hrun
    rw [run_call] at hrun
    cases hrun

theorem JsonlLeKeyStore.hides (outcome : OfstreamOutcome) :
    (toStore outcome).Hides JsonlLeKeyStore.keys (outcome = .openFails) where
  alike := by
    intro call call' hcall self self' hids
    obtain ⟨hanswer, hafter⟩ := hids.call hcall
    by_cases hwrites : call.writes self.keys
    · rw [run_call_of_writes hwrites, run_call_of_writes ((hids.writes_iff hcall).1 hwrites), hanswer]
      cases outcome with
      | openFails => exact .error _ hafter
      | writesAll => exact .ok _ hafter
      | writesFirst count => exact .ok _ hafter
    · rw [run_call_of_not_writes hwrites,
        run_call_of_not_writes (mt (hids.writes_iff hcall).2 hwrites), hanswer]
      exact .ok _ hids
  fails_of_throw := by
    intro call self ex self' hrun
    by_cases hwrites : call.writes self.keys
    · rw [run_call_of_writes hwrites] at hrun
      cases outcome with
      | openFails => rfl
      | writesAll => cases hrun
      | writesFirst count => cases hrun
    · rw [run_call_of_not_writes hwrites] at hrun
      cases hrun

/-! ## One message -/

/-- The same result, or two that differ in the copy of the message; the second if something `fails`. -/
def UpToCopy (fails : Prop) (message message' : ByteBuffer) (result result' : ServiceResult) : Prop :=
  result = result' ∨
    fails ∧ ∃ reason, result = AsmService.handleDecodeFailure message reason ∧
      result' = AsmService.handleDecodeFailure message' reason

section Message

variable {σ : Type} {service : AsmService σ} {keysOf : σ → List LeKeyRecord} {fails : Prop}

/-- The service plans alike: what it asks the store differs in material, and what it makes of the
    answer does not differ. -/
theorem received_of_sameButMaterial {received received' : ReceivedMessage}
    (h : SameButMaterial received received') :
    (∃ result, service.received received.1 received.2 = .reply result ∧
      service.received received'.1 received'.2 = .reply result) ∨
    ∃ request request' call call', service.received received.1 received.2 = .ask request call ∧
      service.received received'.1 received'.2 = .ask request' call' ∧ call.SameButMaterial call' ∧
      ∀ answer, AsmService.keyReply request call answer = AsmService.keyReply request' call' answer := by
  cases h with
  | same =>
      cases hplan : service.received received.1 received.2 with
      | reply result => exact Or.inl ⟨result, rfl, rfl⟩
      | ask request call =>
          exact Or.inr ⟨request, request, call, call, rfl, rfl, .same call, fun _ => rfl⟩
  | load hdecode hdecode' hid hsame hasks hasks' hkeys =>
      refine Or.inr ⟨_, _, _, _, AsmService.received_eq_ask_iff.2 ⟨hdecode, hid, hasks⟩,
        AsmService.received_eq_ask_iff.2 ⟨hdecode', hsame ▸ hid, hasks'⟩, .load hkeys, fun answer => ?_⟩
      simp only [AsmService.keyReply, answerTo, hsame]

/-- **One message** gets the same result but for copies, and leaves the same ids. -/
theorem receiveOn_of_sameButMaterial (hhides : service.leKeyStore.Hides keysOf fails) {store store' : σ}
    (hids : SameIds (keysOf store) (keysOf store')) {received received' : ReceivedMessage}
    (hreceived : SameButMaterial received received') :
    UpToCopy fails received.2 received'.2 (service.receiveOn received.1 received.2 store).1
        (service.receiveOn received'.1 received'.2 store').1 ∧
      SameIds (keysOf (service.receiveOn received.1 received.2 store).2)
        (keysOf (service.receiveOn received'.1 received'.2 store').2) := by
  rcases @received_of_sameButMaterial σ service _ _ hreceived with
    ⟨result, hplan, hplan'⟩ | ⟨request, request', call, call', hplan, hplan', hcall, hreply⟩
  · rw [AsmService.receiveOn_of_reply hplan, AsmService.receiveOn_of_reply hplan']
    exact ⟨Or.inl rfl, hids⟩
  · have halike := hhides.alike hcall store store' hids
    generalize hrun : (service.leKeyStore.call call).run store = ran at halike
    generalize hrun' : (service.leKeyStore.call call').run store' = ran' at halike
    cases halike with
    | ok answer hafter =>
        rw [AsmService.receiveOn_of_ask hplan hrun, AsmService.receiveOn_of_ask hplan' hrun', hreply]
        exact ⟨Or.inl rfl, hafter⟩
    | error ex hafter =>
        rw [AsmService.receiveOn_of_throw hplan hrun, AsmService.receiveOn_of_throw hplan' hrun']
        exact ⟨Or.inr ⟨hhides.fails_of_throw hrun, _, rfl, rfl⟩, hafter⟩

end Message

/-! ## A whole run -/

section Run

variable (eventLogStore : EventLogStore) (spbStatusProvider : QuerySpbStatusProvider)

/-- The service over a key file; each message comes with what its `persist` meets. -/
def AsmService.onFile : Machine (ReceivedMessage × OfstreamOutcome) ServiceResult JsonlLeKeyStore where
  step store input :=
    (persistent eventLogStore spbStatusProvider input.2).receiveOn input.1.1 input.1.2 store

/-- Two messages that differ in material only, with the same fate of their `persist`. -/
def SameInput (input input' : ReceivedMessage × OfstreamOutcome) : Prop :=
  SameButMaterial input.1 input'.1 ∧ input.2 = input'.2

/-- Answered alike: the results are the same unless the file did not open. -/
def AnsweredAlike (step step' : (ReceivedMessage × OfstreamOutcome) × ServiceResult) : Prop :=
  UpToCopy (step.1.2 = .openFails) step.1.1.2 step'.1.1.2 step.2 step'.2

/-- **What the service answers hides key material.** Take two runs that differ only in what is stored
    and loaded under the key ids. In memory, the responses and notes are the same. With a key file,
    whatever happens to it, they are the same but for the BadRequest that a message gets when the file
    does not open, where each run copies its own message. Both end with the same ids. -/
theorem answers_hide_key_material :
    (∀ self self' : InMemoryLeKeyStore, SameIds self.keys self'.keys →
      ∀ messages messages', List.Forall₂ SameButMaterial messages messages' →
        let machine := (AsmService.inMemory eventLogStore spbStatusProvider).machine
        machine.answers self messages = machine.answers self' messages' ∧
          SameIds (machine.after self messages).keys (machine.after self' messages').keys) ∧
    ∀ self self' : JsonlLeKeyStore, SameIds self.keys self'.keys →
      ∀ inputs inputs', List.Forall₂ SameInput inputs inputs' →
        let machine := AsmService.onFile eventLogStore spbStatusProvider
        List.Forall₂ AnsweredAlike (machine.log self inputs) (machine.log self' inputs') ∧
          SameIds (machine.after self inputs).keys (machine.after self' inputs').keys := by
  refine ⟨fun self self' hids messages messages' hmessages => ?_,
    fun self self' hids inputs inputs' hinputs => ?_⟩
  · have hstep : ∀ (self self' : InMemoryLeKeyStore) received received', SameIds self.keys self'.keys →
        SameButMaterial received received' →
        let machine := (AsmService.inMemory eventLogStore spbStatusProvider).machine
        (machine.step self received).1 = (machine.step self' received').1 ∧
          SameIds (machine.step self received).2.keys (machine.step self' received').2.keys := by
      intro self self' received received' hids hreceived
      have h := @receiveOn_of_sameButMaterial _ (AsmService.inMemory eventLogStore spbStatusProvider)
        _ _ InMemoryLeKeyStore.hides self self' hids _ _ hreceived
      exact h.imp_left fun hcopy => hcopy.resolve_right fun hfails => hfails.1
    obtain ⟨hanswers, hafter⟩ := Machine.run_of_related (O := Eq) hstep hids hmessages
    exact ⟨List.forall₂_eq_eq_eq ▸ hanswers, hafter⟩
  · refine Machine.log_of_related (I := SameInput)
      (R := fun self self' : JsonlLeKeyStore => SameIds self.keys self'.keys) ?_ hids hinputs
    rintro self self' ⟨received, outcome⟩ ⟨received', _⟩ hids ⟨hreceived, rfl⟩
    exact receiveOn_of_sameButMaterial (JsonlLeKeyStore.hides outcome) hids hreceived

end Run

/-- A load of other material under the id of `oneKeyFrame`. -/
def otherLoad : StandardRequest :=
  { TlsServer.oneKeyLoad with
    payload := LeKeyPayloadCodec.encodeLoadRequest [{ blankKey 7 with attributeData := 1 }] }

def otherFrame : ByteBuffer := frameBytes (makeUl 0x03 0x20) (requestValue otherLoad)

/-- A load at which `persist` throws, and then a stray byte. -/
def loadAndStray (frame : ByteBuffer) : List (ReceivedMessage × OfstreamOutcome) :=
  [((0, frame), .openFails), ((0, [0x2a]), .writesAll)]

theorem answers_hide_key_material_load :
    List.Forall₂ AnsweredAlike
      ((AsmService.onFile (.ofEvents []) { currentStatus := .notPlaying }).log
        { file := none, keys := [] } (loadAndStray TlsServer.oneKeyFrame))
      ((AsmService.onFile (.ofEvents []) { currentStatus := .notPlaying }).log
        { file := none, keys := [] } (loadAndStray otherFrame)) := by
  refine ((answers_hide_key_material (.ofEvents []) { currentStatus := .notPlaying }).2
    { file := none, keys := [] } { file := none, keys := [] } rfl _ _ ?_).1
  refine .cons ⟨?_, rfl⟩ (.cons ⟨.same _, rfl⟩ .nil)
  have hload : (AsmService.ofEvents []).received 0 TlsServer.oneKeyFrame
      = .ask TlsServer.oneKeyLoad (.loadKeys [blankKey 7]) := rfl
  have hother : (AsmService.ofEvents []).received 0 otherFrame
      = .ask otherLoad (.loadKeys [{ blankKey 7 with attributeData := 1 }]) := rfl
  obtain ⟨hdecode, hid, hasks⟩ := AsmService.received_eq_ask_iff.1 hload
  obtain ⟨hdecode', -, hasks'⟩ := AsmService.received_eq_ask_iff.1 hother
  exact .load hdecode hdecode' hid rfl hasks hasks' rfl

end AsmProto
