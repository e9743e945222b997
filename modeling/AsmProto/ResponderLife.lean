import AsmProto.ClientIsolation
import AsmProto.Durability

set_option autoImplicit false

/-! # The life of a responder

A responder with a key file is stopped and started many times, and the file does not always take what
`persist` writes. A life is any sequence of received messages, each with what its `persist` meets, and
of restarts, which end the process and construct the store again from whatever the file holds. A
process that is killed while it writes is a message whose text is cut off, and then a restart. -/

namespace AsmProto

/-- The responder serves, or it did not come up: the constructor of the store threw. -/
inductive ResponderProcess where
  | up (store : JsonlLeKeyStore)
  | down (file : Option StdString)

inductive LifeEvent where
  | message (received : ReceivedMessage) (outcome : OfstreamOutcome)
  /-- The process ends and is started again. -/
  | restart (opens : Bool)

namespace ResponderProcess

/-- The content of the key file, if there is one. -/
def file : ResponderProcess → Option StdString
  | .up store => store.file
  | .down file => file

/-- The responder over its life; a process that is down answers nothing. -/
def machine (eventLogStore : EventLogStore) (spbStatusProvider : QuerySpbStatusProvider) :
    Machine LifeEvent (Option ServiceResult) ResponderProcess where
  step process event :=
    match event, process with
    | .message received outcome, .up store =>
        let (result, store') :=
          (AsmService.persistent eventLogStore spbStatusProvider outcome).receiveOn
            received.1 received.2 store
        (some result, .up store')
    | .message _ _, .down file => (none, .down file)
    | .restart opens, process =>
        match JsonlLeKeyStore.construct process.file opens with
        | .ok store => (none, .up store)
        | .error _ => (none, .down process.file)

/-- The record is in memory, or the file would bring it back. -/
def Holds (process : ResponderProcess) (record : LeKeyRecord) : Prop :=
  (∃ store, process = .up store ∧ record ∈ store.keys) ∨
    ∃ records, readKeys (process.file.getD []) = .ok records ∧ record ∈ records

end ResponderProcess

/-- The records of the load the message asks for; none if it asks for no load. -/
def loadedBy (message : ByteBuffer) (record : LeKeyRecord) : Prop :=
  ∃ request keys, decodeRequestFrame message = .ok request ∧
    AsmService.Asks request (.loadKeys keys) ∧ record ∈ keys

def LifeEvent.Loads (record : LeKeyRecord) : LifeEvent → Prop
  | .message received _ => loadedBy received.2 record
  | .restart _ => False

/-! ## One event -/

/-- The vector after a call has the records of before and of the batch, at most. -/
theorem StoreCall.mem_after {keys : List LeKeyRecord} {call : StoreCall} {record : LeKeyRecord}
    (h : record ∈ call.after keys) :
    record ∈ keys ∨ ∃ incoming, call = .loadKeys incoming ∧ record ∈ incoming := by
  cases call with
  | loadKeys incoming =>
      rw [after] at h
      split at h
      · exact Or.inl h
      · exact (KeyedList.mem_of_mem_upsertAll _ h).imp_right fun hmem => ⟨incoming, rfl, hmem⟩
  | containsKey keyId => exact Or.inl h
  | listKeyIds => exact Or.inl h
  | purgeKey keyId => exact Or.inl (List.mem_of_mem_filter h)
  | purgeAll => exact absurd h (by simp [after])

/-- **What a call leaves in the file**: what was there, or a part of the text of the new vector, from
    its start. -/
theorem JsonlLeKeyStore.file_run_call (outcome : OfstreamOutcome) (self : JsonlLeKeyStore)
    (call : StoreCall) :
    (((toStore outcome).call call).run self).state.file = self.file ∨
      ∃ content, (((toStore outcome).call call).run self).state.file = some content ∧
        content <+: jsonlText (call.after self.keys) := by
  by_cases hwrites : call.writes self.keys
  · rw [run_call_of_writes hwrites]
    cases outcome with
    | openFails => exact Or.inl rfl
    | writesAll => exact Or.inr ⟨_, rfl, List.prefix_refl _⟩
    | writesFirst count => exact Or.inr ⟨_, rfl, List.take_prefix _ _⟩
  · rw [run_call_of_not_writes hwrites]
    exact Or.inl rfl

/-- Every record in memory satisfies `P`, and every record the file would bring back. -/
structure AllRecords (P : LeKeyRecord → Prop) (process : ResponderProcess) : Prop where
  memory : ∀ store, process = .up store → ∀ record ∈ store.keys, P record
  file : ∀ records, readKeys (process.file.getD []) = .ok records → ∀ record ∈ records, P record

theorem allRecords_iff {P : LeKeyRecord → Prop} {process : ResponderProcess} :
    AllRecords P process ↔ ∀ record, process.Holds record → P record := by
  refine ⟨fun h record hholds => ?_, fun h => ⟨?_, ?_⟩⟩
  · rcases hholds with ⟨store, hup, hmem⟩ | ⟨records, hread, hmem⟩
    · exact h.memory store hup record hmem
    · exact h.file records hread record hmem
  · exact fun store hup record hmem => h record (Or.inl ⟨store, hup, hmem⟩)
  · exact fun records hread record hmem => h record (Or.inr ⟨records, hread, hmem⟩)

/-- A call that means `keys'` leaves only records of `keys'`, and of the file as it was. -/
theorem allRecords_run_call {P : LeKeyRecord → Prop} {self : JsonlLeKeyStore}
    (hself : AllRecords P (.up self)) (outcome : OfstreamOutcome) {call : StoreCall}
    (hafter : ∀ record ∈ call.after self.keys, P record) :
    AllRecords P (.up (((JsonlLeKeyStore.toStore outcome).call call).run self).state) where
  memory := by
    intro store hup record hmem
    obtain rfl := ResponderProcess.up.inj hup
    rw [JsonlLeKeyStore.keys_run_call] at hmem
    exact hafter record hmem
  file := by
    intro records hread record hmem
    rw [ResponderProcess.file] at hread
    rcases JsonlLeKeyStore.file_run_call outcome self call with hfile | ⟨content, hfile, hinitial⟩
    · rw [hfile] at hread
      exact hself.file records hread record hmem
    · rw [hfile, Option.getD_some] at hread
      exact hafter record ((text_of_readKeys_cut hinitial hread).1.subset hmem)

/-- A call that wrote something leaves only records of the new vector, in memory and in the file. -/
theorem allRecords_of_written {P : LeKeyRecord → Prop} {self self' : JsonlLeKeyStore}
    {outcome : OfstreamOutcome} {call : StoreCall} {answer : StoreAnswer}
    (hwrites : call.writes self.keys)
    (hrun : ((JsonlLeKeyStore.toStore outcome).call call).run self = .ok answer self')
    (hafter : ∀ record ∈ call.after self.keys, P record) : AllRecords P (.up self') := by
  have hwritten : ∃ content, self' = { file := some content, keys := call.after self.keys } ∧
      content <+: jsonlText (call.after self.keys) := by
    rw [JsonlLeKeyStore.run_call_of_writes hwrites] at hrun
    cases outcome with
    | openFails => injection hrun
    | writesAll =>
        injection hrun with _ hself
        exact ⟨_, hself.symm, List.prefix_refl _⟩
    | writesFirst count =>
        injection hrun with _ hself
        exact ⟨_, hself.symm, List.take_prefix _ _⟩
  obtain ⟨content, rfl, hinitial⟩ := hwritten
  refine ⟨fun store hup record hmem => ?_, fun records hread record hmem => ?_⟩
  · obtain rfl := ResponderProcess.up.inj hup
    exact hafter record hmem
  · exact hafter record ((text_of_readKeys_cut hinitial hread).1.subset hmem)

section Life

variable {eventLogStore : EventLogStore} {spbStatusProvider : QuerySpbStatusProvider}

/-- The store after a message that asks for a call, whether the call returns or throws. -/
theorem store_receiveOn_of_ask {σ : Type} {service : AsmService σ} {received : ReceivedMessage}
    {request : StandardRequest} {call : StoreCall}
    (h : service.received received.1 received.2 = .ask request call) (store : σ) :
    (service.receiveOn received.1 received.2 store).2
      = ((service.leKeyStore.call call).run store).state := by
  cases hcall : (service.leKeyStore.call call).run store with
  | ok answer store' => rw [AsmService.receiveOn_of_ask h hcall, EStateM.Result.state_ok]
  | error ex store' => rw [AsmService.receiveOn_of_throw h hcall, EStateM.Result.state_error]

/-- A message that asks for a call makes the process the store the call leaves. -/
theorem ResponderProcess.step_of_asks {received : ReceivedMessage} {request : StandardRequest}
    {call : StoreCall} (hdecode : decodeRequestFrame received.2 = .ok request)
    (hid : request.requestId ≠ 0) (hasks : AsmService.Asks request call) (outcome : OfstreamOutcome)
    (store : JsonlLeKeyStore) :
    ((machine eventLogStore spbStatusProvider).step (.up store) (.message received outcome)).2
      = .up (((JsonlLeKeyStore.toStore outcome).call call).run store).state :=
  congrArg ResponderProcess.up
    (store_receiveOn_of_ask (AsmService.received_eq_ask_iff.2 ⟨hdecode, hid, hasks⟩) store)

/-- **What a message does**: nothing to the process, or the one call it asks of the store. -/
theorem ResponderProcess.step_message (process : ResponderProcess) (received : ReceivedMessage)
    (outcome : OfstreamOutcome) :
    ((machine eventLogStore spbStatusProvider).step process (.message received outcome)).2 = process ∨
    ∃ store request call, process = .up store ∧ decodeRequestFrame received.2 = .ok request ∧
      request.requestId ≠ 0 ∧ AsmService.Asks request call ∧
      ((machine eventLogStore spbStatusProvider).step process (.message received outcome)).2
        = .up (((JsonlLeKeyStore.toStore outcome).call call).run store).state := by
  cases process with
  | down file => exact Or.inl rfl
  | up store =>
      cases hreceived : (AsmService.persistent eventLogStore spbStatusProvider outcome).received
          received.1 received.2 with
      | reply result =>
          exact Or.inl (congrArg ResponderProcess.up
            (congrArg Prod.snd (AsmService.receiveOn_of_reply hreceived store)))
      | ask request call =>
          obtain ⟨hdecode, hid, hasks⟩ := AsmService.received_eq_ask_iff.1 hreceived
          exact Or.inr ⟨store, request, call, rfl, hdecode, hid, hasks,
            ResponderProcess.step_of_asks hdecode hid hasks outcome store⟩

/-- **What a restart does**: the keys are those the file has, and without the file or with a line that
    does not parse the process does not come up. -/
theorem ResponderProcess.step_restart (process : ResponderProcess) (opens : Bool) :
    (((machine eventLogStore spbStatusProvider).step process (.restart opens)).2 = .down process.file ∧
      ∀ keys, opens = true → readKeys (process.file.getD []) ≠ .ok keys) ∨
    ∃ keys, opens = true ∧ readKeys (process.file.getD []) = .ok keys ∧
      ((machine eventLogStore spbStatusProvider).step process (.restart opens)).2
        = .up { file := some (process.file.getD []), keys := keys } := by
  cases hopen : JsonlLeKeyStore.construct process.file opens with
  | error ex =>
      refine Or.inl ⟨by simp only [machine, hopen], fun keys hopens hread => ?_⟩
      have hok : JsonlLeKeyStore.construct process.file opens
          = .ok { file := some (process.file.getD []), keys := keys } :=
        JsonlLeKeyStore.construct_eq_ok_iff.2 ⟨hopens, rfl, hread⟩
      rw [hopen] at hok
      cases hok
  | ok store =>
      obtain ⟨hopens, hfile, hread⟩ := JsonlLeKeyStore.construct_eq_ok_iff.1 hopen
      refine Or.inr ⟨store.keys, hopens, hread, ?_⟩
      simp only [machine, hopen, ← hfile]

/-- **One event brings in no records** but those of the load it asks for, whole. -/
theorem allRecords_step {P : LeKeyRecord → Prop} {process : ResponderProcess}
    (h : AllRecords P process) {event : LifeEvent} (hloads : ∀ record, event.Loads record → P record) :
    AllRecords P ((ResponderProcess.machine eventLogStore spbStatusProvider).step process event).2 := by
  cases event with
  | message received outcome =>
      rcases process.step_message received outcome with
        hsame | ⟨store, request, call, rfl, hdecode, -, hasks, hstep⟩
      · rw [hsame]
        exact h
      · rw [hstep]
        refine allRecords_run_call h outcome fun record hmem => ?_
        rcases StoreCall.mem_after hmem with hold | ⟨incoming, rfl, hnew⟩
        · exact h.memory store rfl record hold
        · exact hloads record ⟨request, incoming, hdecode, hasks, hnew⟩
  | restart opens =>
      rcases process.step_restart opens with ⟨hstep, -⟩ | ⟨keys, -, hread, hstep⟩
      · rw [hstep]
        exact ⟨fun store hup => (nomatch hup), h.file⟩
      · rw [hstep]
        refine ⟨fun store hup record hmem => ?_, h.file⟩
        obtain rfl := ResponderProcess.up.inj hup
        exact h.file keys hread record hmem

/-- **A whole life brings in no records** but those of the loads it received. -/
theorem allRecords_after {P : LeKeyRecord → Prop} {process : ResponderProcess}
    (h : AllRecords P process) {events : List LifeEvent}
    (hloads : ∀ event ∈ events, ∀ record, event.Loads record → P record) :
    AllRecords P
      ((ResponderProcess.machine eventLogStore spbStatusProvider).after process events) :=
  Machine.invariant_after (P := AllRecords P) (fun _ event hevent hprocess =>
    allRecords_step hprocess (hloads event hevent)) h

/-! ## Where records come from -/

/-- **No key comes out of thin air.** Whatever the responder receives, whatever its writes and restarts
    meet, and whatever the key file held at first: a record that is in memory, or that the file would
    bring back, is a record of the first file or of a load that was received, with its id, key, expire
    time and attribute unaltered. -/
theorem stored_records_were_sent (eventLogStore : EventLogStore)
    (spbStatusProvider : QuerySpbStatusProvider) (file : Option StdString) (events : List LifeEvent)
    (record : LeKeyRecord)
    (hholds : ((ResponderProcess.machine eventLogStore spbStatusProvider).after (.down file)
      events).Holds record) :
    (∃ records, readKeys (file.getD []) = .ok records ∧ record ∈ records) ∨
      ∃ event ∈ events, event.Loads record := by
  refine allRecords_iff.1 (allRecords_after (P := fun record =>
    (∃ records, readKeys (file.getD []) = .ok records ∧ record ∈ records) ∨
      ∃ event ∈ events, event.Loads record) ?_ ?_) record hholds
  · exact ⟨fun _ hup => (nomatch hup), fun records hread record hmem => Or.inl ⟨records, hread, hmem⟩⟩
  · exact fun event hevent record hload => Or.inr ⟨event, hevent, hload⟩

/-- One load on a missing file. -/
def loadingLife : List LifeEvent :=
  [.restart true, .message (0, TlsServer.oneKeyFrame) .writesAll]

theorem stored_records_were_sent_load :
    (∃ records, readKeys [] = .ok records ∧ blankKey 7 ∈ records) ∨
      ∃ event ∈ loadingLife, event.Loads (blankKey 7) :=
  stored_records_were_sent (.ofEvents []) { currentStatus := .notPlaying } none loadingLife (blankKey 7)
    (Or.inl ⟨_, rfl, List.mem_singleton.2 rfl⟩)

/-! ## What was purged -/

/-- The answer tells that no key with the id is left: its purge found it, or all keys were purged. -/
def ToldPurged (keyId : UInt32) (message : ByteBuffer) (response : StandardResponse) : Prop :=
  ∃ request, decodeRequestFrame message = .ok request ∧ response.responseCode = .successful ∧
    ((request.command = .leKeyPurgeId ∧ request.payload = u32Bytes keyId ∧
        response.payload = LeKeyPayloadCodec.encodePurgeIdResponse false) ∨
      request.command = .leKeyPurgeAll)

/-- A key change answered successful made its call of the store. -/
theorem received_of_successful_change {service : AsmService JsonlLeKeyStore}
    {received : ReceivedMessage} {store : JsonlLeKeyStore} {request : StandardRequest}
    (hdecode : decodeRequestFrame received.2 = .ok request)
    (hcommand : request.command ∈ keyChanges)
    (hsuccessful : (service.receiveOn received.1 received.2 store).1.response.responseCode
      = .successful) :
    ∃ call, service.received received.1 received.2 = .ask request call := by
  rcases response_regular_or_copy service received.1 store received.2 with
    ⟨request', payload, code, hdecode', hid, hreplies, hresponse⟩ | ⟨hcopy, -⟩
  · obtain rfl := Except.ok.inj (hdecode.symm.trans hdecode')
    rw [hresponse] at hsuccessful
    obtain rfl : code = .successful := hsuccessful
    obtain ⟨call, hasks⟩ := asks_of_successful_change hreplies hcommand
    exact ⟨call, AsmService.received_eq_ask_iff.2 ⟨hdecode, hid, hasks⟩⟩
  · rw [hcopy] at hsuccessful
    cases hsuccessful

/-- A request to purge an id asks for that alone. -/
theorem purgeKey_of_asks {request : StandardRequest} {call : StoreCall}
    (hasks : AsmService.Asks request call) (hcommand : request.command = .leKeyPurgeId) :
    ∃ keyId, call = .purgeKey keyId ∧ request.payload = u32Bytes keyId := by
  cases call with
  | loadKeys incoming => exact absurd (hasks.1.symm.trans hcommand) (by simp)
  | containsKey keyId => exact absurd (hasks.1.symm.trans hcommand) (by simp)
  | listKeyIds => exact absurd (hasks.1.symm.trans hcommand) (by simp)
  | purgeKey keyId => exact ⟨keyId, rfl, hasks.2⟩
  | purgeAll => exact absurd (hasks.1.symm.trans hcommand) (by simp)

theorem purgeAll_of_asks {request : StandardRequest} {call : StoreCall}
    (hasks : AsmService.Asks request call) (hcommand : request.command = .leKeyPurgeAll) :
    call = .purgeAll := by
  cases call with
  | loadKeys incoming => exact absurd (hasks.1.symm.trans hcommand) (by simp)
  | containsKey keyId => exact absurd (hasks.1.symm.trans hcommand) (by simp)
  | listKeyIds => exact absurd (hasks.1.symm.trans hcommand) (by simp)
  | purgeKey keyId => exact absurd (hasks.1.symm.trans hcommand) (by simp)
  | purgeAll => rfl

/-- A purge that is told done was written out: the vector it left has no key with the id. -/
theorem written_of_toldPurged {service : AsmService JsonlLeKeyStore} {outcome : OfstreamOutcome}
    (hservice : service.leKeyStore = JsonlLeKeyStore.toStore outcome) {received : ReceivedMessage}
    {store : JsonlLeKeyStore} {keyId : UInt32}
    (h : ToldPurged keyId received.2 (service.receiveOn received.1 received.2 store).1.response) :
    ∃ call answer, call.writes store.keys ∧
      ((JsonlLeKeyStore.toStore outcome).call call).run store
        = .ok answer (service.receiveOn received.1 received.2 store).2 ∧
      ∀ record ∈ call.after store.keys, record.keyId ≠ keyId := by
  obtain ⟨request, hdecode, hsuccessful, hpurge⟩ := h
  have hcommand : request.command ∈ keyChanges := by
    rcases hpurge with ⟨hcommand, -, -⟩ | hcommand
    · simp [keyChanges, hcommand]
    · simp [keyChanges, hcommand]
  obtain ⟨call, hreceived⟩ := received_of_successful_change hdecode hcommand hsuccessful
  obtain ⟨-, -, hasks⟩ := AsmService.received_eq_ask_iff.1 hreceived
  -- a call that throws is answered with BadRequest
  obtain ⟨store', hrun⟩ : ∃ store', ((JsonlLeKeyStore.toStore outcome).call call).run store
      = .ok (call.answer store.keys) store' := by
    rcases JsonlLeKeyStore.run_call_cases outcome store call with ⟨store', hrun, -⟩ | ⟨-, hrun⟩
    · exact ⟨store', hrun⟩
    · rw [← hservice] at hrun
      rw [AsmService.receiveOn_of_throw hreceived hrun] at hsuccessful
      cases hsuccessful
  have hreceive := hrun
  rw [← hservice] at hreceive
  rw [AsmService.receiveOn_of_ask hreceived hreceive] at hpurge ⊢
  rcases hpurge with ⟨hpurgeId, hpayload, hfound⟩ | hpurgeAll
  · -- the answer says that the id was found
    obtain ⟨keyId', rfl, hpayload'⟩ := purgeKey_of_asks hasks hpurgeId
    obtain rfl := u32Bytes_injective (hpayload.symm.trans hpayload')
    refine ⟨_, _, ?_, hrun, ?_⟩
    · by_contra hmissing
      have hmem : keyId ∉ store.keys.map LeKeyRecord.keyId := hmissing
      simp [AsmService.keyReply, answerTo, StoreCall.answer, StoreAnswer.flagValue, hmem,
        LeKeyPayloadCodec.encodePurgeIdResponse, LeKeyPayloadCodec.encodeFlag] at hfound
    · intro record hmem
      exact ((KeyedList.mem_map_key_eraseKey LeKeyRecord.keyId).1 (List.mem_map_of_mem hmem)).2
  · obtain rfl := purgeAll_of_asks hasks hpurgeAll
    exact ⟨.purgeAll, _, trivial, hrun, fun record hmem => absurd hmem (by simp [StoreCall.after])⟩

/-- **A key that was told purged does not come back.** Whatever happened before, and whatever writes and
    restarts meet afterwards, torn files included: after an LEKeyPurgeID answered with NoKeyID = 0, or an
    LEKeyPurgeAll answered successful, no record with the id is in memory, nor would the file bring one
    back, until a load with the id is received. -/
theorem purged_key_stays_gone (eventLogStore : EventLogStore)
    (spbStatusProvider : QuerySpbStatusProvider) (file : Option StdString) (before later : List LifeEvent)
    (received : ReceivedMessage) (outcome : OfstreamOutcome) (result : ServiceResult) (keyId : UInt32)
    (hanswer : ((ResponderProcess.machine eventLogStore spbStatusProvider).step
      ((ResponderProcess.machine eventLogStore spbStatusProvider).after (.down file) before)
      (.message received outcome)).1 = some result)
    (htold : ToldPurged keyId received.2 result.response)
    (hloads : ∀ event ∈ later, ∀ record, event.Loads record → record.keyId ≠ keyId)
    (record : LeKeyRecord)
    (hholds : ((ResponderProcess.machine eventLogStore spbStatusProvider).after (.down file)
      (before ++ .message received outcome :: later)).Holds record) : record.keyId ≠ keyId := by
  rw [Machine.after_append, Machine.after_cons] at hholds
  cases hprocess : (ResponderProcess.machine eventLogStore spbStatusProvider).after (.down file)
      before with
  | down file' =>
      rw [hprocess] at hanswer
      cases hanswer
  | up store =>
      rw [hprocess] at hanswer hholds
      have hreceive : ((AsmService.persistent eventLogStore spbStatusProvider outcome).receiveOn
          received.1 received.2 store).1 = result := Option.some.inj hanswer
      rw [← hreceive] at htold
      obtain ⟨call, answer, hwrites, hrun, hgone⟩ := written_of_toldPurged rfl htold
      have hnow : AllRecords (fun record => record.keyId ≠ keyId)
          (.up ((AsmService.persistent eventLogStore spbStatusProvider outcome).receiveOn
            received.1 received.2 store).2) := allRecords_of_written hwrites hrun hgone
      exact allRecords_iff.1 (allRecords_after hnow hloads) record hholds

/-- A load of the ids 7 and 8, and the purge of 7. -/
def twoKeysFrame : ByteBuffer :=
  frameBytes (makeUl 0x03 0x20) (requestValue
    { command := .leKeyLoad, requestId := 1
      payload := LeKeyPayloadCodec.encodeLoadRequest [blankKey 7, blankKey 8] })

def purgeFrame : ByteBuffer :=
  frameBytes (makeUl 0x03 0x26) (requestValue
    { command := .leKeyPurgeId, requestId := 2, payload := u32Bytes 7 })

theorem purged_key_stays_gone_torn : (blankKey 8).keyId ≠ 7 := by
  refine purged_key_stays_gone (.ofEvents []) { currentStatus := .notPlaying } none
    [.restart true, .message (0, twoKeysFrame) .writesAll] [] (0, purgeFrame) (.writesFirst 5)
    { response := { command := .leKeyPurgeId, requestId := some 2, payload := [0],
                    responseCode := .successful }, note := "LEKeyPurgeID handled" } 7 rfl
    ⟨{ command := .leKeyPurgeId, requestId := 2, payload := u32Bytes 7 }, rfl, rfl,
      Or.inl ⟨rfl, rfl, rfl⟩⟩ (by simp) (blankKey 8) ?_
  exact Or.inl ⟨_, rfl, List.mem_singleton.2 rfl⟩

end Life

end AsmProto
