import AsmProto.ResponderLife

set_option autoImplicit false

/-! # Keys that were told loaded

The other half of `ResponderLife.lean`: a key whose load was answered successful stays, in memory and in
the file, until a message names it. A `persist` that cannot open the file throws and leaves the old
text, which still has the key; only a stream that opens and takes a part of the text can lose it. -/

namespace AsmProto

/-- The call may change what is stored under the id. -/
def StoreCall.Touches (keyId : UInt32) : StoreCall → Prop
  | .loadKeys keys => keyId ∈ keys.map LeKeyRecord.keyId
  | .containsKey _ => False
  | .listKeyIds => False
  | .purgeKey purged => purged = keyId
  | .purgeAll => True

def LifeEvent.Touches (keyId : UInt32) : LifeEvent → Prop
  | .message received _ => ∃ request call, decodeRequestFrame received.2 = .ok request ∧
      AsmService.Asks request call ∧ call.Touches keyId
  | .restart _ => False

/-- A stream that opens takes the whole text, and the file can be read at a start. -/
def LifeEvent.Sound : LifeEvent → Prop
  | .message _ outcome => ∀ count, outcome ≠ .writesFirst count
  | .restart opens => opens = true

/-- The responder serves, and the record is the one for its id, in memory and in the file. -/
def Keeps (record : LeKeyRecord) (process : ResponderProcess) : Prop :=
  ∃ store, process = .up store ∧
    KeyedList.lookup LeKeyRecord.keyId store.keys record.keyId = some record ∧
    ∃ records, readKeys (store.file.getD []) = .ok records ∧
      KeyedList.lookup LeKeyRecord.keyId records record.keyId = some record

theorem StoreCall.lookup_after {keys : List LeKeyRecord} {call : StoreCall} {keyId : UInt32}
    (h : ¬ call.Touches keyId) :
    KeyedList.lookup LeKeyRecord.keyId (call.after keys) keyId
      = KeyedList.lookup LeKeyRecord.keyId keys keyId := by
  cases call with
  | loadKeys incoming =>
      rw [after]
      split
      · rfl
      · have hnone : KeyedList.lookup LeKeyRecord.keyId incoming.reverse keyId = none := by
          rw [KeyedList.lookup_eq_none_iff, List.map_reverse, List.mem_reverse]
          exact h
        rw [KeyedList.lookup_upsertAll, hnone, Option.none_or]
  | containsKey other => rfl
  | listKeyIds => rfl
  | purgeKey purged =>
      exact KeyedList.lookup_eraseKey_of_ne _ fun heq => h heq.symm
  | purgeAll => exact absurd trivial h

/-- A sound call leaves the file alone or writes the whole vector. -/
theorem JsonlLeKeyStore.file_run_call_of_sound {outcome : OfstreamOutcome} (self : JsonlLeKeyStore)
    (call : StoreCall) (hsound : ∀ count, outcome ≠ .writesFirst count) :
    (((toStore outcome).call call).run self).state.file = self.file ∨
      (((toStore outcome).call call).run self).state.file
        = some (jsonlText (call.after self.keys)) := by
  by_cases hwrites : call.writes self.keys
  · rw [run_call_of_writes hwrites]
    cases outcome with
    | openFails => exact Or.inl rfl
    | writesAll => exact Or.inr rfl
    | writesFirst count => exact absurd rfl (hsound count)
  · rw [run_call_of_not_writes hwrites]
    exact Or.inl rfl

section Life

variable {eventLogStore : EventLogStore} {spbStatusProvider : QuerySpbStatusProvider}
  {record : LeKeyRecord}

/-- **One event that does not name the id keeps the record**, whether `persist` throws or not. -/
theorem keeps_step {process : ResponderProcess} (h : Keeps record process) {event : LifeEvent}
    (hsound : event.Sound) (huntouched : ¬ event.Touches record.keyId) :
    Keeps record ((ResponderProcess.machine eventLogStore spbStatusProvider).step process event).2 := by
  obtain ⟨store, rfl, hmemory, records, hread, hfile⟩ := h
  cases event with
  | message received outcome =>
      rcases (ResponderProcess.up store).step_message received outcome with
        hsame | ⟨store', request, call, hup, hdecode, -, hasks, hstep⟩
      · rw [hsame]
        exact ⟨store, rfl, hmemory, records, hread, hfile⟩
      · obtain rfl := ResponderProcess.up.inj hup
        have hcall : ¬ call.Touches record.keyId :=
          fun htouches => huntouched ⟨request, call, hdecode, hasks, htouches⟩
        have hafter : KeyedList.lookup LeKeyRecord.keyId (call.after store.keys) record.keyId
            = some record := (StoreCall.lookup_after hcall).trans hmemory
        refine ⟨_, hstep, ?_⟩
        rw [JsonlLeKeyStore.keys_run_call]
        refine ⟨hafter, ?_⟩
        rcases JsonlLeKeyStore.file_run_call_of_sound store call hsound with hfileSame | hwritten
        · rw [hfileSame]
          exact ⟨records, hread, hfile⟩
        · rw [hwritten]
          exact ⟨call.after store.keys, readKeys_jsonlText _, hafter⟩
  | restart opens =>
      -- the constructor reads what the file holds
      rcases (ResponderProcess.up store).step_restart opens with ⟨-, hnone⟩ | ⟨keys, -, hkeys, hstep⟩
      · exact absurd hread (hnone records hsound)
      · obtain rfl := Except.ok.inj (hkeys.symm.trans hread)
        exact ⟨_, hstep, hfile, keys, hread, hfile⟩

theorem keeps_after {process : ResponderProcess} (h : Keeps record process) {events : List LifeEvent}
    (hsound : ∀ event ∈ events, event.Sound)
    (huntouched : ∀ event ∈ events, ¬ event.Touches record.keyId) :
    Keeps record
      ((ResponderProcess.machine eventLogStore spbStatusProvider).after process events) :=
  Machine.invariant_after (P := Keeps record) (fun _ event hevent hprocess =>
    keeps_step hprocess (hsound event hevent) (huntouched event hevent)) h

/-- A load answered successful put its records into the vector and the file. -/
theorem keeps_of_successful_load {outcome : OfstreamOutcome} {received : ReceivedMessage}
    {store : JsonlLeKeyStore} {request : StandardRequest} {keys : List LeKeyRecord}
    (hdecode : decodeRequestFrame received.2 = .ok request)
    (hload : AsmService.Asks request (.loadKeys keys))
    (hsuccessful : ((AsmService.persistent eventLogStore spbStatusProvider outcome).receiveOn
      received.1 received.2 store).1.response.responseCode = .successful)
    (hsound : ∀ count, outcome ≠ .writesFirst count)
    (hrecord : KeyedList.lookup LeKeyRecord.keyId keys.reverse record.keyId = some record) :
    Keeps record (.up ((AsmService.persistent eventLogStore spbStatusProvider outcome).receiveOn
      received.1 received.2 store).2) := by
  obtain ⟨call, hreceived⟩ := received_of_successful_change hdecode
    (by rw [hload.1]; simp [keyChanges]) hsuccessful
  obtain ⟨hdecode', hid, -⟩ := AsmService.received_eq_ask_iff.1 hreceived
  obtain ⟨-, rfl⟩ := AsmService.Plan.ask.inj
    (hreceived.symm.trans (AsmService.received_eq_ask_iff.2 ⟨hdecode', hid, hload⟩))
  rcases JsonlLeKeyStore.run_call_cases outcome store (.loadKeys keys) with
    ⟨store', hrun, -⟩ | ⟨-, hrun⟩
  · have hreceive := @AsmService.receiveOn_of_ask _ (AsmService.persistent eventLogStore
      spbStatusProvider outcome) _ _ _ _ _ _ _ hreceived hrun
    rw [hreceive] at hsuccessful ⊢
    -- an answer without Overflow
    have hfits : ¬ wouldOverflow keys store.keys kCapacity = true := by
      intro hoverflow
      simp [AsmService.keyReply, answerTo, StoreCall.answer, StoreAnswer.flagValue, hoverflow]
        at hsuccessful
    have hlookup : KeyedList.lookup LeKeyRecord.keyId
        ((StoreCall.loadKeys keys).after store.keys) record.keyId = some record := by
      rw [StoreCall.after, if_neg hfits, KeyedList.lookup_upsertAll, hrecord, Option.some_or]
    have hwrites : (StoreCall.loadKeys keys).writes store.keys := hfits
    rw [JsonlLeKeyStore.run_call_of_writes hwrites] at hrun
    cases outcome with
    | openFails => injection hrun
    | writesFirst count => exact absurd rfl (hsound count)
    | writesAll =>
        injection hrun with _ hstore
        subst hstore
        exact ⟨_, rfl, hlookup, _, readKeys_jsonlText _, hlookup⟩
  · have hreceive := @AsmService.receiveOn_of_throw _ (AsmService.persistent eventLogStore
      spbStatusProvider outcome) _ _ _ _ _ _ _ hreceived hrun
    rw [hreceive] at hsuccessful
    cases hsuccessful

/-- **A key that was told loaded stays.** Whatever happened before: after a load answered successful,
    and while no later message names the id of one of its records or purges all, that record is the one
    for its id, in memory and in the file, over any number of restarts, of messages answered with an
    error, and of `persist` calls that throw because the file does not open. -/
theorem loaded_key_is_kept (eventLogStore : EventLogStore)
    (spbStatusProvider : QuerySpbStatusProvider) (file : Option StdString) (before later : List LifeEvent)
    (received : ReceivedMessage) (outcome : OfstreamOutcome) (result : ServiceResult)
    (request : StandardRequest) (keys : List LeKeyRecord) (record : LeKeyRecord)
    (hanswer : ((ResponderProcess.machine eventLogStore spbStatusProvider).step
      ((ResponderProcess.machine eventLogStore spbStatusProvider).after (.down file) before)
      (.message received outcome)).1 = some result)
    (hdecode : decodeRequestFrame received.2 = .ok request)
    (hload : AsmService.Asks request (.loadKeys keys))
    (hsuccessful : result.response.responseCode = .successful)
    (hrecord : KeyedList.lookup LeKeyRecord.keyId keys.reverse record.keyId = some record)
    (hsound : ∀ event ∈ .message received outcome :: later, event.Sound)
    (huntouched : ∀ event ∈ later, ¬ event.Touches record.keyId) :
    Keeps record ((ResponderProcess.machine eventLogStore spbStatusProvider).after (.down file)
      (before ++ .message received outcome :: later)) := by
  rw [Machine.after_append, Machine.after_cons]
  cases hprocess : (ResponderProcess.machine eventLogStore spbStatusProvider).after (.down file)
      before with
  | down file' =>
      rw [hprocess] at hanswer
      cases hanswer
  | up store =>
      rw [hprocess] at hanswer
      have hreceive : ((AsmService.persistent eventLogStore spbStatusProvider outcome).receiveOn
          received.1 received.2 store).1 = result := Option.some.inj hanswer
      rw [← hreceive] at hsuccessful
      have hloaded : Keeps record (.up ((AsmService.persistent eventLogStore spbStatusProvider
          outcome).receiveOn received.1 received.2 store).2) :=
        keeps_of_successful_load hdecode hload hsuccessful (hsound _ List.mem_cons_self) hrecord
      exact keeps_after hloaded (fun event hevent => hsound event (List.mem_cons_of_mem _ hevent))
        huntouched

/-- A restart and a purge of another id, whose `persist` does not open the file, after the load of 7. -/
theorem loaded_key_is_kept_purge :
    Keeps (blankKey 8) ((ResponderProcess.machine (.ofEvents []) { currentStatus := .notPlaying }).after
      (.down none) [.restart true, .message (0, twoKeysFrame) .writesAll, .restart true,
        .message (0, purgeFrame) .openFails]) := by
  refine loaded_key_is_kept (.ofEvents []) { currentStatus := .notPlaying } none [.restart true]
    [.restart true, .message (0, purgeFrame) .openFails] (0, twoKeysFrame) .writesAll
    { response := { command := .leKeyLoad, requestId := some 1, payload := [0],
                    responseCode := .successful }, note := "LEKeyLoad handled" }
    { command := .leKeyLoad, requestId := 1
      payload := LeKeyPayloadCodec.encodeLoadRequest [blankKey 7, blankKey 8] }
    [blankKey 7, blankKey 8] (blankKey 8) rfl rfl ⟨rfl, rfl⟩ rfl rfl ?_ ?_
  · simp [LifeEvent.Sound]
  · intro event hmem
    rcases List.mem_pair.1 hmem with rfl | rfl
    · exact not_false
    · rintro ⟨request, call, hdecode, hasks, htouches⟩
      -- the message purges the id 7
      have hpurge : ({ command := .leKeyPurgeId, requestId := 2, payload := u32Bytes 7 }
          : StandardRequest) = request := Except.ok.inj hdecode
      subst hpurge
      cases call with
      | purgeKey purged =>
          obtain rfl : purged = 8 := htouches
          exact absurd hasks.2 (by decide)
      | loadKeys keys => cases hasks.1
      | containsKey keyId => exact htouches
      | listKeyIds => exact htouches
      | purgeAll => cases hasks.1

end Life

end AsmProto
