import AsmProto.Replies

set_option autoImplicit false

/-! # The key answers follow the history

A conversation with a service whose key store is in memory: any messages, well formed or not. What
each exchange did to the keys is read off the message and its response alone (`Exchange.op`), and
`Lib/KeyedHistory.lean` says which keys such a history leaves. The store is proved to hold exactly
those. -/

namespace AsmProto

/-- A received byte string and the response it was answered with. -/
structure Exchange where
  message : ByteBuffer
  response : StandardResponse
deriving DecidableEq

/-- What an exchange did to the keys: a load, a purge of one id or a purge of all that was answered
    successful, or nothing. -/
def Exchange.op (exchange : Exchange) : KeyedList.Op LeKeyRecord UInt32 :=
  match decodeRequestFrame exchange.message with
  | .error _ => .skip
  | .ok request =>
      if exchange.response.command = request.command ∧
          exchange.response.responseCode = .successful then
        match request.command with
        | .leKeyLoad =>
            match LeKeyPayloadCodec.decodeLoadRequest request.payload with
            | .ok keys => .load keys
            | .error _ => .skip
        | .leKeyPurgeId =>
            match LeKeyPayloadCodec.decodePurgeIdRequest request.payload with
            | .ok keyId => .erase keyId
            | .error _ => .skip
        | .leKeyPurgeAll => .clear
        | _ => .skip
      else .skip

/-- The exchanges of a conversation, and the store it leaves. Each message comes with the time it is
    received at. -/
def AsmService.converse {σ : Type} (service : AsmService σ) (store : σ)
    (messages : List (UInt64 × ByteBuffer)) : List Exchange × σ :=
  ((service.machine.log store messages).map fun step =>
      { message := step.1.2, response := step.2.response },
    service.machine.after store messages)

/-- The answers that turn a message down: BadRequest, `invalid`, and the Overflow of a load. -/
def Refuses (response : StandardResponse) : Prop :=
  response.command = .badRequest ∨ response.responseCode = .invalid ∨
    (response.command = .leKeyLoad ∧
      response.payload = LeKeyPayloadCodec.encodeLoadResponse true)

/-- The service answers every key query from `keyIds`, in every message that asks for one. -/
structure AnswersFrom {σ : Type} (service : AsmService σ) (store : σ) (keyIds : List UInt32) : Prop where
  queryId : ∀ now message request keyId, decodeRequestFrame message = .ok request →
    request.requestId ≠ 0 → request.command = .leKeyQueryId → request.payload = u32Bytes keyId →
    (service.receiveOn now message store).1.response
      = regularResponse request [if keyId ∈ keyIds then 1 else 0] .successful
  queryAll : ∀ now message request, decodeRequestFrame message = .ok request →
    request.requestId ≠ 0 → request.command = .leKeyQueryAll → request.payload = [] →
    (service.receiveOn now message store).1.response
      = regularResponse request (LeKeyPayloadCodec.encodeQueryAllResponse keyIds) .successful
  purgeId : ∀ now message request keyId, decodeRequestFrame message = .ok request →
    request.requestId ≠ 0 → request.command = .leKeyPurgeId → request.payload = u32Bytes keyId →
    (service.receiveOn now message store).1.response
      = regularResponse request [if keyId ∈ keyIds then 0 else 1] .successful

section Exchange

variable {service : AsmService InMemoryLeKeyStore} {now : UInt64} {message : ByteBuffer}
  {store : InMemoryLeKeyStore}

/-- A message that is answered at once does nothing to the keys. -/
theorem op_of_reply {result : ServiceResult} (h : service.received now message = .reply result) :
    Exchange.op { message := message, response := result.response } = .skip := by
  unfold AsmService.received at h
  unfold Exchange.op
  cases hdecode : decodeRequestFrame message with
  | error ex => rfl
  | ok request =>
      have hbad : .badRequest ≠ request.command := (command_ne_badRequest hdecode).symm
      simp only [hdecode, Except.ok_bind] at h ⊢
      split at h
      · next plan hplan =>
          subst h
          unfold AsmService.plan at hplan
          by_cases hid : request.requestId = 0
          · -- BadRequest is no command a message can have
            rw [if_pos hid, Except.ok.injEq, AsmService.Plan.reply.injEq] at hplan
            subst hplan
            rw [if_neg (fun hc => hbad hc.1)]
          · rw [if_neg hid] at hplan
            cases hcommand : request.command with
            | leKeyLoad => simp [hcommand, Except.bind_eq_ok_iff] at hplan
            | leKeyPurgeId => simp [hcommand, Except.bind_eq_ok_iff] at hplan
            | leKeyPurgeAll =>
                simp only [hcommand] at hplan
                split at hplan
                · -- a surplus payload is answered `invalid`
                  rw [Except.ok.injEq, AsmService.Plan.reply.injEq] at hplan
                  subst hplan
                  rw [if_neg (fun hc => nomatch hc.2)]
                · simp at hplan
            | badRequest => simp
            | getTime => simp
            | getEventList => simp
            | getEventId => simp
            | querySpb => simp
            | leKeyQueryId => simp
            | leKeyQueryAll => simp
      · next ex hplan =>
          injection h with h
          subst h
          rw [if_neg (fun hc => hbad hc.1)]

/-- A message that asks the store does to the keys what the call does. -/
theorem op_of_ask {request : StandardRequest} {call : StoreCall} {keys : List LeKeyRecord}
    (hdecode : decodeRequestFrame message = .ok request) (hasks : AsmService.Asks request call) :
    (Exchange.op { message := message,
                   response := (AsmService.keyReply request call (call.answer keys)).response }).apply
      LeKeyRecord.keyId keys = call.after keys := by
  unfold Exchange.op
  simp only [hdecode]
  cases call with
  | loadKeys incoming =>
      simp only [hasks.1, hasks.2, AsmService.keyReply, answerTo, StoreCall.answer,
        StoreAnswer.flagValue, StoreCall.after]
      by_cases hoverflow : wouldOverflow incoming keys kCapacity = true
      · simp [hoverflow, KeyedList.Op.apply]
      · simp [hoverflow, KeyedList.Op.apply]
  | containsKey keyId => simp [hasks.1, KeyedList.Op.apply, StoreCall.after]
  | listKeyIds => simp [hasks.1, KeyedList.Op.apply, StoreCall.after]
  | purgeKey keyId =>
      have hpayload : LeKeyPayloadCodec.decodePurgeIdRequest request.payload = .ok keyId :=
        decodeIdPayload_eq_ok_iff.2 hasks.2
      simp [hasks.1, hpayload, AsmService.keyReply, answerTo, KeyedList.Op.apply, StoreCall.after]
  | purgeAll =>
      simp [hasks.1, AsmService.keyReply, answerTo, KeyedList.Op.apply, StoreCall.after]

variable (hstore : service.leKeyStore = InMemoryLeKeyStore.toStore)

include hstore

theorem run_call_of_inMemory (call : StoreCall) :
    (service.leKeyStore.call call).run store
      = .ok (call.answer store.keys) { keys := call.after store.keys } := by
  rw [hstore]
  exact InMemoryLeKeyStore.run_call call store

/-- **One exchange**: the store follows what the exchange shows. -/
theorem keys_receiveOn :
    (service.receiveOn now message store).2.keys
      = (Exchange.op { message := message,
                       response := (service.receiveOn now message store).1.response }).apply
          LeKeyRecord.keyId store.keys := by
  cases hreceived : service.received now message with
  | reply result =>
      rw [AsmService.receiveOn_of_reply hreceived, op_of_reply hreceived]
      rfl
  | ask request call =>
      obtain ⟨hdecode, -, hasks⟩ := AsmService.received_eq_ask_iff.1 hreceived
      rw [AsmService.receiveOn_of_ask hreceived (run_call_of_inMemory hstore call),
        op_of_ask hdecode hasks]

theorem keysValid_receiveOn (h : KeysValid store.keys) :
    KeysValid (service.receiveOn now message store).2.keys := by
  cases hreceived : service.received now message with
  | reply result =>
      rw [AsmService.receiveOn_of_reply hreceived]
      exact h
  | ask request call =>
      rw [AsmService.receiveOn_of_ask hreceived (run_call_of_inMemory hstore call)]
      exact h.after call

/-- A message that is turned down leaves the keys alone. -/
theorem receiveOn_of_refuses (h : Refuses (service.receiveOn now message store).1.response) :
    (service.receiveOn now message store).2 = store := by
  cases hreceived : service.received now message with
  | reply result => rw [AsmService.receiveOn_of_reply hreceived]
  | ask request call =>
      rw [AsmService.receiveOn_of_ask hreceived (run_call_of_inMemory hstore call)] at h ⊢
      cases call with
      | loadKeys incoming =>
          by_cases hoverflow : wouldOverflow incoming store.keys kCapacity = true
          · simp only [StoreCall.after, if_pos hoverflow]
          · -- a load that fits is answered successful, without Overflow
            simp [Refuses, AsmService.keyReply, answerTo, StoreCall.answer, StoreAnswer.flagValue,
              hoverflow, LeKeyPayloadCodec.encodeLoadResponse, LeKeyPayloadCodec.encodeFlag] at h
      | containsKey keyId => rfl
      | listKeyIds => rfl
      | purgeKey keyId => simp [Refuses, AsmService.keyReply, answerTo] at h
      | purgeAll => simp [Refuses, AsmService.keyReply, answerTo] at h

/-- The queries are answered from the stored keys. -/
theorem answersFrom_keys : AnswersFrom service store (store.keys.map LeKeyRecord.keyId) := by
  -- a request that asks is answered with its reply
  have hreply : ∀ {now message request call}, decodeRequestFrame message = .ok request →
      request.requestId ≠ 0 → AsmService.Asks request call →
      (service.receiveOn now message store).1.response
        = (AsmService.keyReply request call (call.answer store.keys)).response := by
    intro now message request call hdecode hid hasks
    exact response_of_ask hdecode hid hasks (run_call_of_inMemory hstore call)
  constructor
  · intro now message request keyId hdecode hid hcommand hpayload
    rw [@hreply _ _ _ (.containsKey keyId) hdecode hid ⟨hcommand, hpayload⟩]
    simp [AsmService.keyReply, answerTo, regularResponse, hcommand, StoreCall.answer,
      StoreAnswer.flagValue, LeKeyPayloadCodec.encodeQueryIdResponse, LeKeyPayloadCodec.encodeFlag]
  · intro now message request hdecode hid hcommand hpayload
    rw [@hreply _ _ _ .listKeyIds hdecode hid ⟨hcommand, hpayload⟩]
    simp [AsmService.keyReply, answerTo, regularResponse, hcommand, StoreCall.answer,
      StoreAnswer.idList]
  · intro now message request keyId hdecode hid hcommand hpayload
    rw [@hreply _ _ _ (.purgeKey keyId) hdecode hid ⟨hcommand, hpayload⟩]
    by_cases hmem : keyId ∈ store.keys.map LeKeyRecord.keyId
    · rw [if_pos hmem, StoreCall.answer, decide_eq_true hmem, regularResponse, hcommand]
      rfl
    · rw [if_neg hmem, StoreCall.answer, decide_eq_false hmem, regularResponse, hcommand]
      rfl

/-- **A whole conversation**: the keys are the history of its exchanges, replayed. -/
theorem keys_converse (messages : List (UInt64 × ByteBuffer)) :
    (service.converse store messages).2.keys
      = ((service.converse store messages).1.map Exchange.op).foldl
          (KeyedList.Op.apply LeKeyRecord.keyId) store.keys := by
  rw [AsmService.converse, List.map_map, List.foldl_map]
  exact Machine.view_after (fun _ _ => keys_receiveOn hstore) store messages

theorem keysValid_converse (h : KeysValid store.keys) (messages : List (UInt64 × ByteBuffer)) :
    KeysValid (service.converse store messages).2.keys :=
  Machine.invariant_after (P := fun store : InMemoryLeKeyStore => KeysValid store.keys)
    (fun _ _ _ hvalid => keysValid_receiveOn hstore hvalid) h

end Exchange

/-- **The LE key answers are those of the key map the history defines.** After any conversation the
    queries are answered from one list of ids: distinct, at most 16, present exactly when the history
    says so, each with its record from its latest load, in the order of insertion; and a message that
    is turned down changes nothing. -/
theorem key_answers_follow_history (eventLogStore : EventLogStore)
    (spbStatusProvider : QuerySpbStatusProvider) (messages : List (UInt64 × ByteBuffer)) :
    let service := AsmService.inMemory eventLogStore spbStatusProvider
    let store := (service.converse {} messages).2
    let history := (service.converse {} messages).1.map Exchange.op
    let keyIds := store.keys.map LeKeyRecord.keyId
    AnswersFrom service store keyIds ∧
    keyIds.Nodup ∧ keyIds.length ≤ 16 ∧
    (∀ keyId, keyId ∈ keyIds ↔ KeyedList.Present LeKeyRecord.keyId history keyId) ∧
    (∀ keyId ∈ keyIds, ∃ before batch after record,
      history = before ++ .load batch :: after ∧
      (∀ later ∈ after, ¬ later.Loads LeKeyRecord.keyId keyId ∧ ¬ KeyedList.Op.Removes keyId later) ∧
      KeyedList.lookup LeKeyRecord.keyId batch.reverse keyId = some record ∧
      KeyedList.records LeKeyRecord.keyId store.keys keyId = [record]) ∧
    (∀ keyId ∈ keyIds, ∃ step place,
      KeyedList.InsertedAt LeKeyRecord.keyId history keyId step place) ∧
    keyIds.Pairwise (KeyedList.InsertedBefore LeKeyRecord.keyId history) ∧
    (∀ now message, Refuses (service.receiveOn now message store).1.response →
      (service.receiveOn now message store).2 = store) := by
  intro service store history keyIds
  -- everything but the answers and the capacity is read off the replayed history
  have hkeys : store.keys = KeyedList.replay LeKeyRecord.keyId history := keys_converse rfl messages
  have hvalid : KeysValid store.keys := keysValid_converse rfl keysValid_nil messages
  have hpresent : ∀ keyId, keyId ∈ keyIds ↔ KeyedList.Present LeKeyRecord.keyId history keyId := by
    intro keyId
    rw [← KeyedList.mem_replay_iff, ← hkeys]
  refine ⟨answersFrom_keys rfl, hvalid.nodup, ?_, hpresent, ?_, ?_, ?_, ?_⟩
  · rw [List.length_map]
    exact hvalid.capacity
  · intro keyId hmem
    obtain ⟨before, batch, after, hhistory, hbatch, hafter⟩ :=
      KeyedList.exists_latest_load LeKeyRecord.keyId ((hpresent keyId).1 hmem)
    have hlookup : KeyedList.lookup LeKeyRecord.keyId store.keys keyId
        = KeyedList.lookup LeKeyRecord.keyId batch.reverse keyId := by
      rw [hkeys, hhistory]
      exact KeyedList.lookup_replay LeKeyRecord.keyId hbatch hafter
    obtain ⟨record, hrecord⟩ := Option.isSome_iff_exists.1
      ((KeyedList.lookup_isSome_iff LeKeyRecord.keyId).2 hmem)
    exact ⟨before, batch, after, record, hhistory, hafter, hlookup.symm.trans hrecord,
      KeyedList.records_of_nodup LeKeyRecord.keyId hvalid.nodup hrecord⟩
  · intro keyId hmem
    exact KeyedList.exists_insertedAt LeKeyRecord.keyId ((hpresent keyId).1 hmem)
  · have hordered := KeyedList.replay_ordered LeKeyRecord.keyId history
    rw [← hkeys] at hordered
    exact hordered
  · intro now message hrefuses
    exact receiveOn_of_refuses rfl hrefuses

end AsmProto
