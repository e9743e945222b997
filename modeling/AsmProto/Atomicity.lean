import AsmProto.LeKey.JsonlStore
import AsmProto.ServerReply

set_option autoImplicit false

/-! # Failed calls of the persistent store

Every mutator changes the vector before `persist` can throw. A call that throws is therefore undone
only where it had nothing to change (`StoreCall.Repeats`); anywhere else a later call, or the file a
later `persist` writes, shows the records of the failed one. -/

namespace AsmProto

/-- The call leaves the vector as it is: a load that overflows or repeats the stored records, a purge
    of an id that is not stored, a purge of nothing. -/
def StoreCall.Repeats (keys : List LeKeyRecord) : StoreCall → Prop
  | .loadKeys incoming => wouldOverflow incoming keys kCapacity = true ∨
      ∀ key ∈ incoming, KeyedList.lookup LeKeyRecord.keyId keys key.keyId
        = KeyedList.lookup LeKeyRecord.keyId incoming.reverse key.keyId
  | .containsKey _ => True
  | .listKeyIds => True
  | .purgeKey keyId => keyId ∉ keys.map LeKeyRecord.keyId
  | .purgeAll => keys = []

theorem StoreCall.after_eq_self_iff {keys : List LeKeyRecord} {call : StoreCall} :
    call.after keys = keys ↔ call.Repeats keys := by
  cases call with
  | loadKeys incoming =>
      rw [after, Repeats]
      split
      · next hoverflow => exact iff_of_true rfl (Or.inl hoverflow)
      · next hfits =>
          rw [KeyedList.upsertAll_eq_self_iff]
          exact ⟨Or.inr, fun h => h.resolve_left hfits⟩
  | containsKey keyId => exact iff_of_true rfl trivial
  | listKeyIds => exact iff_of_true rfl trivial
  | purgeKey keyId => exact KeyedList.eraseKey_eq_self_iff LeKeyRecord.keyId
  | purgeAll => exact eq_comm

namespace JsonlLeKeyStore

/-! ## What later calls show -/

/-- The answers and exceptions of later calls, each with the outcome its `persist` meets, and the
    file they leave, which is all a store opened on it sees. -/
def observe (self : JsonlLeKeyStore) :
    List (StoreCall × OfstreamOutcome) → List (Except StdException StoreAnswer) × Option StdString
  | [] => ([], self.file)
  | (call, outcome) :: calls =>
      match ((toStore outcome).call call).run self with
      | .ok answer self' => ((observe self' calls).1.cons (.ok answer), (observe self' calls).2)
      | .error ex self' => ((observe self' calls).1.cons (.error ex), (observe self' calls).2)

/-- No later call and no reopening tells the two stores apart. -/
def SameFuture (self self' : JsonlLeKeyStore) : Prop :=
  ∀ calls, observe self calls = observe self' calls

theorem keyIds_of_sameFuture {self self' : JsonlLeKeyStore} (h : SameFuture self self') :
    self.keys.map LeKeyRecord.keyId = self'.keys.map LeKeyRecord.keyId := by
  have hrun : ∀ s, ((toStore .writesAll).call .listKeyIds).run s
      = .ok (.ids (s.keys.map LeKeyRecord.keyId)) s := fun s => rfl
  have hlist := congrArg Prod.fst (h [(.listKeyIds, .writesAll)])
  simpa only [observe, hrun, List.cons.injEq, Except.ok.injEq, StoreAnswer.ids.injEq, and_true]
    using hlist

/-- An empty load writes the whole vector out, unless it is over capacity. -/
theorem file_of_observe_empty_load {self : JsonlLeKeyStore} (h : self.keys.length ≤ kCapacity) :
    (observe self [(.loadKeys [], .writesAll)]).2 = some (jsonlText self.keys) := by
  have hwrites : (StoreCall.loadKeys []).writes self.keys := by
    rw [StoreCall.writes, wouldOverflow_of_subset (by simp)]
    exact Nat.not_lt.2 h
  have hfits : ¬ wouldOverflow [] self.keys kCapacity = true := hwrites
  simp only [observe, run_call_of_writes hwrites, persisted, OfstreamOutcome.write, StoreCall.after,
    if_neg hfits, KeyedList.upsertAll_nil]

/-- Later calls show the records of a vector within capacity. -/
theorem keys_of_sameFuture {self self' : JsonlLeKeyStore} (h : SameFuture self self')
    (hcapacity : self.keys.length ≤ kCapacity) : self.keys = self'.keys := by
  have hlength := congrArg List.length (keyIds_of_sameFuture h)
  rw [List.length_map, List.length_map] at hlength
  have hfile := congrArg Prod.snd (h [(.loadKeys [], .writesAll)])
  rw [file_of_observe_empty_load hcapacity, file_of_observe_empty_load (hlength ▸ hcapacity),
    Option.some.injEq] at hfile
  have hread := congrArg readKeys hfile
  rwa [readKeys_jsonlText, readKeys_jsonlText, Except.ok.injEq] at hread

/-- A vector that a call changed is told apart from the one before the call. -/
theorem sameFuture_after_iff {self : JsonlLeKeyStore} {call : StoreCall} :
    SameFuture self { self with keys := call.after self.keys } ↔ call.Repeats self.keys := by
  rw [← StoreCall.after_eq_self_iff]
  constructor
  · intro h
    have hids := keyIds_of_sameFuture h
    have hlength := congrArg List.length hids
    rw [List.length_map, List.length_map] at hlength
    cases call with
    | loadKeys incoming =>
        -- a load that fits leaves at most sixteen records, so they can all be written out
        by_cases hoverflow : wouldOverflow incoming self.keys kCapacity = true
        · rw [StoreCall.after, if_pos hoverflow]
        · refine (keys_of_sameFuture h ?_).symm
          rw [hlength]
          simp only [StoreCall.after, if_neg hoverflow]
          exact length_upsertAll_le hoverflow
    | containsKey keyId => rfl
    | listKeyIds => rfl
    | purgeKey keyId =>
        -- the id batch alone shows a record that is gone
        exact (KeyedList.eraseKey_eq_self_iff LeKeyRecord.keyId).2
          ((KeyedList.length_eraseKey_eq_iff LeKeyRecord.keyId).1 hlength.symm)
    | purgeAll => exact (List.eq_nil_of_length_eq_zero hlength).symm
  · intro h
    rw [h]
    exact fun _ => rfl

/-! ## Calls that throw -/

variable {outcome : OfstreamOutcome} {self : JsonlLeKeyStore} {call : StoreCall}

/-- A call throws exactly when it sets the vector and the file does not open; the vector is then
    the one the call means, and the file the old one. -/
theorem run_call_cases (outcome : OfstreamOutcome) (self : JsonlLeKeyStore) (call : StoreCall) :
    (∃ self', ((toStore outcome).call call).run self = .ok (call.answer self.keys) self' ∧
      (outcome ≠ .openFails ∨ call.Repeats self.keys)) ∨
    (outcome = .openFails ∧
      ((toStore outcome).call call).run self
        = .error (.asmError "failed to persist LEKey JSONL store")
            { self with keys := call.after self.keys }) := by
  by_cases hwrites : call.writes self.keys
  · cases outcome with
    | openFails => exact Or.inr ⟨rfl, run_call_of_writes hwrites⟩
    | writesAll => exact Or.inl ⟨_, run_call_of_writes hwrites, Or.inl (by simp)⟩
    | writesFirst count => exact Or.inl ⟨_, run_call_of_writes hwrites, Or.inl (by simp)⟩
  · exact Or.inl ⟨self, run_call_of_not_writes hwrites,
      Or.inr (StoreCall.after_eq_self_iff.1 (StoreCall.after_of_not_writes hwrites))⟩

/-- **A call that throws leaves the store as it was** exactly when it had nothing to change. -/
theorem state_of_threw_iff :
    ((((toStore outcome).call call).run self).Threw →
      (((toStore outcome).call call).run self).state = self) ↔
      outcome ≠ .openFails ∨ call.Repeats self.keys := by
  rcases run_call_cases outcome self call with ⟨self', hrun, hcondition⟩ | ⟨rfl, hrun⟩
  · rw [hrun]
    exact iff_of_true (fun h => absurd h (EStateM.Result.threw_ok _ _)) hcondition
  · rw [hrun, ← StoreCall.after_eq_self_iff]
    obtain ⟨file, keys⟩ := self
    simp

end JsonlLeKeyStore

/-! ## Requests answered with BadRequest -/

/-- A service over the persistent store, while `persist` meets the given outcome. -/
def AsmService.persistent (eventLogStore : EventLogStore) (spbStatusProvider : QuerySpbStatusProvider)
    (outcome : OfstreamOutcome) : AsmService JsonlLeKeyStore where
  eventLogStore := eventLogStore
  leKeyStore := JsonlLeKeyStore.toStore outcome
  spbStatusProvider := spbStatusProvider

section Request

variable {service : AsmService JsonlLeKeyStore} {outcome : OfstreamOutcome} {now : UInt64}
  {self : JsonlLeKeyStore} {message : ByteBuffer}

/-- Every answer of the store but the id batch is sent as it is. -/
theorem producedResponse_of_ask {σ : Type} {service : AsmService σ} {store store' : σ}
    {request : StandardRequest} {call : StoreCall} {answer : StoreAnswer}
    (hdecode : decodeRequestFrame message = .ok request) (hid : request.requestId ≠ 0)
    (hasks : AsmService.Asks request call)
    (hcall : (service.leKeyStore.call call).run store = .ok answer store')
    (hids : call ≠ .listKeyIds) :
    TlsServer.producedResponse service now store message
      = (AsmService.keyReply request call answer).response := by
  have hresponse := keyReply_response hasks answer
  have hlength := keyReply_payload_length_le hids request answer
  refine producedResponse_of_regular
    ⟨request, _, _, hdecode, hid, .key call hasks answer store' hcall, hresponse⟩ ?_
  rw [hresponse, regularResponse_value_length, Klv.maxLength]
  omega

/-- **A request answered with BadRequest has no effect on later answers and files** exactly when the
    call it makes, if any, does not throw or has nothing to change. -/
theorem sameFuture_of_badRequest_iff (hstore : service.leKeyStore = JsonlLeKeyStore.toStore outcome) :
    ((TlsServer.producedResponse service now self message).command = .badRequest →
      JsonlLeKeyStore.SameFuture self (service.receiveOn now message self).2) ↔
    ∀ request call, decodeRequestFrame message = .ok request → request.requestId ≠ 0 →
      AsmService.Asks request call → outcome ≠ .openFails ∨ call.Repeats self.keys := by
  cases hreceived : service.received now message with
  | reply result =>
      refine iff_of_true (fun _ => ?_) (fun request call hdecode hid hasks => ?_)
      · rw [AsmService.receiveOn_of_reply hreceived]
        exact fun _ => rfl
      · exact absurd hasks (AsmService.not_asks_of_reply hreceived hdecode hid)
  | ask request call =>
      obtain ⟨hdecode, hid, hasks⟩ := AsmService.received_eq_ask_iff.1 hreceived
      rw [AsmService.forall_asks_iff hreceived fun call =>
        outcome ≠ .openFails ∨ call.Repeats self.keys]
      rcases JsonlLeKeyStore.run_call_cases outcome self call with
        ⟨self', hrun, hcondition⟩ | ⟨hopen, hrun⟩
      · rw [← hstore] at hrun
        refine iff_of_true (fun hbad => ?_) hcondition
        by_cases hids : call = .listKeyIds
        · subst hids
          have hsame : self' = self := by
            rw [hstore] at hrun
            injection hrun with _ hself
            exact hself.symm
          rw [AsmService.receiveOn_of_ask hreceived hrun, hsame]
          exact fun _ => rfl
        · rw [producedResponse_of_ask hdecode hid hasks hrun hids, keyReply_response hasks] at hbad
          exact absurd hbad (command_ne_badRequest hdecode)
      · rw [← hstore] at hrun
        have hbad : (TlsServer.producedResponse service now self message).command = .badRequest := by
          rw [TlsServer.producedResponse, AsmService.receiveOn_of_throw hreceived hrun,
            TlsServer.sentResponse]
          split <;> rfl
        rw [AsmService.receiveOn_of_throw hreceived hrun, ← JsonlLeKeyStore.sameFuture_after_iff]
        exact ⟨fun h => Or.inr (h hbad), fun h _ => h.resolve_left (not_not.2 hopen)⟩

end Request

/-- **When failed key operations are atomic.** A call that throws leaves the vector and the file alone,
    and a request answered with BadRequest is without effect on all later calls and reopenings,
    exactly when the file opens for `persist` or the call leaves the vector as it is anyway. -/
theorem failed_calls_atomic_iff (outcome : OfstreamOutcome) (self : JsonlLeKeyStore) :
    (∀ call, ((((JsonlLeKeyStore.toStore outcome).call call).run self).Threw →
        (((JsonlLeKeyStore.toStore outcome).call call).run self).state = self) ↔
      outcome ≠ .openFails ∨ call.Repeats self.keys) ∧
    ∀ eventLogStore spbStatusProvider now message,
      ((TlsServer.producedResponse
            (AsmService.persistent eventLogStore spbStatusProvider outcome) now self message).command
          = .badRequest →
        JsonlLeKeyStore.SameFuture self
          ((AsmService.persistent eventLogStore spbStatusProvider outcome).receiveOn now message
            self).2) ↔
      ∀ request call, decodeRequestFrame message = .ok request → request.requestId ≠ 0 →
        AsmService.Asks request call → outcome ≠ .openFails ∨ call.Repeats self.keys :=
  ⟨fun _ => JsonlLeKeyStore.state_of_threw_iff, fun _ _ _ _ => sameFuture_of_badRequest_iff rfl⟩

/-- A load whose `persist` cannot open the file throws and keeps its record in memory. -/
theorem failed_load_keeps_record :
    (((JsonlLeKeyStore.toStore .openFails).call (.loadKeys [blankKey 7])).run
      { file := some [] }).Threw ∧
    (((JsonlLeKeyStore.toStore .openFails).call (.loadKeys [blankKey 7])).run
      { file := some [] }).state = { file := some [], keys := [blankKey 7] } ∧
    ({ file := some [], keys := [blankKey 7] } : JsonlLeKeyStore) ≠ { file := some [] } :=
  ⟨trivial, rfl, by decide⟩

end AsmProto
