import AsmProto.Atomicity

set_option autoImplicit false

/-! # Retried key requests

A client that misses a reply has to send its request again. Every key request makes at most one call
of the store, and a store settles: the second of two equal calls returns and leaves the state as it
was. This holds of any key vector, also one that a file filled with repeated ids or beyond the
capacity. -/

namespace AsmProto

variable {σ : Type}

/-- The call returns, and returns again without a change; a load that fitted fits again. -/
def LeKeyStore.Settles (store : LeKeyStore σ) (call : StoreCall) (s : σ) : Prop :=
  ∃ answer s' answer', (store.call call).run s = .ok answer s' ∧
    (store.call call).run s' = .ok answer' s' ∧
    ∀ incoming, call = .loadKeys incoming → answer.flagValue = false → answer'.flagValue = false

/-- What the answers of the two calls have in common. -/
theorem StoreCall.flagValue_answer_after {keys : List LeKeyRecord} {call : StoreCall}
    {incoming : List LeKeyRecord} (hload : call = .loadKeys incoming)
    (h : (call.answer keys).flagValue = false) :
    (call.answer (call.after keys)).flagValue = false := by
  subst hload
  have hfits : (StoreCall.loadKeys incoming).answer keys = .flag false := by
    rw [answer, StoreAnswer.flagValue] at h
    rw [answer, h]
  rw [StoreCall.answer_after_loadKeys hfits, StoreAnswer.flagValue]

theorem InMemoryLeKeyStore.settles (call : StoreCall) (self : InMemoryLeKeyStore) :
    InMemoryLeKeyStore.toStore.Settles call self := by
  refine ⟨_, _, _, run_call call self, ?_, fun _ hload h =>
    StoreCall.flagValue_answer_after hload h⟩
  rw [run_call, StoreCall.after_after]

/-- Whatever the file held before: the first call that writes makes it the text of the vector, and the
    second writes the same text, or nothing. -/
theorem JsonlLeKeyStore.settles (call : StoreCall) (self : JsonlLeKeyStore) :
    (JsonlLeKeyStore.toStore .writesAll).Settles call self := by
  by_cases hwrites : call.writes self.keys
  · have hrun : ((toStore .writesAll).call call).run self = .ok (call.answer self.keys)
        { file := some (jsonlText (call.after self.keys)), keys := call.after self.keys } :=
      run_call_of_writes hwrites
    refine ⟨_, _, call.answer (call.after self.keys), hrun, ?_, fun _ hload h =>
      StoreCall.flagValue_answer_after hload h⟩
    by_cases hagain : call.writes (call.after self.keys)
    · rw [run_call_of_writes hagain, persisted, StoreCall.after_after]
      rfl
    · exact run_call_of_not_writes hagain
  · have hrun : ((toStore .writesAll).call call).run self = .ok (call.answer self.keys) self :=
      run_call_of_not_writes hwrites
    exact ⟨_, self, _, hrun, hrun, fun _ _ h => h⟩

/-! ## The handlers -/

section Handle

variable {service : AsmService σ} {now : UInt64} {request : StandardRequest} {rawRequest : List UInt8}

theorem run_handleRequest_of_asks {call : StoreCall} (hid : request.requestId ≠ 0)
    (hasks : AsmService.Asks request call) {store store' : σ} {answer : StoreAnswer}
    (hcall : (service.leKeyStore.call call).run store = .ok answer store') :
    (service.handleRequest now request rawRequest).run store
      = .ok (AsmService.keyReply request call answer) store' := by
  have hplan : service.plan now request rawRequest = .ok (.ask request call) :=
    AsmService.plan_eq_ask_iff.2 ⟨rfl, hid, hasks⟩
  rw [AsmService.run_handleRequest, hplan]
  simp only [AsmService.Plan.run, EStateM.run_bind, hcall]
  rfl

/-- A request that asks for no call leaves the store alone. -/
theorem state_handleRequest_of_not_asks
    (h : ∀ call, request.requestId ≠ 0 → ¬ AsmService.Asks request call) (store : σ) :
    ((service.handleRequest now request rawRequest).run store).state = store := by
  rw [AsmService.run_handleRequest]
  cases hplan : service.plan now request rawRequest with
  | error ex => rfl
  | ok plan =>
      cases plan with
      | reply result => rfl
      | ask request' call =>
          obtain ⟨rfl, hid, hasks⟩ := AsmService.plan_eq_ask_iff.1 hplan
          exact absurd hasks (h call hid)

/-- A load that is answered successful asked for a call. -/
theorem asks_of_successful_load {store store' : σ} {result : ServiceResult}
    (hcommand : request.command = .leKeyLoad)
    (hrun : (service.handleRequest now request rawRequest).run store = .ok result store')
    (hsuccessful : result.response.responseCode = .successful) :
    ∃ incoming, request.requestId ≠ 0 ∧ AsmService.Asks request (.loadKeys incoming) := by
  rw [AsmService.run_handleRequest, AsmService.plan] at hrun
  by_cases hid : request.requestId = 0
  · rw [if_pos hid] at hrun
    injection hrun with hresult
    rw [← hresult, AsmService.badRequest] at hsuccessful
    simp at hsuccessful
  · rw [if_neg hid, hcommand] at hrun
    cases hpayload : LeKeyPayloadCodec.decodeLoadRequest request.payload with
    | error ex => simp [hpayload] at hrun
    | ok incoming => exact ⟨incoming, hid, hcommand, hpayload⟩

/-- Handling the request again, at any later time, changes nothing more; and a load that was answered
    successful is answered so again. -/
structure SafeRetry (service : AsmService σ) (now now' : UInt64) (request : StandardRequest)
    (rawRequest : List UInt8) (store : σ) : Prop where
  unchanged : ((service.handleRequest now' request rawRequest).run
      ((service.handleRequest now request rawRequest).run store).state).state
    = ((service.handleRequest now request rawRequest).run store).state
  successful : ∀ result store', request.command = .leKeyLoad →
    (service.handleRequest now request rawRequest).run store = .ok result store' →
    result.response.responseCode = .successful →
      ∃ result', (service.handleRequest now' request rawRequest).run store' = .ok result' store' ∧
        result'.response.responseCode = .successful

/-- **Requests to a store that settles are safe to retry.** -/
theorem safeRetry_of_settles {store : σ}
    (hsettles : ∀ call, service.leKeyStore.Settles call store) (now' : UInt64) :
    SafeRetry service now now' request rawRequest store := by
  refine ⟨?_, fun result store'' hcommand hrun hsuccessful => ?_⟩
  · by_cases hask : ∃ call, request.requestId ≠ 0 ∧ AsmService.Asks request call
    · obtain ⟨call, hid, hasks⟩ := hask
      obtain ⟨answer, store', answer', hcall, hcall', -⟩ := hsettles call
      rw [run_handleRequest_of_asks hid hasks hcall, EStateM.Result.state_ok,
        run_handleRequest_of_asks hid hasks hcall', EStateM.Result.state_ok]
    · have hnone : ∀ call, request.requestId ≠ 0 → ¬ AsmService.Asks request call :=
        fun call hid hasks => hask ⟨call, hid, hasks⟩
      rw [state_handleRequest_of_not_asks hnone, state_handleRequest_of_not_asks hnone]
  · obtain ⟨incoming, hid, hasks⟩ := asks_of_successful_load hcommand hrun hsuccessful
    obtain ⟨answer, store', answer', hcall, hcall', hload⟩ := hsettles (.loadKeys incoming)
    rw [run_handleRequest_of_asks hid hasks hcall] at hrun
    injection hrun with hresult hstore
    subst hresult hstore
    have hfits : answer.flagValue = false := by
      by_contra hoverflow
      rw [Bool.not_eq_false] at hoverflow
      simp [AsmService.keyReply, answerTo, hoverflow] at hsuccessful
    refine ⟨_, run_handleRequest_of_asks hid hasks hcall', ?_⟩
    simp [AsmService.keyReply, answerTo, hload incoming rfl hfits]

end Handle

/-- **Key requests are safe to retry.** Over both stores, the second with files that work, whatever the
    vector and the file hold: handling any request twice leaves the records in their order, and the
    file, as handling it once does, and a load answered successful the first time is answered
    successful the second time. -/
theorem key_requests_safe_to_retry (eventLogStore : EventLogStore)
    (spbStatusProvider : QuerySpbStatusProvider) (now now' : UInt64) (request : StandardRequest)
    (rawRequest : List UInt8) :
    (∀ self, SafeRetry (AsmService.inMemory eventLogStore spbStatusProvider) now now' request
      rawRequest self) ∧
    ∀ self, SafeRetry (AsmService.persistent eventLogStore spbStatusProvider .writesAll) now now'
      request rawRequest self :=
  ⟨fun self => safeRetry_of_settles (fun call => InMemoryLeKeyStore.settles call self) now',
    fun self => safeRetry_of_settles (fun call => JsonlLeKeyStore.settles call self) now'⟩

end AsmProto
