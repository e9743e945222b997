import AsmProto.Atomicity

set_option autoImplicit false

/-! # The service over key vectors

A service is a machine over the states of its key store (`AsmService.machine`): each received byte
string gets a `ServiceResult`. What the result depends on is the key vector and nothing else of the
store (`keyMachine`), and both stores stand for their vector, the persistent one while its writes
succeed. What the service does in a whole run is therefore a matter of key vectors. -/

namespace AsmProto

variable {σ : Type}

namespace AsmService

/-- The service over a bare key vector: its plan for the message, carried out by what calls mean. -/
def keyMachine (service : AsmService σ) : Machine ReceivedMessage ServiceResult (List LeKeyRecord) where
  step keys received :=
    match service.received received.1 received.2 with
    | .reply result => (result, keys)
    | .ask request call => (keyReply request call (call.answer keys), call.after keys)

theorem keyMachine_step_of_reply {service : AsmService σ} {received : ReceivedMessage}
    {result : ServiceResult} (h : service.received received.1 received.2 = .reply result)
    (keys : List LeKeyRecord) : service.keyMachine.step keys received = (result, keys) := by
  simp only [keyMachine, h]

theorem keyMachine_step_of_ask {service : AsmService σ} {received : ReceivedMessage}
    {request : StandardRequest} {call : StoreCall}
    (h : service.received received.1 received.2 = .ask request call) (keys : List LeKeyRecord) :
    service.keyMachine.step keys received
      = (keyReply request call (call.answer keys), call.after keys) := by
  simp only [keyMachine, h]

end AsmService

/-- The store stands for a key vector: every call returns what it means for that vector. -/
def LeKeyStore.Means (store : LeKeyStore σ) (keysOf : σ → List LeKeyRecord) : Prop :=
  ∀ call s, ∃ s', (store.call call).run s = .ok (call.answer (keysOf s)) s' ∧
    keysOf s' = call.after (keysOf s)

theorem InMemoryLeKeyStore.means : toStore.Means InMemoryLeKeyStore.keys :=
  fun call self => ⟨_, run_call call self, rfl⟩

theorem JsonlLeKeyStore.means : (toStore .writesAll).Means JsonlLeKeyStore.keys := by
  intro call self
  by_cases hwrites : call.writes self.keys
  · exact ⟨_, run_call_of_writes hwrites, rfl⟩
  · exact ⟨self, run_call_of_not_writes hwrites, (StoreCall.after_of_not_writes hwrites).symm⟩

/-- **One message**: over a store that stands for a key vector, the service does what it does over
    the vector. -/
theorem receiveOn_of_means {service : AsmService σ} {keysOf : σ → List LeKeyRecord}
    (hmeans : service.leKeyStore.Means keysOf) (store : σ) (received : ReceivedMessage) :
    (service.machine.step store received).1 = (service.keyMachine.step (keysOf store) received).1 ∧
      keysOf (service.machine.step store received).2
        = (service.keyMachine.step (keysOf store) received).2 := by
  cases hreceived : service.received received.1 received.2 with
  | reply result =>
      rw [AsmService.keyMachine_step_of_reply hreceived, AsmService.machine_step,
        AsmService.receiveOn_of_reply hreceived]
      exact ⟨rfl, rfl⟩
  | ask request call =>
      obtain ⟨store', hcall, hkeys⟩ := hmeans call store
      rw [AsmService.keyMachine_step_of_ask hreceived, AsmService.machine_step,
        AsmService.receiveOn_of_ask hreceived hcall]
      exact ⟨rfl, hkeys⟩

/-- **A whole run** over a store that stands for a key vector is the run over the vector. -/
theorem answers_of_means {service : AsmService σ} {keysOf : σ → List LeKeyRecord}
    (hmeans : service.leKeyStore.Means keysOf) (store : σ) (messages : List ReceivedMessage) :
    service.machine.answers store messages = service.keyMachine.answers (keysOf store) messages ∧
      keysOf (service.machine.after store messages)
        = service.keyMachine.after (keysOf store) messages := by
  refine Machine.answers_of_simulation (R := fun store keys => keysOf store = keys) ?_ rfl messages
  rintro store _ received rfl
  exact receiveOn_of_means hmeans store received

end AsmProto
