import AsmProto.Lib.Alike
import AsmProto.TlsSessions

set_option autoImplicit false

/-! # Sessions over two stores

Two services that differ in their key stores alone, whose calls are alike, lead the same sessions: the
same bytes, traces and exceptions, and stores that are related again. What the observer was given
before does not matter. -/

namespace AsmProto

variable {σ τ : Type}

/-- The services differ in their key stores alone, whose calls are alike. -/
structure AsmService.Alike (R : σ → τ → Prop) (service : AsmService σ) (service' : AsmService τ) :
    Prop where
  eventLogStore : service.eventLogStore = service'.eventLogStore
  spbStatusProvider : service.spbStatusProvider = service'.spbStatusProvider
  calls : ∀ call, EStateM.Alike R (service.leKeyStore.call call) (service'.leKeyStore.call call)

namespace AsmService

variable {R : σ → τ → Prop} {service : AsmService σ} {service' : AsmService τ}

theorem alike_refl (service : AsmService σ) : service.Alike Eq service :=
  ⟨rfl, rfl, fun _ => EStateM.alike_refl _⟩

/-- The plan of a message has nothing to do with the store. -/
theorem Alike.plan (h : service.Alike R service') (now : UInt64) (request : StandardRequest)
    (rawRequest : List UInt8) :
    service.plan now request rawRequest = service'.plan now request rawRequest := by
  obtain ⟨eventLogStore, leKeyStore, spbStatusProvider⟩ := service
  obtain ⟨eventLogStore', leKeyStore', spbStatusProvider'⟩ := service'
  obtain ⟨rfl, rfl, -⟩ := h
  rfl

theorem Alike.handleRequest (h : service.Alike R service') (now : UInt64) (request : StandardRequest)
    (rawRequest : List UInt8) :
    EStateM.Alike R (service.handleRequest now request rawRequest)
      (service'.handleRequest now request rawRequest) := by
  intro s t hst
  rw [run_handleRequest, run_handleRequest, h.plan]
  cases service'.plan now request rawRequest with
  | error ex => exact .error ex hst
  | ok plan =>
      cases plan with
      | reply result => exact .ok result hst
      | ask request call =>
          exact EStateM.alike_bind (h.calls call) (fun answer => EStateM.alike_pure _) s t hst

end AsmService

/-- The same session, over related stores. -/
structure Session.Alike (R : σ → τ → Prop) (O : List SessionTrace → List SessionTrace → Prop)
    (s : Session σ) (t : Session τ) : Prop where
  store : R s.store t.store
  stream : s.stream = t.stream
  trace : s.trace = t.trace
  calls : s.calls = t.calls
  observed : O s.observed t.observed

structure Responder.Alike (R : σ → τ → Prop) (O : List SessionTrace → List SessionTrace → Prop)
    (s : Responder σ) (t : Responder τ) : Prop where
  store : R s.store t.store
  observed : O s.observed t.observed

/-- Alike procedures with alike handlers. -/
theorem alike_catchException {α : Type} {R : σ → τ → Prop} {x : EStateM Fault σ α}
    {y : EStateM Fault τ α} {f : StdException → EStateM Fault σ α} {g : StdException → EStateM Fault τ α}
    (h : EStateM.Alike R x y) (hfg : ∀ ex, EStateM.Alike R (f ex) (g ex)) :
    EStateM.Alike R (catchException x f) (catchException y g) := by
  refine EStateM.alike_tryCatch h fun fault => ?_
  cases fault with
  | exception ex => exact hfg ex
  | sigpipe => exact EStateM.alike_liftExcept (.error Fault.sigpipe)

namespace TlsServer

variable {R : σ → τ → Prop} {O : List SessionTrace → List SessionTrace → Prop}
  {service : AsmService σ} {service' : AsmService τ}

theorem alike_onStream {α : Type} (x : EStateM Fault TlsStream α) :
    EStateM.Alike (Session.Alike R O) (onStream x) (onStream x) :=
  EStateM.alike_zoom (Q := Eq) (fun _ _ h => h.stream)
    (fun _ _ _ _ h hstream => ⟨h.store, hstream, h.trace, h.calls, h.observed⟩) (EStateM.alike_refl x)

theorem alike_onStore {α : Type} {x : EStateM StdException σ α} {y : EStateM StdException τ α}
    (h : EStateM.Alike R x y) : EStateM.Alike (Session.Alike R O) (onStore x) (onStore y) :=
  EStateM.alike_zoom (fun _ _ h => h.store)
    (fun _ _ _ _ h hstore => ⟨hstore, h.stream, h.trace, h.calls, h.observed⟩)
    (EStateM.alike_adaptExcept Fault.exception h)

theorem alike_throwing {α : Type} (x : Except StdException α) :
    EStateM.Alike (Session.Alike R O) (throwing x) (throwing x) :=
  EStateM.alike_liftExcept _

theorem alike_setTrace (f : SessionTrace → SessionTrace) :
    EStateM.Alike (Session.Alike R O) (setTrace f) (setTrace f) :=
  EStateM.alike_modify fun _ _ h => ⟨h.store, h.stream, congrArg f h.trace, h.calls, h.observed⟩

theorem alike_logCall (call : ServiceCall) :
    EStateM.Alike (Session.Alike R O) (logCall call) (logCall call) :=
  EStateM.alike_modify fun _ _ h =>
    ⟨h.store, h.stream, h.trace, congrArg (· ++ [call]) h.calls, h.observed⟩

theorem alike_respond (h : service.Alike R service') (now : UInt64) (peer : PeerIdentity)
    (requestBytes : ByteBuffer) :
    EStateM.Alike (Session.Alike R O) (respond service now peer requestBytes)
      (respond service' now peer requestBytes) := by
  unfold respond
  refine EStateM.alike_bind (alike_throwing _) fun packet => ?_
  refine EStateM.alike_bind (alike_throwing _) fun request => ?_
  refine EStateM.alike_bind (alike_setTrace _) fun _ => ?_
  refine EStateM.alike_bind (alike_logCall _) fun _ => ?_
  refine EStateM.alike_bind (alike_onStore (h.handleRequest now request requestBytes)) fun result => ?_
  refine EStateM.alike_bind (alike_setTrace _) fun _ => ?_
  refine EStateM.alike_bind (alike_throwing _) fun response => ?_
  exact alike_onStream _

theorem alike_respondFailure (requestBytes : ByteBuffer) (ex : StdException) :
    EStateM.Alike (Session.Alike R O) (respondFailure requestBytes ex)
      (respondFailure requestBytes ex) := by
  unfold respondFailure
  refine EStateM.alike_bind (alike_logCall _) fun _ => ?_
  refine EStateM.alike_bind (alike_setTrace _) fun _ => ?_
  refine EStateM.alike_bind (alike_throwing _) fun response => ?_
  exact alike_onStream _

/-- **Alike services lead the same sessions.** -/
theorem alike_serveClient (h : service.Alike R service')
    (hO : ∀ a b, O a b → ∀ trace, O (a ++ [trace]) (b ++ [trace]))
    (handshake : Except Fault PeerIdentity) (now : UInt64) (observer : Bool) :
    EStateM.Alike (Session.Alike R O) (serveClient service handshake now observer)
      (serveClient service' handshake now observer) := by
  unfold serveClient
  refine EStateM.alike_bind (EStateM.alike_liftExcept _) fun peer => ?_
  refine EStateM.alike_bind (alike_setTrace _) fun _ => ?_
  refine EStateM.alike_bind (alike_onStream _) fun requestBytes => ?_
  refine EStateM.alike_bind (alike_catchException (alike_respond h now peer requestBytes)
    (alike_respondFailure requestBytes)) fun _ => ?_
  cases observer with
  | false => exact EStateM.alike_pure _
  | true =>
      refine EStateM.alike_modify fun s t hst =>
        ⟨hst.store, hst.stream, hst.trace, hst.calls, ?_⟩
      rw [hst.trace]
      exact hO _ _ hst.observed t.trace

theorem alike_handleClient (h : service.Alike R service')
    (hO : ∀ a b, O a b → ∀ trace, O (a ++ [trace]) (b ++ [trace])) (observer : Bool)
    (connection : Connection) :
    EStateM.Alike (Responder.Alike R O) (handleClient service observer connection)
      (handleClient service' observer connection) := by
  unfold handleClient
  refine alike_catchException (EStateM.alike_zoom
    (fun s t hst => ⟨hst.store, rfl, rfl, rfl, hst.observed⟩)
    (fun _ _ _ _ _ hsession => ⟨hsession.store, hsession.observed⟩)
    (alike_serveClient h hO _ _ _)) fun ex => ?_
  cases observer with
  | false => exact EStateM.alike_pure _
  | true => exact EStateM.alike_modify fun s t hst => ⟨hst.store, hO _ _ hst.observed _⟩

end TlsServer

end AsmProto
