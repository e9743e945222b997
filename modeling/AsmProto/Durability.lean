import AsmProto.Atomicity

set_option autoImplicit false

/-! # Acknowledged key changes and the file

`persist` truncates the file, streams the vector and looks at the stream no more, so a call returns
whether or not the bytes were taken. What it acknowledged is in the file exactly when the stream took
all of them but perhaps the last `\n`. A purge that finds no record writes nothing: it vouches for
whatever the file held before. -/

namespace AsmProto

/-- The stream takes the text, but perhaps not its last character, unless it does not open at all. -/
def OfstreamOutcome.Keeps (outcome : OfstreamOutcome) (text : StdString) : Prop :=
  ∀ count, outcome = .writesFirst count → text.length ≤ count + 1

/-- The answer says that keys were loaded or purged. -/
def StoreCall.Acknowledges (answer : StoreAnswer) : StoreCall → Prop
  | .loadKeys _ => answer = .flag false
  | .purgeKey _ => True
  | .purgeAll => True
  | .containsKey _ => False
  | .listKeyIds => False

namespace JsonlLeKeyStore

/-- Opening the file again gives exactly the records in memory. -/
def Reopens (self : JsonlLeKeyStore) : Prop :=
  ∃ reopened, construct self.file true = .ok reopened ∧ reopened.keys = self.keys

theorem reopens_iff {self : JsonlLeKeyStore} :
    self.Reopens ↔ readKeys (self.file.getD []) = .ok self.keys := by
  refine ⟨fun hreopens => ?_, fun hread => ?_⟩
  · obtain ⟨reopened, hopen, hkeys⟩ := hreopens
    rw [← hkeys]
    exact (construct_eq_ok_iff.1 hopen).2.2
  · exact ⟨{ file := some (self.file.getD []), keys := self.keys },
      construct_eq_ok_iff.2 ⟨rfl, rfl, hread⟩, rfl⟩

/-- What the file has to take, or to hold already, for the call to be durable. -/
def DurableWhen (outcome : OfstreamOutcome) (self : JsonlLeKeyStore) : StoreCall → Prop
  | .loadKeys incoming =>
      wouldOverflow incoming self.keys kCapacity = true ∨
        outcome.Keeps (jsonlText ((StoreCall.loadKeys incoming).after self.keys))
  | .purgeKey keyId =>
      if keyId ∈ self.keys.map LeKeyRecord.keyId then
        outcome.Keeps (jsonlText ((StoreCall.purgeKey keyId).after self.keys))
      else self.Reopens
  | .purgeAll => True
  | .containsKey _ => True
  | .listKeyIds => True

variable {outcome : OfstreamOutcome} {self : JsonlLeKeyStore} {call : StoreCall}

/-- A call that wrote the vector out is durable when the stream kept the text. -/
theorem reopens_iff_of_writes (hwrites : call.writes self.keys) :
    (∀ answer self', ((toStore outcome).call call).run self = .ok answer self' → self'.Reopens) ↔
      outcome.Keeps (jsonlText (call.after self.keys)) := by
  rw [run_call_of_writes hwrites]
  cases outcome with
  | openFails => exact iff_of_true (fun _ _ h => nomatch h) (fun _ h => nomatch h)
  | writesAll =>
      refine iff_of_true (fun answer self' h => ?_) (fun _ h => nomatch h)
      injection h with _ hself
      subst hself
      exact reopens_iff.2 (readKeys_jsonlText _)
  | writesFirst count =>
      have hinitial := List.take_prefix count (jsonlText (call.after self.keys))
      have hcut : (jsonlText (call.after self.keys)).length
          ≤ ((jsonlText (call.after self.keys)).take count).length + 1 ↔
            (jsonlText (call.after self.keys)).length ≤ count + 1 := by
        rw [List.length_take]
        omega
      constructor
      · intro hall other hother
        obtain rfl := OfstreamOutcome.writesFirst.inj hother
        have hread := reopens_iff.1 (hall _ _ rfl)
        exact hcut.1 ((readKeys_cut_iff hinitial).1 hread)
      · intro hkeeps answer self' h
        injection h with _ hself
        subst hself
        exact reopens_iff.2 ((readKeys_cut_iff hinitial).2 (hcut.2 (hkeeps count rfl)))

/-- Every answer of a call that writes acknowledges it. -/
theorem acknowledges_of_writes (hwrites : call.writes self.keys) {answer : StoreAnswer}
    {self' : JsonlLeKeyStore} (hrun : ((toStore outcome).call call).run self = .ok answer self') :
    call.Acknowledges answer := by
  rcases run_call_cases outcome self call with ⟨self'', hcall, -⟩ | ⟨-, hcall⟩
  · obtain rfl : call.answer self.keys = answer := by
      rw [hcall] at hrun
      injection hrun
    cases call with
    | loadKeys incoming =>
        have hfits : ¬ wouldOverflow incoming self.keys kCapacity = true := hwrites
        rw [StoreCall.answer, Bool.eq_false_iff.2 hfits]
        rfl
    | containsKey keyId => exact hwrites
    | listKeyIds => exact hwrites
    | purgeKey keyId => trivial
    | purgeAll => trivial
  · rw [hcall] at hrun
    simp at hrun

theorem durableWhen_of_writes (hwrites : call.writes self.keys) :
    DurableWhen outcome self call ↔ outcome.Keeps (jsonlText (call.after self.keys)) := by
  cases call with
  | loadKeys incoming =>
      have hfits : ¬ wouldOverflow incoming self.keys kCapacity = true := hwrites
      rw [DurableWhen, or_iff_right hfits]
  | containsKey keyId => exact absurd hwrites id
  | listKeyIds => exact absurd hwrites id
  | purgeKey keyId =>
      have hmem : keyId ∈ self.keys.map LeKeyRecord.keyId := hwrites
      rw [DurableWhen, if_pos hmem]
  | purgeAll =>
      -- an empty text is always kept
      exact iff_of_true trivial (fun count _ => Nat.zero_le _)

/-- A call that writes nothing leaves the file as it was, and only a purge acknowledges it then. -/
theorem durable_of_not_writes (hwrites : ¬ call.writes self.keys) :
    (call.Acknowledges (call.answer self.keys) → self.Reopens) ↔ DurableWhen outcome self call := by
  cases call with
  | loadKeys incoming =>
      have hoverflow : wouldOverflow incoming self.keys kCapacity = true := not_not.1 hwrites
      refine iff_of_true (fun hack => ?_) (Or.inl hoverflow)
      rw [StoreCall.answer, hoverflow, StoreCall.Acknowledges] at hack
      simp at hack
  | containsKey keyId => exact iff_of_true (fun hack => absurd hack id) trivial
  | listKeyIds => exact iff_of_true (fun hack => absurd hack id) trivial
  | purgeKey keyId =>
      have hmem : keyId ∉ self.keys.map LeKeyRecord.keyId := hwrites
      rw [DurableWhen, if_neg hmem]
      exact ⟨fun h => h trivial, fun hreopens _ => hreopens⟩
  | purgeAll => exact absurd trivial hwrites

/-- **A call that acknowledges a change is durable** exactly when the file takes the records, or, for
    a purge with nothing to remove, holds them already. -/
theorem durable_iff :
    (∀ answer self', ((toStore outcome).call call).run self = .ok answer self' →
      call.Acknowledges answer → self'.Reopens) ↔ DurableWhen outcome self call := by
  by_cases hwrites : call.writes self.keys
  · rw [durableWhen_of_writes hwrites, ← reopens_iff_of_writes hwrites]
    refine ⟨fun h answer self' hrun => ?_, fun h answer self' hrun _ => h answer self' hrun⟩
    exact h answer self' hrun (acknowledges_of_writes hwrites hrun)
  · rw [run_call_of_not_writes hwrites, ← durable_of_not_writes hwrites]
    refine ⟨fun h hack => h _ _ rfl hack, fun h answer self' hrun hack => ?_⟩
    injection hrun with hanswer hself
    subst hanswer hself
    exact h hack

end JsonlLeKeyStore

/-! ## Requests answered successful -/

/-- The commands that change keys. -/
def keyChanges : List Command := [.leKeyLoad, .leKeyPurgeId, .leKeyPurgeAll]

section Request

variable {service : AsmService JsonlLeKeyStore} {outcome : OfstreamOutcome} {now : UInt64}
  {self : JsonlLeKeyStore} {message : ByteBuffer}

/-- A change that is answered successful was asked of the store. -/
theorem asks_of_successful_change {request : StandardRequest} {payload : ByteBuffer}
    (hreplies : Replies service now self request payload .successful)
    (hchange : request.command ∈ keyChanges) : ∃ call, AsmService.Asks request call := by
  have hother : ∀ {command : Command}, request.command = command → command ∉ keyChanges → False := by
    intro command hcommand hnot
    exact hnot (hcommand ▸ hchange)
  generalize hcode : GeneralResponse.successful = code at hreplies
  cases hreplies with
  | getTime hcommand => exact (hother hcommand (by decide)).elim
  | reversedWindow hcommand => exact (hother hcommand (by decide)).elim
  | eventList hcommand => exact (hother hcommand (by decide)).elim
  | missingEvent hcommand => exact (hother hcommand (by decide)).elim
  | event hcommand => exact (hother hcommand (by decide)).elim
  | spb hcommand => exact (hother hcommand (by decide)).elim
  | surplus hcommand hpayload => exact nomatch hcode
  | key call hasks answer store' hcall => exact ⟨call, hasks⟩

/-- The reply to a call that returned is successful for a change exactly when the answer acknowledges
    one. -/
theorem successful_change_iff {request : StandardRequest} {call : StoreCall}
    (hasks : AsmService.Asks request call) {answer : StoreAnswer} {self' : JsonlLeKeyStore}
    (hcall : ((JsonlLeKeyStore.toStore outcome).call call).run self = .ok answer self') :
    ((AsmService.keyReply request call answer).response.responseCode = .successful ∧
      (AsmService.keyReply request call answer).response.command ∈ keyChanges) ↔
      call.Acknowledges answer := by
  cases call with
  | loadKeys incoming =>
      obtain ⟨overflow, rfl⟩ : ∃ overflow, answer = .flag overflow := by
        rcases JsonlLeKeyStore.run_call_cases outcome self (.loadKeys incoming) with
          ⟨self'', hrun, -⟩ | ⟨-, hrun⟩
        · rw [hrun] at hcall
          injection hcall with hanswer
          exact ⟨_, hanswer.symm⟩
        · rw [hrun] at hcall
          exact nomatch hcall
      cases overflow with
      | false => simp [AsmService.keyReply, answerTo, keyChanges, StoreCall.Acknowledges,
          StoreAnswer.flagValue]
      | true => simp [AsmService.keyReply, answerTo, StoreCall.Acknowledges, StoreAnswer.flagValue]
  | containsKey keyId => simp [AsmService.keyReply, answerTo, keyChanges, StoreCall.Acknowledges]
  | listKeyIds => simp [AsmService.keyReply, answerTo, keyChanges, StoreCall.Acknowledges]
  | purgeKey keyId => simp [AsmService.keyReply, answerTo, keyChanges, StoreCall.Acknowledges]
  | purgeAll => simp [AsmService.keyReply, answerTo, keyChanges, StoreCall.Acknowledges]

/-- A BadRequest is no key change. -/
theorem not_mem_keyChanges_of_badRequest {response : StandardResponse}
    (h : response = badRequestCopy message) : response.command ∉ keyChanges := by
  rw [h, badRequestCopy]
  simp [keyChanges]

/-- **The reply to a call that returns** is a change answered successful exactly when the answer of the
    store acknowledges one. -/
theorem successful_change_of_ask_iff {request : StandardRequest} {call : StoreCall}
    (hreceived : service.received now message = .ask request call) {self' : JsonlLeKeyStore}
    (hstore : service.leKeyStore = JsonlLeKeyStore.toStore outcome)
    (hrun : ((JsonlLeKeyStore.toStore outcome).call call).run self
      = .ok (call.answer self.keys) self') :
    ((TlsServer.producedResponse service now self message).responseCode = .successful ∧
      (TlsServer.producedResponse service now self message).command ∈ keyChanges) ↔
      call.Acknowledges (call.answer self.keys) := by
  obtain ⟨hdecode, hid, hasks⟩ := AsmService.received_eq_ask_iff.1 hreceived
  by_cases hids : call = .listKeyIds
  · -- the id batch may not fit a frame, but is no change anyway
    subst hids
    refine iff_of_false (fun hsuccess => ?_) id
    rcases producedResponse_cases service now self message with hregular | hcopy
    · obtain ⟨request', payload, code, hdecode', -, -, heq⟩ := hregular
      obtain rfl := Except.ok.inj (hdecode.symm.trans hdecode')
      rw [heq] at hsuccess
      have hchange : request.command ∈ keyChanges := hsuccess.2
      rw [hasks.1] at hchange
      exact absurd hchange (by decide)
    · exact absurd hsuccess.2 (not_mem_keyChanges_of_badRequest hcopy)
  · have hcall := hrun
    rw [← hstore] at hcall
    rw [producedResponse_of_ask hdecode hid hasks hcall hids]
    exact successful_change_iff hasks hrun

/-- A call that throws is answered with BadRequest. -/
theorem producedResponse_of_throw {request : StandardRequest} {call : StoreCall}
    (hreceived : service.received now message = .ask request call) {ex : StdException}
    {self' : JsonlLeKeyStore} (hcall : (service.leKeyStore.call call).run self = .error ex self') :
    TlsServer.producedResponse service now self message = badRequestCopy message := by
  rw [TlsServer.producedResponse, AsmService.receiveOn_of_throw hreceived hcall,
    TlsServer.sentResponse]
  split <;> rfl

/-- A reply given at once never says that keys were changed. -/
theorem not_successful_change_of_reply {result : ServiceResult}
    (hreceived : service.received now message = .reply result) :
    ¬ ((TlsServer.producedResponse service now self message).responseCode = .successful ∧
      (TlsServer.producedResponse service now self message).command ∈ keyChanges) := by
  intro hsuccess
  rcases producedResponse_cases service now self message with hregular | hcopy
  · obtain ⟨request, payload, code, hdecode, hid, hreplies, heq⟩ := hregular
    rw [heq] at hsuccess
    obtain ⟨hcode, hchange⟩ := hsuccess
    obtain rfl : code = .successful := hcode
    obtain ⟨call, hasks⟩ := asks_of_successful_change hreplies hchange
    exact absurd hasks (AsmService.not_asks_of_reply hreceived hdecode hid)
  · exact absurd hsuccess.2 (not_mem_keyChanges_of_badRequest hcopy)

/-- **A change answered successful is durable** exactly when the call it makes of the store is. -/
theorem durable_of_successful_iff (hstore : service.leKeyStore = JsonlLeKeyStore.toStore outcome) :
    ((TlsServer.producedResponse service now self message).responseCode = .successful ∧
        (TlsServer.producedResponse service now self message).command ∈ keyChanges →
      (service.receiveOn now message self).2.Reopens) ↔
    ∀ request call, decodeRequestFrame message = .ok request → request.requestId ≠ 0 →
      AsmService.Asks request call → JsonlLeKeyStore.DurableWhen outcome self call := by
  cases hreceived : service.received now message with
  | reply result =>
      refine iff_of_true (fun hsuccess => ?_) (fun request call hdecode hid hasks => ?_)
      · exact absurd hsuccess (not_successful_change_of_reply hreceived)
      · exact absurd hasks (AsmService.not_asks_of_reply hreceived hdecode hid)
  | ask request call =>
      rw [AsmService.forall_asks_iff hreceived (JsonlLeKeyStore.DurableWhen outcome self),
        ← JsonlLeKeyStore.durable_iff]
      rcases JsonlLeKeyStore.run_call_cases outcome self call with ⟨self', hrun, -⟩ | ⟨-, hrun⟩
      · have hcall := hrun
        rw [← hstore] at hcall
        rw [successful_change_of_ask_iff hreceived hstore hrun,
          AsmService.receiveOn_of_ask hreceived hcall, hrun]
        refine ⟨fun h answer self'' heq hacknowledges => ?_, fun h hacknowledges => ?_⟩
        · injection heq with hanswer hself
          subst hanswer hself
          exact h hacknowledges
        · exact h _ _ rfl hacknowledges
      · have hcall := hrun
        rw [← hstore] at hcall
        have hcopy := producedResponse_of_throw hreceived hcall
        rw [hrun]
        exact iff_of_true (fun h => absurd h.2 (not_mem_keyChanges_of_badRequest hcopy)) (by simp)

end Request

/-- **When acknowledged key changes are durable.** After a call that returns without overflow, or a
    change that is answered successful, opening the file again gives exactly the records in memory,
    if and only if the stream took the whole text but perhaps its last `\n`, or the call was a purge
    that removed nothing and the file held the records before. -/
theorem acknowledged_changes_durable_iff (outcome : OfstreamOutcome) (self : JsonlLeKeyStore) :
    (∀ call, (∀ answer self',
        ((JsonlLeKeyStore.toStore outcome).call call).run self = .ok answer self' →
          call.Acknowledges answer → self'.Reopens) ↔ JsonlLeKeyStore.DurableWhen outcome self call) ∧
    ∀ eventLogStore spbStatusProvider now message,
      let service := AsmService.persistent eventLogStore spbStatusProvider outcome
      ((TlsServer.producedResponse service now self message).responseCode = .successful ∧
          (TlsServer.producedResponse service now self message).command ∈ keyChanges →
        (service.receiveOn now message self).2.Reopens) ↔
      ∀ request call, decodeRequestFrame message = .ok request → request.requestId ≠ 0 →
        AsmService.Asks request call → JsonlLeKeyStore.DurableWhen outcome self call :=
  ⟨fun _ => JsonlLeKeyStore.durable_iff, fun _ _ _ _ => durable_of_successful_iff rfl⟩

/-- A load that returns although the stream took nothing: the key is gone when the store is opened
    again. -/
theorem acknowledged_load_lost :
    ((JsonlLeKeyStore.toStore (.writesFirst 0)).call (.loadKeys [blankKey 7])).run
        { file := some [] }
      = .ok (.flag false) { file := some [], keys := [blankKey 7] } ∧
    JsonlLeKeyStore.construct (some []) true = .ok { file := some [] } ∧
    ¬ JsonlLeKeyStore.Reopens { file := some [], keys := [blankKey 7] } := by
  refine ⟨rfl, rfl, fun hreopens => ?_⟩
  have hread := JsonlLeKeyStore.reopens_iff.1 hreopens
  exact absurd (Except.ok.inj ((readKeys_jsonlText []).symm.trans hread)) (by decide)

end AsmProto
