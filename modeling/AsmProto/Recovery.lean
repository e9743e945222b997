import AsmProto.ResponderLife

set_option autoImplicit false

/-! # What a restart finds

The keys in memory and the key file part whenever `persist` does not open the file, and the file may
hold less than was written. A restart reads the file, so it finds the keys as the last message that
wrote left them, or a first part of them where the write was cut off: never keys of two versions, and
nothing that a later, failed message did. -/

namespace AsmProto

/-- The event opens the key file and writes it. -/
def LifeEvent.Writes (process : ResponderProcess) : LifeEvent → Prop
  | .message received outcome =>
      outcome ≠ .openFails ∧ ∃ store request call, process = .up store ∧
        decodeRequestFrame received.2 = .ok request ∧ request.requestId ≠ 0 ∧
        AsmService.Asks request call ∧ call.writes store.keys
  | .restart _ => False

namespace ResponderProcess

/-- The text of the key file; a missing file is as good as an empty one. -/
def text (process : ResponderProcess) : StdString := process.file.getD []

/-- The file holds what is left of a write of the keys in memory. -/
structure Written (outcome : OfstreamOutcome) (store : JsonlLeKeyStore) : Prop where
  initial : (up store).text <+: jsonlText store.keys
  whole_iff : (jsonlText store.keys).length ≤ (up store).text.length + 1 ↔
    outcome.Keeps (jsonlText store.keys)

end ResponderProcess

/-! ## One event -/

section Event

variable {eventLogStore : EventLogStore} {spbStatusProvider : QuerySpbStatusProvider}

theorem JsonlLeKeyStore.file_of_openFails (self : JsonlLeKeyStore) (call : StoreCall) :
    (((toStore .openFails).call call).run self).state.file = self.file := by
  by_cases hwrites : call.writes self.keys
  · rw [run_call_of_writes hwrites]
    rfl
  · rw [run_call_of_not_writes hwrites]
    rfl

/-- **An event that does not write** leaves the text of the file alone. -/
theorem text_of_not_writes (process : ResponderProcess) (event : LifeEvent)
    (h : ¬ event.Writes process) :
    ((ResponderProcess.machine eventLogStore spbStatusProvider).step process event).2.text
      = process.text := by
  cases event with
  | message received outcome =>
      rcases process.step_message received outcome with
        hsame | ⟨store, request, call, rfl, hdecode, hid, hasks, hstep⟩
      · rw [hsame]
      · rw [hstep]
        refine congrArg (Option.getD · []) ?_
        show (((JsonlLeKeyStore.toStore outcome).call call).run store).state.file = store.file
        by_cases hopens : outcome = .openFails
        · rw [hopens, JsonlLeKeyStore.file_of_openFails]
        · have hquiet : ¬ call.writes store.keys := fun hwrites =>
            h ⟨hopens, store, request, call, rfl, hdecode, hid, hasks, hwrites⟩
          rw [JsonlLeKeyStore.run_call_of_not_writes hquiet]
          rfl
  | restart opens =>
      rcases process.step_restart opens with ⟨hstep, -⟩ | ⟨keys, -, -, hstep⟩
      · rw [hstep]
        rfl
      · rw [hstep]
        rfl

/-- A stream that took its part of the text. -/
theorem written_of_outcome {outcome : OfstreamOutcome} (hopens : outcome ≠ .openFails)
    (answer : StoreAnswer) (self : JsonlLeKeyStore) (keys : List LeKeyRecord) :
    ResponderProcess.Written outcome (JsonlLeKeyStore.persisted outcome answer self keys).state := by
  cases outcome with
  | openFails => exact absurd rfl hopens
  | writesAll =>
      refine ⟨List.prefix_refl _, iff_of_true (Nat.le_succ _) ?_⟩
      intro count hcount
      cases hcount
  | writesFirst count =>
      refine ⟨List.take_prefix _ _, ?_⟩
      show (jsonlText keys).length ≤ ((jsonlText keys).take count).length + 1 ↔ _
      rw [List.length_take]
      refine ⟨fun hle other hother => ?_, fun hkeeps => ?_⟩
      · obtain rfl := OfstreamOutcome.writesFirst.inj hother
        show (jsonlText keys).length ≤ count + 1
        omega
      · have hle : (jsonlText keys).length ≤ count + 1 := hkeeps count rfl
        omega

/-- **An event that writes** leaves the keys in memory in the file, as far as the stream took them. -/
theorem written_of_writes {process : ResponderProcess} {event : LifeEvent}
    (h : event.Writes process) :
    ∃ received outcome written, event = .message received outcome ∧
      ((ResponderProcess.machine eventLogStore spbStatusProvider).step process event).2 = .up written ∧
      ResponderProcess.Written outcome written := by
  cases event with
  | restart opens => exact absurd h id
  | message received outcome =>
      obtain ⟨hopens, store, request, call, rfl, hdecode, hid, hasks, hwrites⟩ := h
      refine ⟨received, outcome, _, rfl,
        ResponderProcess.step_of_asks hdecode hid hasks outcome store, ?_⟩
      rw [JsonlLeKeyStore.run_call_of_writes hwrites]
      exact written_of_outcome hopens _ _ _

/-- **A restart that comes up** has read the text of the file. -/
theorem readKeys_of_restart {process : ResponderProcess} {opens : Bool} {found : JsonlLeKeyStore}
    (h : ((ResponderProcess.machine eventLogStore spbStatusProvider).step process
      (.restart opens)).2 = .up found) :
    readKeys process.text = .ok found.keys := by
  rcases process.step_restart opens with ⟨hstep, -⟩ | ⟨keys, -, hread, hstep⟩
  · rw [hstep] at h
    cases h
  · rw [hstep] at h
    obtain rfl := ResponderProcess.up.inj h
    exact hread

end Event

/-! ## A whole life -/

/-- **A restart finds the keys of the last write.** In any life: when a restart comes up, either no
    message has written and the keys are those of the first file, or they are a first part of what was
    in memory after the last message that wrote, and all of it exactly when the stream took the text,
    but perhaps its last character. -/
theorem restart_finds_last_write (eventLogStore : EventLogStore)
    (spbStatusProvider : QuerySpbStatusProvider) (file : Option StdString) (events : List LifeEvent)
    (opens : Bool) (found : JsonlLeKeyStore)
    (hup : ((ResponderProcess.machine eventLogStore spbStatusProvider).step
      ((ResponderProcess.machine eventLogStore spbStatusProvider).after (.down file) events)
      (.restart opens)).2 = .up found) :
    let machine := ResponderProcess.machine eventLogStore spbStatusProvider
    let writes := fun process event => LifeEvent.Writes process event
    (machine.Quiet writes (.down file) events ∧ readKeys (file.getD []) = .ok found.keys) ∨
    ∃ before received outcome later written, events = before ++ .message received outcome :: later ∧
      (LifeEvent.message received outcome).Writes (machine.after (.down file) before) ∧
      machine.after (.down file) (before ++ [.message received outcome]) = .up written ∧
      machine.Quiet writes (.up written) later ∧
      found.keys <+: written.keys ∧
      (found.keys = written.keys ↔ outcome.Keeps (jsonlText written.keys)) := by
  intro machine writes
  have hkept : ∀ {process : ResponderProcess} {later : List LifeEvent},
      machine.Quiet writes process later → (machine.after process later).text = process.text :=
    fun hquiet => hquiet.eq_after text_of_not_writes
  -- the restart reads the text that the events left
  have hread : readKeys (machine.after (.down file) events).text = .ok found.keys :=
    readKeys_of_restart hup
  rcases machine.quiet_or_last writes (.down file) events with
    hquiet | ⟨before, event, later, rfl, hwrites, hquiet⟩
  · rw [hkept hquiet] at hread
    exact Or.inl ⟨hquiet, hread⟩
  · obtain ⟨received, outcome, written, rfl, hstep, hwritten⟩ := written_of_writes hwrites
    have hafter : machine.after (.down file) (before ++ [.message received outcome]) = .up written := by
      rw [Machine.after_append]
      exact hstep
    rw [hafter] at hquiet
    have hlater : machine.after (.down file) (before ++ .message received outcome :: later)
        = machine.after (.up written) later := by
      rw [Machine.after_append, Machine.after_cons, ← hstep]
    rw [hlater, hkept hquiet] at hread
    refine Or.inr ⟨before, received, outcome, later, written, rfl, hwrites, hafter, hquiet,
      (text_of_readKeys_cut hwritten.initial hread).1, ?_⟩
    rw [← hwritten.whole_iff, ← readKeys_cut_iff hwritten.initial, hread]
    exact ⟨fun hsame => by rw [hsame], Except.ok.inj⟩

/-- A load of two keys of which nothing gets into the file. -/
def tornLife : List LifeEvent := [.restart true, .message (0, twoKeysFrame) (.writesFirst 0)]

theorem writes_twoKeysFrame :
    (LifeEvent.message (0, twoKeysFrame) (.writesFirst 0)).Writes (.up { file := some [], keys := [] }) := by
  have hload : (AsmService.ofEvents []).received 0 twoKeysFrame = .ask
      { command := .leKeyLoad, requestId := 1
        payload := LeKeyPayloadCodec.encodeLoadRequest [blankKey 7, blankKey 8] }
      (.loadKeys [blankKey 7, blankKey 8]) := rfl
  obtain ⟨hdecode, hid, hasks⟩ := AsmService.received_eq_ask_iff.1 hload
  refine ⟨by simp, _, _, _, rfl, hdecode, hid, hasks, ?_⟩
  show ¬ wouldOverflow [blankKey 7, blankKey 8] [] kCapacity = true
  decide

theorem restart_finds_last_write_torn :
    ∃ before received outcome later, ∃ written : JsonlLeKeyStore,
      tornLife = before ++ .message received outcome :: later ∧
      ([] = written.keys ↔ outcome.Keeps (jsonlText written.keys)) := by
  rcases restart_finds_last_write (.ofEvents []) { currentStatus := .notPlaying } none tornLife true
    { file := some [], keys := [] } rfl with
    ⟨hquiet, -⟩ | ⟨before, received, outcome, later, written, hevents, -, -, -, -, hiff⟩
  · exact absurd writes_twoKeysFrame hquiet.2.1
  · exact ⟨before, received, outcome, later, written, hevents, hiff⟩

end AsmProto
