import AsmProto.LeKey.JsonlStore

set_option autoImplicit false

/-! # The life of a persistent key store

What holds over every sequence of calls, from the file the constructor accepts: when the vector keeps
one record an id and stays within capacity, and that closing and reopening the store at any moment
changes nothing. -/

namespace AsmProto

namespace JsonlLeKeyStore

/-! ## The representation invariant over a life -/

/-- The store after a sequence of calls, each with the outcome its `persist` meets; a call that throws
    leaves the store as it is then. -/
def runCalls (self : JsonlLeKeyStore) (calls : List (StoreCall × OfstreamOutcome)) : JsonlLeKeyStore :=
  calls.foldl (fun self step => (((toStore step.2).call step.1).run self).state) self

/-- What the callers of the store count on, in one state. -/
structure OneRecordPerId (store : JsonlLeKeyStore) : Prop where
  distinct : (store.keys.map LeKeyRecord.keyId).Nodup
  capacity : store.keys.length ≤ kCapacity
  /-- The id batch never lists an id twice. -/
  idBatch : (listKeyIds store).Nodup
  /-- After a load that returns, the last record it had for an id is the only one, in memory and in
      whatever the file now holds. -/
  overwrites : ∀ outcome incoming self', (loadKeys outcome incoming).run store = .ok false self' →
    ∀ keyId ∈ incoming.map LeKeyRecord.keyId,
      ∃ key, KeyedList.lookup LeKeyRecord.keyId incoming.reverse keyId = some key
        ∧ KeyedList.records LeKeyRecord.keyId self'.keys keyId = [key]
        ∧ ∀ content records, self'.file = some content → readKeys content = .ok records →
          KeyedList.records LeKeyRecord.keyId records keyId <+: [key]
  /-- Loading ids that are all stored is never refused. -/
  reloads : ∀ outcome incoming,
    (∀ key ∈ incoming, key.keyId ∈ store.keys.map LeKeyRecord.keyId) →
      ∀ self', (loadKeys outcome incoming).run store ≠ .ok true self'

/-- A load that returns kept all it read in the vector, and a part of the vector in the file. -/
theorem of_run_loadKeys_ok {outcome : OfstreamOutcome} {incoming : List LeKeyRecord}
    {self self' : JsonlLeKeyStore} (h : (loadKeys outcome incoming).run self = .ok false self') :
    self'.keys = KeyedList.upsertAll LeKeyRecord.keyId self.keys incoming ∧
      ∃ content, self'.file = some content ∧ content <+: jsonlText self'.keys := by
  have hcall : ((toStore outcome).call (.loadKeys incoming)).run self = .ok (.flag false) self' := by
    simp only [LeKeyStore.call, toStore, EStateM.run_bind, h]
    rfl
  rw [run_call_loadKeys] at hcall
  split at hcall
  · simp at hcall
  · unfold persisted at hcall
    split at hcall
    · simp at hcall
    · next content hwrite =>
        injection hcall with _ hself
        subst hself
        refine ⟨rfl, content, rfl, ?_⟩
        cases outcome with
        | openFails => simp [OfstreamOutcome.write] at hwrite
        | writesAll => exact (Option.some.inj hwrite) ▸ List.prefix_refl _
        | writesFirst count => exact (Option.some.inj hwrite) ▸ List.take_prefix _ _

theorem not_overflow_of_run_loadKeys {outcome : OfstreamOutcome} {incoming : List LeKeyRecord}
    {self self' : JsonlLeKeyStore} (h : wouldOverflow incoming self.keys kCapacity = false) :
    (loadKeys outcome incoming).run self ≠ .ok true self' := by
  intro hrun
  have hcall : ((toStore outcome).call (.loadKeys incoming)).run self = .ok (.flag true) self' := by
    simp only [LeKeyStore.call, toStore, EStateM.run_bind, hrun]
    rfl
  rw [run_call_loadKeys, h, if_neg (by decide)] at hcall
  unfold persisted at hcall
  split at hcall <;> simp at hcall

/-- The invariant gives everything a caller counts on. -/
theorem oneRecordPerId_of_valid {self : JsonlLeKeyStore} (h : KeysValid self.keys) :
    OneRecordPerId self where
  distinct := h.nodup
  capacity := h.capacity
  idBatch := h.nodup
  overwrites := by
    intro outcome incoming self' hrun keyId hkeyId
    obtain ⟨hkeys, content', hfile, hinitial⟩ := of_run_loadKeys_ok hrun
    have hnodup : (self'.keys.map LeKeyRecord.keyId).Nodup := by
      rw [hkeys]
      exact KeyedList.nodup_upsertAll _ h.nodup
    have hsome : (KeyedList.lookup LeKeyRecord.keyId incoming.reverse keyId).isSome := by
      rw [KeyedList.lookup_isSome_iff, List.map_reverse, List.mem_reverse]
      exact hkeyId
    obtain ⟨key, hkey⟩ := Option.isSome_iff_exists.1 hsome
    have hmemory : KeyedList.records LeKeyRecord.keyId self'.keys keyId = [key] := by
      refine KeyedList.records_of_nodup _ hnodup ?_
      rw [hkeys, KeyedList.lookup_upsertAll, hkey, Option.some_or]
    refine ⟨key, hkey, hmemory, ?_⟩
    intro content records hcontent hread
    obtain rfl : content' = content := Option.some.inj (hfile.symm.trans hcontent)
    rw [← hmemory]
    exact (text_of_readKeys_cut hinitial hread).1.filter _
  reloads := fun _ _ hsubset _ => not_overflow_of_run_loadKeys (h.not_wouldOverflow hsubset)

theorem keysValid_runCalls {self : JsonlLeKeyStore} (h : KeysValid self.keys)
    (calls : List (StoreCall × OfstreamOutcome)) : KeysValid (runCalls self calls).keys := by
  induction calls generalizing self with
  | nil => exact h
  | cons step calls ih =>
      apply ih
      rw [keys_run_call]
      exact h.after step.1

/-- **The invariant holds over the whole life of a store** exactly when the file it was opened on
    has distinct ids and at most sixteen records. The constructor checks neither. -/
theorem oneRecordPerId_forever_iff {file : Option StdString} {opens : Bool} {store : JsonlLeKeyStore}
    (hopen : construct file opens = .ok store) :
    (∀ calls, OneRecordPerId (runCalls store calls)) ↔
      ∀ content records, file = some content → readKeys content = .ok records →
        (records.map LeKeyRecord.keyId).Nodup ∧ records.length ≤ kCapacity := by
  obtain ⟨-, -, hread⟩ := construct_eq_ok_iff.1 hopen
  constructor
  · rintro h content records rfl hrecords
    obtain rfl := Except.ok.inj (hread.symm.trans hrecords)
    have hnow := h []
    exact ⟨hnow.distinct, hnow.capacity⟩
  · intro h calls
    have hvalid : KeysValid store.keys := by
      cases file with
      | none =>
          obtain hnil := Except.ok.inj ((readKeys_jsonlText []).symm.trans hread)
          exact hnil ▸ keysValid_nil
      | some content =>
          obtain ⟨hnodup, hcapacity⟩ := h content store.keys rfl hread
          exact ⟨hnodup, hcapacity⟩
    exact oneRecordPerId_of_valid (keysValid_runCalls hvalid calls)

def distinctKeys : List LeKeyRecord := [blankKey 9, blankKey 7, blankKey 8]

/-- A file with three ids is within the condition. -/
theorem oneRecordPerId_forever_distinct :
    construct (some (jsonlText distinctKeys)) true
        = .ok { file := some (jsonlText distinctKeys), keys := distinctKeys } ∧
      ∀ calls, OneRecordPerId
        (runCalls { file := some (jsonlText distinctKeys), keys := distinctKeys } calls) := by
  have hopen : construct (some (jsonlText distinctKeys)) true
      = .ok { file := some (jsonlText distinctKeys), keys := distinctKeys } :=
    construct_eq_ok_iff.2 ⟨rfl, rfl, readKeys_jsonlText _⟩
  refine ⟨hopen, (oneRecordPerId_forever_iff hopen).2 fun content records hcontent hread => ?_⟩
  obtain rfl := Option.some.inj hcontent
  obtain rfl := Except.ok.inj ((readKeys_jsonlText distinctKeys).symm.trans hread)
  exact ⟨by decide, by decide⟩

/-- A file with two lines for id 7 is accepted, and the id is in the vector twice. -/
theorem duplicate_line_breaks_oneRecordPerId :
    ¬ ∀ file opens store, construct file opens = .ok store →
      ∀ calls, OneRecordPerId (runCalls store calls) := by
  intro h
  have hopen : construct (some (jsonlText [blankKey 7, blankKey 7])) true
      = .ok { file := some (jsonlText [blankKey 7, blankKey 7]), keys := [blankKey 7, blankKey 7] } :=
    construct_eq_ok_iff.2 ⟨rfl, rfl, readKeys_jsonlText _⟩
  have hids : [(7 : UInt32), 7].Nodup := (h _ _ _ hopen []).distinct
  exact absurd hids (by decide)

/-! ## Closing and reopening -/

/-- A step of a life in which every file operation succeeds: a call, or closing the store and opening
    it again on its file. -/
inductive LifeStep where
  | call (call : StoreCall)
  | reopen

/-- The answers of the calls of a life; a constructor that throws ends it. -/
def runLife : List LifeStep → EStateM StdException JsonlLeKeyStore (List StoreAnswer)
  | [] => return []
  | .call call :: steps => do
      let answer ← (toStore .writesAll).call call
      let answers ← runLife steps
      return answer :: answers
  | .reopen :: steps => do
      let self ← get
      let reopened ← EStateM.liftExcept (construct self.file true)
      set reopened
      runLife steps

def LifeStep.storeCall : LifeStep → Option StoreCall
  | .call storeCall => some storeCall
  | .reopen => none

/-- The file holds the vector: opening it again gives the same store. -/
def Synced (self : JsonlLeKeyStore) : Prop := construct self.file true = .ok self

theorem synced_of_construct {file : Option StdString} {opens : Bool} {self : JsonlLeKeyStore}
    (h : construct file opens = .ok self) : Synced self := by
  obtain ⟨-, hfile, hread⟩ := construct_eq_ok_iff.1 h
  exact construct_eq_ok_iff.2 ⟨rfl, by rw [hfile]; rfl, by rw [hfile]; exact hread⟩

/-- A call whose writes succeed answers what it means and leaves the file and the vector in step. -/
theorem run_call_synced {self : JsonlLeKeyStore} (h : Synced self) (call : StoreCall) :
    ∃ self', ((toStore .writesAll).call call).run self = .ok (call.answer self.keys) self' ∧
      self'.keys = call.after self.keys ∧ Synced self' := by
  by_cases hwrites : call.writes self.keys
  · refine ⟨_, run_call_of_writes hwrites, rfl, ?_⟩
    exact construct_eq_ok_iff.2 ⟨rfl, rfl, readKeys_jsonlText _⟩
  · exact ⟨self, run_call_of_not_writes hwrites, (StoreCall.after_of_not_writes hwrites).symm, h⟩

/-- A life answers what its calls mean, one after the other, and stays in step with the file. -/
theorem run_runLife_synced {self : JsonlLeKeyStore} (h : Synced self) (steps : List LifeStep) :
    ∃ self', (runLife steps).run self
        = .ok (StoreCall.answers self.keys (steps.filterMap LifeStep.storeCall)) self' ∧
      self'.keys = StoreCall.afterAll self.keys (steps.filterMap LifeStep.storeCall) ∧
      Synced self' := by
  induction steps generalizing self with
  | nil => exact ⟨self, rfl, rfl, h⟩
  | cons step steps ih =>
      -- both kinds of step end in a store that is in step with its file
      cases step with
      | call call =>
          obtain ⟨next, hrun, hkeys, hsynced⟩ := run_call_synced h call
          obtain ⟨last, hrest, hlast, hfinal⟩ := ih hsynced
          rw [hkeys] at hrest hlast
          refine ⟨last, ?_, hlast, hfinal⟩
          rw [runLife, EStateM.run_bind, hrun]
          simp only [EStateM.run_bind, hrest]
          rfl
      | reopen =>
          obtain ⟨last, hrest, hlast, hfinal⟩ := ih h
          refine ⟨last, ?_, hlast, hfinal⟩
          have hsame : construct self.file true = .ok self := h
          simp only [runLife, EStateM.run_bind, EStateM.run_get, hsame, EStateM.run_liftExcept_ok,
            EStateM.run_set]
          exact hrest

/-- **Persistence is transparent.** Whatever file the constructor accepted, calls and reopenings in
    any order all succeed, and after each of them reopening gives back the very same store. From an
    empty or missing file, the answers and the records are those of a store in memory that is given
    the same calls. -/
theorem persistence_transparent {file : Option StdString} {store : JsonlLeKeyStore}
    (hopen : construct file true = .ok store) :
    (∀ steps, ∃ answers self, (runLife steps).run store = .ok answers self ∧
      construct self.file true = .ok self) ∧
    (file = none ∨ file = some [] → ∀ steps, ∃ answers self,
      (runLife steps).run store = .ok answers self ∧
      (InMemoryLeKeyStore.toStore.callAll (steps.filterMap LifeStep.storeCall)).run {}
        = .ok answers { keys := self.keys }) := by
  have hsynced := synced_of_construct hopen
  constructor
  · intro steps
    obtain ⟨self, hrun, -, hself⟩ := run_runLife_synced hsynced steps
    exact ⟨_, self, hrun, hself⟩
  · intro hempty steps
    have hkeys : store.keys = [] := by
      obtain ⟨-, -, hread⟩ := construct_eq_ok_iff.1 hopen
      have hcontent : file.getD [] = [] := by rcases hempty with rfl | rfl <;> rfl
      rw [hcontent] at hread
      exact (Except.ok.inj ((readKeys_jsonlText []).symm.trans hread)).symm
    obtain ⟨self, hrun, hafter, -⟩ := run_runLife_synced hsynced steps
    refine ⟨_, self, hrun, ?_⟩
    rw [InMemoryLeKeyStore.run_callAll, hafter, hkeys]

theorem persistence_transparent_missing_file :
    ∃ answers self,
      (runLife [.call (.loadKeys [blankKey 7]), .reopen, .call .listKeyIds]).run { file := some [] }
        = .ok answers self ∧
      (InMemoryLeKeyStore.toStore.callAll [.loadKeys [blankKey 7], .listKeyIds]).run {}
        = .ok answers { keys := self.keys } :=
  (persistence_transparent (show construct none true = .ok { file := some [] } from rfl)).2
    (Or.inl rfl) [.call (.loadKeys [blankKey 7]), .reopen, .call .listKeyIds]

end JsonlLeKeyStore

end AsmProto
