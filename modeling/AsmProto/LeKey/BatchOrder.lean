import AsmProto.LeKey.JsonlStore

set_option autoImplicit false

/-! # Key batches in another order

A batch is loaded record by record, overwriting in place or appending. In another order of the batch
the new ids are appended in that order; nothing else depends on it, as long as the records with one
id keep their own order. -/

namespace AsmProto

/-- The value returned or the exception thrown, without the state. -/
def answerOf {σ α : Type} : EStateM.Result StdException σ α → Except StdException α
  | .ok answer _ => .ok answer
  | .error ex _ => .error ex

/-- Two loads into `existing` that differ in the order of the new ids only, given how to read the
    records of a store. -/
structure SameLoad {σ : Type} (keys : σ → List LeKeyRecord) (existing : List LeKeyRecord)
    (result result' : EStateM.Result StdException σ Bool) : Prop where
  answer : answerOf result = answerOf result'
  records : ∀ keyId, KeyedList.records LeKeyRecord.keyId (keys result.state) keyId
    = KeyedList.records LeKeyRecord.keyId (keys result'.state) keyId
  perm : (keys result.state).Perm (keys result'.state)
  /-- A record of an id that was there stands at the same positions. -/
  positions : ∀ (i : ℕ) (record : LeKeyRecord), record.keyId ∈ existing.map LeKeyRecord.keyId →
    ((keys result.state)[i]? = some record ↔ (keys result'.state)[i]? = some record)

section Reordered

variable {incoming incoming' : List LeKeyRecord}
  (h : KeyedList.Reordered LeKeyRecord.keyId incoming incoming')

include h

/-- The overflow count does not see the order. -/
theorem wouldOverflow_reordered (existing : List LeKeyRecord) (capacity : ℕ) :
    wouldOverflow incoming existing capacity = wouldOverflow incoming' existing capacity := by
  rw [Bool.eq_iff_iff, wouldOverflow_iff, wouldOverflow_iff, h.perm.countP_eq]

/-- **A load that decides by `would_overflow`** and loads by the loop does not see the order either. -/
theorem sameLoad_of_reordered {σ : Type} {keys : σ → List LeKeyRecord} {existing : List LeKeyRecord}
    {result result' : EStateM.Result StdException σ Bool} (hanswer : answerOf result = answerOf result')
    (hkeys : keys result.state = (StoreCall.loadKeys incoming).after existing)
    (hkeys' : keys result'.state = (StoreCall.loadKeys incoming').after existing) :
    SameLoad keys existing result result' := by
  rw [StoreCall.after] at hkeys hkeys'
  rw [← wouldOverflow_reordered h] at hkeys'
  by_cases hoverflow : wouldOverflow incoming existing kCapacity = true
  · rw [if_pos hoverflow] at hkeys hkeys'
    have hsame : keys result.state = keys result'.state := hkeys.trans hkeys'.symm
    exact ⟨hanswer, fun keyId => by rw [hsame], by rw [hsame], fun i record _ => by rw [hsame]⟩
  · rw [if_neg hoverflow] at hkeys hkeys'
    have hrecords : ∀ keyId, KeyedList.records LeKeyRecord.keyId (keys result.state) keyId
        = KeyedList.records LeKeyRecord.keyId (keys result'.state) keyId := by
      rw [hkeys, hkeys']
      exact h.records_upsertAll_eq existing
    refine ⟨hanswer, hrecords, KeyedList.perm_of_records _ hrecords, fun i record hmem => ?_⟩
    have htake := congrArg (fun front => front[i]?) (h.take_upsertAll existing)
    rw [hkeys, hkeys']
    -- such a record can only stand among the first positions
    refine ⟨fun hget => ?_, fun hget => ?_⟩
    · have hlt := (KeyedList.getElem?_upsertAll_key _ hget).1 hmem
      simp only [List.getElem?_take, if_pos hlt] at htake
      rw [← htake, hget]
    · have hlt := (KeyedList.getElem?_upsertAll_key _ hget).1 hmem
      simp only [List.getElem?_take, if_pos hlt] at htake
      rw [htake, hget]

end Reordered

theorem InMemoryLeKeyStore.keys_run_loadKeys (incoming : List LeKeyRecord) (self : InMemoryLeKeyStore) :
    answerOf ((loadKeys incoming).run self) = .ok (wouldOverflow incoming self.keys kCapacity) ∧
      ((loadKeys incoming).run self).state.keys = (StoreCall.loadKeys incoming).after self.keys := by
  rw [run_loadKeys, StoreCall.after]
  by_cases hoverflow : wouldOverflow incoming self.keys kCapacity = true
  · rw [if_pos hoverflow, if_pos hoverflow, hoverflow]
    exact ⟨rfl, rfl⟩
  · rw [if_neg hoverflow, if_neg hoverflow, Bool.eq_false_iff.2 hoverflow]
    exact ⟨rfl, rfl⟩

/-- Whether `persist` throws depends on the file alone. -/
theorem JsonlLeKeyStore.keys_run_loadKeys (outcome : OfstreamOutcome) (incoming : List LeKeyRecord)
    (self : JsonlLeKeyStore) :
    answerOf ((loadKeys outcome incoming).run self)
        = (if wouldOverflow incoming self.keys kCapacity = true then .ok true
          else if outcome = .openFails then
            .error (.asmError "failed to persist LEKey JSONL store")
          else .ok false) ∧
      ((loadKeys outcome incoming).run self).state.keys
        = (StoreCall.loadKeys incoming).after self.keys := by
  rw [run_loadKeys, StoreCall.after]
  by_cases hoverflow : wouldOverflow incoming self.keys kCapacity = true
  · rw [if_pos hoverflow, if_pos hoverflow, if_pos hoverflow]
    exact ⟨rfl, rfl⟩
  · rw [if_neg hoverflow, if_neg hoverflow, if_neg hoverflow]
    cases outcome with
    | openFails => exact ⟨rfl, rfl⟩
    | writesAll => exact ⟨rfl, rfl⟩
    | writesFirst count => exact ⟨rfl, rfl⟩

/-- **A key batch is unordered.** For both stores, whatever the vector holds and becomes of the file,
    loading a batch and loading it in another order, in which the records with one id keep theirs,
    give the same answer and the same records for every id, and keep the ids that were there at their
    positions; for a batch without repeated ids any order will do. -/
theorem key_batch_unordered (incoming incoming' keys : List LeKeyRecord) (file : Option StdString)
    (outcome : OfstreamOutcome)
    (hreordered : KeyedList.Reordered LeKeyRecord.keyId incoming incoming' ∨
      incoming.Perm incoming' ∧ (incoming.map LeKeyRecord.keyId).Nodup) :
    SameLoad InMemoryLeKeyStore.keys keys
        ((InMemoryLeKeyStore.loadKeys incoming).run { keys := keys })
        ((InMemoryLeKeyStore.loadKeys incoming').run { keys := keys }) ∧
      SameLoad JsonlLeKeyStore.keys keys
        ((JsonlLeKeyStore.loadKeys outcome incoming).run { file := file, keys := keys })
        ((JsonlLeKeyStore.loadKeys outcome incoming').run { file := file, keys := keys }) := by
  have h : KeyedList.Reordered LeKeyRecord.keyId incoming incoming' :=
    hreordered.elim id fun hperm => KeyedList.reordered_of_perm _ hperm.1 hperm.2
  have hmemory := fun incoming => InMemoryLeKeyStore.keys_run_loadKeys incoming { keys := keys }
  have hfile := fun incoming => JsonlLeKeyStore.keys_run_loadKeys outcome incoming
    { file := file, keys := keys }
  refine ⟨sameLoad_of_reordered h ?_ (hmemory incoming).2 (hmemory incoming').2,
    sameLoad_of_reordered h ?_ (hfile incoming).2 (hfile incoming').2⟩
  · rw [(hmemory incoming).1, (hmemory incoming').1, wouldOverflow_reordered h]
  · rw [(hfile incoming).1, (hfile incoming').1, wouldOverflow_reordered h]

/-- Two new keys in either order. -/
theorem key_batch_unordered_two_keys :
    SameLoad InMemoryLeKeyStore.keys [blankKey 7]
        ((InMemoryLeKeyStore.loadKeys [blankKey 1, blankKey 2]).run { keys := [blankKey 7] })
        ((InMemoryLeKeyStore.loadKeys [blankKey 2, blankKey 1]).run { keys := [blankKey 7] }) ∧
      (InMemoryLeKeyStore.loadKeys [blankKey 1, blankKey 2]).run { keys := [blankKey 7] }
        = .ok false { keys := [blankKey 7, blankKey 1, blankKey 2] } ∧
      (InMemoryLeKeyStore.loadKeys [blankKey 2, blankKey 1]).run { keys := [blankKey 7] }
        = .ok false { keys := [blankKey 7, blankKey 2, blankKey 1] } :=
  ⟨(key_batch_unordered [blankKey 1, blankKey 2] [blankKey 2, blankKey 1] [blankKey 7] none .writesAll
    (Or.inr ⟨List.Perm.swap _ _ _, by decide⟩)).1, rfl, rfl⟩

end AsmProto
