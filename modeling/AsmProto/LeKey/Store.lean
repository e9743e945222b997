import AsmProto.LeKey.Payload
import AsmProto.Lib.KeyedHistory

set_option autoImplicit false

/-! # LE key stores

The virtual interface of `le_key.hpp`, the overflow count and load loop both implementations run, and
the store that lives in memory. `key_id` makes the vector `keys_` a keyed list
(`Lib/KeyedList.lean`): `loadRecord_eq_upsert` connects the loop's find-or-append to it, and the
specs of the mutators are stated in its operations. -/

namespace AsmProto

/-- `LeKeyStore` over a store state `σ`. The `const` methods only read the state; any method of an
    implementation may throw, and the mutators may have changed the state before they do. -/
structure LeKeyStore (σ : Type) where
  loadKeys : List LeKeyRecord → EStateM StdException σ Bool
  containsKey : UInt32 → σ → Except StdException Bool
  listKeyIds : σ → Except StdException (List UInt32)
  purgeKey : UInt32 → EStateM StdException σ Bool
  purgeAll : EStateM StdException σ Unit

/-- A call of one of the five methods, as data. -/
inductive StoreCall where
  | loadKeys (keys : List LeKeyRecord)
  | containsKey (keyId : UInt32)
  | listKeyIds
  | purgeKey (keyId : UInt32)
  | purgeAll
deriving DecidableEq

inductive StoreAnswer where
  | flag (value : Bool)
  | ids (keyIds : List UInt32)
  | done
deriving Repr, DecidableEq

/-- The flag of an answer that has one. -/
def StoreAnswer.flagValue : StoreAnswer → Bool
  | .flag value => value
  | _ => false

/-- The ids of an answer that has them. -/
def StoreAnswer.idList : StoreAnswer → List UInt32
  | .ids keyIds => keyIds
  | _ => []

def LeKeyStore.call {σ : Type} (store : LeKeyStore σ) : StoreCall → EStateM StdException σ StoreAnswer
  | .loadKeys keys => return .flag (← store.loadKeys keys)
  | .containsKey keyId => return .flag (← EStateM.readExcept (store.containsKey keyId))
  | .listKeyIds => return .ids (← EStateM.readExcept store.listKeyIds)
  | .purgeKey keyId => return .flag (← store.purgeKey keyId)
  | .purgeAll => do
      store.purgeAll
      return .done

theorem LeKeyStore.run_call_listKeyIds {σ : Type} (store : LeKeyStore σ) (s : σ) :
    (store.call .listKeyIds).run s = match store.listKeyIds s with
      | .ok keyIds => .ok (.ids keyIds) s
      | .error ex => .error ex s := by
  simp only [LeKeyStore.call, EStateM.run_bind, EStateM.run_readExcept]
  cases store.listKeyIds s <;> rfl

def LeKeyStore.callAll {σ : Type} (store : LeKeyStore σ) :
    List StoreCall → EStateM StdException σ (List StoreAnswer)
  | [] => return []
  | call :: calls => do
      let answer ← store.call call
      let answers ← store.callAll calls
      return answer :: answers

def kCapacity : ℕ := 16

def wouldOverflow (incoming existing : List LeKeyRecord) (capacity : ℕ) : Bool :=
  let uniqueCount := incoming.foldl
    (fun uniqueCount key =>
      match existing.find? (fun current => current.keyId = key.keyId) with
      | none => uniqueCount + 1
      | some _ => uniqueCount)
    existing.length
  uniqueCount > capacity

/-- One turn of the load loop: overwrite the record found, or append. -/
def loadRecord (keys : List LeKeyRecord) (incoming : LeKeyRecord) : List LeKeyRecord :=
  match keys.findIdx? (fun current => current.keyId = incoming.keyId) with
  | some found => keys.set found incoming
  | none => keys ++ [incoming]

def containsKeyId (keys : List LeKeyRecord) (keyId : UInt32) : Bool :=
  keys.any (fun key => key.keyId = keyId)

/-- `std::erase_if` of the records with the id. -/
def eraseKeyId (keys : List LeKeyRecord) (keyId : UInt32) : List LeKeyRecord :=
  keys.filter (fun key => ¬ key.keyId = keyId)

structure InMemoryLeKeyStore where
  keys : List LeKeyRecord := []
deriving DecidableEq

namespace InMemoryLeKeyStore

def loadKeys (incoming : List LeKeyRecord) : EStateM StdException InMemoryLeKeyStore Bool := do
  let self ← get
  if wouldOverflow incoming self.keys kCapacity then
    return true
  set { self with keys := incoming.foldl loadRecord self.keys }
  return false

def containsKey (keyId : UInt32) (self : InMemoryLeKeyStore) : Bool := containsKeyId self.keys keyId

def listKeyIds (self : InMemoryLeKeyStore) : List UInt32 := self.keys.map LeKeyRecord.keyId

def purgeKey (keyId : UInt32) : EStateM StdException InMemoryLeKeyStore Bool := do
  let self ← get
  let before := self.keys.length
  let keys := eraseKeyId self.keys keyId
  set { self with keys := keys }
  return keys.length ≠ before

def purgeAll : EStateM StdException InMemoryLeKeyStore Unit :=
  modify fun self => { self with keys := [] }

/-- The virtual table. -/
def toStore : LeKeyStore InMemoryLeKeyStore where
  loadKeys := loadKeys
  containsKey keyId self := .ok (containsKey keyId self)
  listKeyIds self := .ok (listKeyIds self)
  purgeKey := purgeKey
  purgeAll := purgeAll

end InMemoryLeKeyStore

/-! ## The key vector as a keyed list -/

theorem loadRecord_eq_upsert (keys : List LeKeyRecord) (incoming : LeKeyRecord) :
    loadRecord keys incoming = KeyedList.upsert LeKeyRecord.keyId keys incoming := by
  induction keys with
  | nil => rfl
  | cons key keys ih =>
      unfold loadRecord at ih ⊢
      rw [List.findIdx?_cons, KeyedList.upsert]
      by_cases h : key.keyId = incoming.keyId
      · simp [h]
      · rw [← ih]
        cases hfind : keys.findIdx? (fun current => current.keyId = incoming.keyId) with
        | none => simp [h]
        | some found => simp [h]

theorem foldl_loadRecord_eq (keys incoming : List LeKeyRecord) :
    incoming.foldl loadRecord keys = KeyedList.upsertAll LeKeyRecord.keyId keys incoming := by
  have hfun : loadRecord = KeyedList.upsert LeKeyRecord.keyId :=
    funext fun k => funext fun r => loadRecord_eq_upsert k r
  rw [hfun, KeyedList.upsertAll]

theorem containsKeyId_iff {keys : List LeKeyRecord} {keyId : UInt32} :
    containsKeyId keys keyId = true ↔ keyId ∈ keys.map LeKeyRecord.keyId := by
  simp [containsKeyId]

theorem containsKeyId_eq (keys : List LeKeyRecord) (keyId : UInt32) :
    containsKeyId keys keyId = decide (keyId ∈ keys.map LeKeyRecord.keyId) := by
  rw [Bool.eq_iff_iff, containsKeyId_iff, decide_eq_true_iff]

theorem eraseKeyId_eq (keys : List LeKeyRecord) (keyId : UInt32) :
    eraseKeyId keys keyId = KeyedList.eraseKey LeKeyRecord.keyId keys keyId := by
  simp [eraseKeyId, KeyedList.eraseKey]

/-- `purge_key` tells from the size whether it removed something. -/
theorem length_eraseKeyId_ne_iff {keys : List LeKeyRecord} {keyId : UInt32} :
    (eraseKeyId keys keyId).length ≠ keys.length ↔ keyId ∈ keys.map LeKeyRecord.keyId := by
  rw [eraseKeyId_eq, ne_eq, KeyedList.length_eraseKey_eq_iff, not_not]

/-- The overflow count: the stored records and every batch record whose id is not stored, each time
    it occurs. -/
theorem wouldOverflow_iff {incoming existing : List LeKeyRecord} {capacity : ℕ} :
    wouldOverflow incoming existing capacity = true ↔
      capacity < existing.length
        + incoming.countP (fun key => decide (key.keyId ∉ existing.map LeKeyRecord.keyId)) := by
  -- the counter adds one for every batch record whose id is not stored
  have hfold : ∀ n, incoming.foldl
      (fun uniqueCount key =>
        match existing.find? (fun current => current.keyId = key.keyId) with
        | none => uniqueCount + 1
        | some _ => uniqueCount) n
      = n + incoming.countP (fun key => decide (key.keyId ∉ existing.map LeKeyRecord.keyId)) := by
    induction incoming with
    | nil => simp
    | cons key incoming ih =>
        intro n
        rw [List.foldl_cons, ih, List.countP_cons]
        cases hfind : existing.find? (fun current => current.keyId = key.keyId) with
        | none =>
            have hnot : key.keyId ∉ existing.map LeKeyRecord.keyId :=
              (KeyedList.lookup_eq_none_iff LeKeyRecord.keyId).1 hfind
            simp only [hnot, not_false_eq_true, decide_true, if_true]
            omega
        | some found =>
            have hmem : key.keyId ∈ existing.map LeKeyRecord.keyId :=
              (KeyedList.lookup_isSome_iff LeKeyRecord.keyId).1 (by rw [KeyedList.lookup, hfind]; rfl)
            simp only [hmem, not_true_eq_false, decide_false, Bool.false_eq_true, if_false]
            omega
  unfold wouldOverflow
  rw [hfold existing.length, decide_eq_true_iff]

/-- A batch that names only stored ids overflows only a vector that is over capacity already. -/
theorem wouldOverflow_of_subset {incoming existing : List LeKeyRecord} {capacity : ℕ}
    (h : ∀ key ∈ incoming, key.keyId ∈ existing.map LeKeyRecord.keyId) :
    wouldOverflow incoming existing capacity = true ↔ capacity < existing.length := by
  have hzero : incoming.countP (fun key => decide (key.keyId ∉ existing.map LeKeyRecord.keyId)) = 0 := by
    rw [List.countP_eq_zero]
    intro key hkey
    simpa using h key hkey
  rw [wouldOverflow_iff, hzero, Nat.add_zero]

/-- A load that is not refused stays within capacity. -/
theorem length_upsertAll_le {incoming existing : List LeKeyRecord} {capacity : ℕ}
    (h : ¬ wouldOverflow incoming existing capacity = true) :
    (KeyedList.upsertAll LeKeyRecord.keyId existing incoming).length ≤ capacity := by
  rw [wouldOverflow_iff] at h
  have hle := KeyedList.length_newKeys_le LeKeyRecord.keyId existing incoming
  rw [KeyedList.length_upsertAll]
  omega

/-! ## What a call means

The meaning of the five methods on the key vector, in the operations of keyed lists. Both stores are
proved to follow it, and everything about a sequence of calls is derived from it. -/

namespace StoreCall

/-- The key vector a call leaves. -/
def after (keys : List LeKeyRecord) : StoreCall → List LeKeyRecord
  | .loadKeys incoming =>
      if wouldOverflow incoming keys kCapacity then keys
      else KeyedList.upsertAll LeKeyRecord.keyId keys incoming
  | .containsKey _ => keys
  | .listKeyIds => keys
  | .purgeKey keyId => KeyedList.eraseKey LeKeyRecord.keyId keys keyId
  | .purgeAll => []

def answer (keys : List LeKeyRecord) : StoreCall → StoreAnswer
  | .loadKeys incoming => .flag (wouldOverflow incoming keys kCapacity)
  | .containsKey keyId => .flag (decide (keyId ∈ keys.map LeKeyRecord.keyId))
  | .listKeyIds => .ids (keys.map LeKeyRecord.keyId)
  | .purgeKey keyId => .flag (decide (keyId ∈ keys.map LeKeyRecord.keyId))
  | .purgeAll => .done

/-- The call sets the vector; a call that does not leaves it as it was. -/
def writes (keys : List LeKeyRecord) : StoreCall → Prop
  | .loadKeys incoming => ¬ wouldOverflow incoming keys kCapacity = true
  | .containsKey _ => False
  | .listKeyIds => False
  | .purgeKey keyId => keyId ∈ keys.map LeKeyRecord.keyId
  | .purgeAll => True

theorem after_of_not_writes {keys : List LeKeyRecord} {call : StoreCall} (h : ¬ call.writes keys) :
    call.after keys = keys := by
  cases call with
  | loadKeys incoming => rw [after, if_pos (not_not.1 h)]
  | containsKey keyId => rfl
  | listKeyIds => rfl
  | purgeKey keyId => rw [after, KeyedList.eraseKey_eq_self_iff]; exact h
  | purgeAll => exact absurd trivial h

/-- The key vector a sequence of calls leaves. -/
def afterAll (keys : List LeKeyRecord) (calls : List StoreCall) : List LeKeyRecord :=
  calls.foldl after keys

/-- The answers of a sequence of calls. -/
def answers (keys : List LeKeyRecord) : List StoreCall → List StoreAnswer
  | [] => []
  | call :: calls => call.answer keys :: answers (call.after keys) calls

end StoreCall

/-- The representation invariant: one record an id, and no more than fit. -/
structure KeysValid (keys : List LeKeyRecord) : Prop where
  nodup : (keys.map LeKeyRecord.keyId).Nodup
  capacity : keys.length ≤ kCapacity

theorem keysValid_nil : KeysValid [] := ⟨List.nodup_nil, Nat.zero_le _⟩

/-- Every call preserves the invariant. -/
theorem KeysValid.after {keys : List LeKeyRecord} (h : KeysValid keys) (call : StoreCall) :
    KeysValid (call.after keys) := by
  cases call with
  | loadKeys incoming =>
      rw [StoreCall.after]
      split
      · exact h
      · next hfits => exact ⟨KeyedList.nodup_upsertAll _ h.nodup, length_upsertAll_le hfits⟩
  | containsKey keyId => exact h
  | listKeyIds => exact h
  | purgeKey keyId =>
      exact ⟨KeyedList.nodup_eraseKey _ h.nodup, (KeyedList.length_eraseKey_le _ _ _).trans h.capacity⟩
  | purgeAll => exact keysValid_nil

/-- Loading ids that are all stored is never refused. -/
theorem KeysValid.not_wouldOverflow {keys incoming : List LeKeyRecord} (h : KeysValid keys)
    (hsubset : ∀ key ∈ incoming, key.keyId ∈ keys.map LeKeyRecord.keyId) :
    wouldOverflow incoming keys kCapacity = false := by
  rw [Bool.eq_false_iff, ne_eq, wouldOverflow_of_subset hsubset]
  exact Nat.not_lt.2 h.capacity

/-! ## A call made twice -/

/-- After a load that was not refused the same batch names only stored ids. -/
theorem not_wouldOverflow_upsertAll {keys incoming : List LeKeyRecord} {capacity : ℕ}
    (h : ¬ wouldOverflow incoming keys capacity = true) :
    ¬ wouldOverflow incoming (KeyedList.upsertAll LeKeyRecord.keyId keys incoming) capacity = true := by
  rw [wouldOverflow_of_subset fun key hkey =>
    (KeyedList.mem_map_key_upsertAll _).2 (Or.inr (List.mem_map_of_mem hkey))]
  exact Nat.not_lt.2 (length_upsertAll_le h)

/-- **The second of two equal calls leaves the vector alone**, whatever it held. -/
theorem StoreCall.after_after (keys : List LeKeyRecord) (call : StoreCall) :
    call.after (call.after keys) = call.after keys := by
  cases call with
  | loadKeys incoming =>
      by_cases hoverflow : wouldOverflow incoming keys kCapacity = true
      · simp only [after, if_pos hoverflow]
      · have hagain := not_wouldOverflow_upsertAll hoverflow
        simp only [after, if_neg hoverflow, if_neg hagain]
        exact KeyedList.upsertAll_upsertAll_self _ _ _
  | containsKey keyId => rfl
  | listKeyIds => rfl
  | purgeKey keyId => exact KeyedList.eraseKey_eraseKey_self _ _ _
  | purgeAll => rfl

/-- A load that fitted is answered in the same way again. -/
theorem StoreCall.answer_after_loadKeys {keys incoming : List LeKeyRecord}
    (h : (StoreCall.loadKeys incoming).answer keys = .flag false) :
    (StoreCall.loadKeys incoming).answer ((StoreCall.loadKeys incoming).after keys) = .flag false := by
  rw [answer, StoreAnswer.flag.injEq] at h
  have hfits : ¬ wouldOverflow incoming keys kCapacity = true := by simp [h]
  rw [after, if_neg hfits, answer, Bool.eq_false_iff.2 (not_wouldOverflow_upsertAll hfits)]

/-! ## The store in memory -/

namespace InMemoryLeKeyStore

theorem run_loadKeys (incoming : List LeKeyRecord) (self : InMemoryLeKeyStore) :
    (loadKeys incoming).run self =
      if wouldOverflow incoming self.keys kCapacity then .ok true self
      else .ok false { keys := KeyedList.upsertAll LeKeyRecord.keyId self.keys incoming } := by
  rw [← foldl_loadRecord_eq]
  unfold loadKeys
  simp only [EStateM.run_bind, EStateM.run_get]
  split <;> rfl

theorem run_purgeKey (keyId : UInt32) (self : InMemoryLeKeyStore) :
    (purgeKey keyId).run self =
      .ok (decide (keyId ∈ self.keys.map LeKeyRecord.keyId))
        { keys := KeyedList.eraseKey LeKeyRecord.keyId self.keys keyId } := by
  have hremoved : decide ((eraseKeyId self.keys keyId).length ≠ self.keys.length)
      = decide (keyId ∈ self.keys.map LeKeyRecord.keyId) :=
    decide_eq_decide.2 length_eraseKeyId_ne_iff
  rw [← eraseKeyId_eq, ← hremoved]
  rfl

/-- **The store in memory follows the meaning of the calls**, and no call throws. -/
theorem run_call (call : StoreCall) (self : InMemoryLeKeyStore) :
    (toStore.call call).run self = .ok (call.answer self.keys) { keys := call.after self.keys } := by
  cases call with
  | loadKeys incoming =>
      simp only [LeKeyStore.call, toStore, EStateM.run_bind, run_loadKeys, StoreCall.answer,
        StoreCall.after]
      by_cases h : wouldOverflow incoming self.keys kCapacity = true
      · rw [if_pos h, if_pos h, h]
        rfl
      · rw [if_neg h, if_neg h, Bool.eq_false_iff.2 h]
        rfl
  | containsKey keyId =>
      rw [StoreCall.answer, ← containsKeyId_eq]
      rfl
  | listKeyIds => rfl
  | purgeKey keyId =>
      simp only [LeKeyStore.call, toStore, EStateM.run_bind, run_purgeKey]
      rfl
  | purgeAll => rfl

theorem run_callAll (calls : List StoreCall) (self : InMemoryLeKeyStore) :
    (toStore.callAll calls).run self
      = .ok (StoreCall.answers self.keys calls) { keys := StoreCall.afterAll self.keys calls } := by
  induction calls generalizing self with
  | nil => rfl
  | cons call calls ih =>
      simp only [LeKeyStore.callAll, EStateM.run_bind, run_call, ih]
      rfl

end InMemoryLeKeyStore

end AsmProto
