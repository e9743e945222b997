import AsmProto.LeKey.Jsonl

set_option autoImplicit false

/-! # The LE key store kept in a JSONL file

`JsonlLeKeyStore`: the key vector, and the file at `path_` next to it. The constructor reads the
file; every mutator changes the vector and then calls `persist`, which opens the file anew, truncates
it and streams the whole vector. An exception leaves both as they are at that moment. -/

namespace AsmProto

/-- What happens to the `std::ofstream` of `persist`: it does not open, or it opens and takes the
    whole text or only its first bytes. The source checks the first and never the second. -/
inductive OfstreamOutcome where
  | openFails
  | writesAll
  | writesFirst (count : ℕ)
deriving Repr, DecidableEq

/-- The content the truncated file ends up with, unless it did not open. -/
def OfstreamOutcome.write (outcome : OfstreamOutcome) (text : StdString) : Option StdString :=
  match outcome with
  | .openFails => none
  | .writesAll => some text
  | .writesFirst count => some (text.take count)

/-- The object and the content of its file, `none` when there is no file. -/
structure JsonlLeKeyStore where
  file : Option StdString
  keys : List LeKeyRecord := []
deriving DecidableEq

namespace JsonlLeKeyStore

/-- The constructor, given whether the stream that creates or reads the file opens. -/
def construct (file : Option StdString) (opens : Bool) : Except StdException JsonlLeKeyStore :=
  match file with
  | none =>
      if opens then .ok { file := some [] }
      else .error (.asmError "failed to create LEKey JSONL store")
  | some content =>
      if opens then do
        let keys ← readKeys content
        .ok { file := some content, keys := keys }
      else .error (.asmError "failed to open LEKey JSONL store")

def persist (outcome : OfstreamOutcome) : EStateM StdException JsonlLeKeyStore Unit := do
  let self ← get
  match outcome.write (jsonlText self.keys) with
  | none => throw (.asmError "failed to persist LEKey JSONL store")
  | some content => set { self with file := some content }

def loadKeys (outcome : OfstreamOutcome) (incoming : List LeKeyRecord) :
    EStateM StdException JsonlLeKeyStore Bool := do
  let self ← get
  if wouldOverflow incoming self.keys kCapacity then
    return true
  set { self with keys := incoming.foldl loadRecord self.keys }
  persist outcome
  return false

def containsKey (keyId : UInt32) (self : JsonlLeKeyStore) : Bool := containsKeyId self.keys keyId

def listKeyIds (self : JsonlLeKeyStore) : List UInt32 := self.keys.map LeKeyRecord.keyId

def purgeKey (outcome : OfstreamOutcome) (keyId : UInt32) :
    EStateM StdException JsonlLeKeyStore Bool := do
  let self ← get
  let before := self.keys.length
  let keys := eraseKeyId self.keys keyId
  set { self with keys := keys }
  let removed : Bool := keys.length ≠ before
  if removed then
    persist outcome
  return removed

def purgeAll (outcome : OfstreamOutcome) : EStateM StdException JsonlLeKeyStore Unit := do
  modify fun self => { self with keys := [] }
  persist outcome

/-- The virtual table, for a call during which `persist` meets the given outcome. -/
def toStore (outcome : OfstreamOutcome) : LeKeyStore JsonlLeKeyStore where
  loadKeys := loadKeys outcome
  containsKey keyId self := .ok (containsKey keyId self)
  listKeyIds self := .ok (listKeyIds self)
  purgeKey := purgeKey outcome
  purgeAll := purgeAll outcome

/-- The constructor accepts a file exactly when it opens and every line parses; a missing file is
    as good as an empty one. -/
theorem construct_eq_ok_iff {file : Option StdString} {opens : Bool} {self : JsonlLeKeyStore} :
    construct file opens = .ok self ↔
      opens = true ∧ self.file = some (file.getD []) ∧ readKeys (file.getD []) = .ok self.keys := by
  obtain ⟨selfFile, keys⟩ := self
  have hempty : readKeys [] = .ok [] := readKeys_jsonlText []
  cases opens with
  | false => cases file <;> simp [construct]
  | true =>
      cases file with
      | none => simp [construct, hempty, eq_comm]
      | some content =>
          cases hread : readKeys content with
          | error ex => simp [construct, hread]
          | ok records => simp [construct, hread, eq_comm]

/-! ## What each call does -/

/-- The state after a mutator set the vector to `keys` and called `persist`. -/
def persisted (outcome : OfstreamOutcome) (answer : StoreAnswer) (self : JsonlLeKeyStore)
    (keys : List LeKeyRecord) : EStateM.Result StdException JsonlLeKeyStore StoreAnswer :=
  match outcome.write (jsonlText keys) with
  | none => .error (.asmError "failed to persist LEKey JSONL store") { self with keys := keys }
  | some content => .ok answer { file := some content, keys := keys }

theorem run_persist (outcome : OfstreamOutcome) (self : JsonlLeKeyStore) :
    (persist outcome).run self = match outcome.write (jsonlText self.keys) with
      | none => .error (.asmError "failed to persist LEKey JSONL store") self
      | some content => .ok () { self with file := some content } := by
  unfold persist
  simp only [EStateM.run_bind, EStateM.run_get]
  split <;> rfl

variable (outcome : OfstreamOutcome) (self : JsonlLeKeyStore)

theorem run_loadKeys (incoming : List LeKeyRecord) :
    (loadKeys outcome incoming).run self =
      if wouldOverflow incoming self.keys kCapacity then .ok true self
      else
        let keys := KeyedList.upsertAll LeKeyRecord.keyId self.keys incoming
        match outcome.write (jsonlText keys) with
        | none => .error (.asmError "failed to persist LEKey JSONL store") { self with keys := keys }
        | some content => .ok false { file := some content, keys := keys } := by
  rw [← foldl_loadRecord_eq]
  simp only [loadKeys, EStateM.run_bind, EStateM.run_get]
  by_cases hoverflow : wouldOverflow incoming self.keys kCapacity = true
  · rw [if_pos hoverflow, if_pos hoverflow]
    rfl
  · rw [if_neg hoverflow, if_neg hoverflow]
    simp only [EStateM.run_bind, EStateM.run_set, run_persist]
    cases outcome.write (jsonlText (incoming.foldl loadRecord self.keys)) <;> rfl

theorem run_call_loadKeys (incoming : List LeKeyRecord) :
    ((toStore outcome).call (.loadKeys incoming)).run self =
      if wouldOverflow incoming self.keys kCapacity then .ok (.flag true) self
      else persisted outcome (.flag false) self
        (KeyedList.upsertAll LeKeyRecord.keyId self.keys incoming) := by
  simp only [LeKeyStore.call, toStore, EStateM.run_bind, run_loadKeys, persisted]
  by_cases hoverflow : wouldOverflow incoming self.keys kCapacity = true
  · rw [if_pos hoverflow, if_pos hoverflow]
    rfl
  · rw [if_neg hoverflow, if_neg hoverflow]
    cases outcome.write
      (jsonlText (KeyedList.upsertAll LeKeyRecord.keyId self.keys incoming)) <;> rfl

theorem run_call_purgeKey (keyId : UInt32) :
    ((toStore outcome).call (.purgeKey keyId)).run self =
      if keyId ∈ self.keys.map LeKeyRecord.keyId then
        persisted outcome (.flag true) self (KeyedList.eraseKey LeKeyRecord.keyId self.keys keyId)
      else .ok (.flag false) self := by
  simp only [LeKeyStore.call, toStore, purgeKey, EStateM.run_bind, EStateM.run_get,
    EStateM.run_set, decide_eq_true_iff]
  by_cases hmem : keyId ∈ self.keys.map LeKeyRecord.keyId
  · have hremoved := length_eraseKeyId_ne_iff.2 hmem
    rw [if_pos hmem, if_pos hremoved, decide_eq_true hremoved, ← eraseKeyId_eq]
    simp only [EStateM.run_bind, run_persist, persisted]
    cases outcome.write (jsonlText (eraseKeyId self.keys keyId)) <;> rfl
  · have hkept := mt length_eraseKeyId_ne_iff.1 hmem
    have hsame : eraseKeyId self.keys keyId = self.keys := by
      rw [eraseKeyId_eq, KeyedList.eraseKey_eq_self_iff]
      exact hmem
    rw [if_neg hmem, if_neg hkept, decide_eq_false hkept, hsame]
    rfl

theorem run_call_purgeAll :
    ((toStore outcome).call .purgeAll).run self = persisted outcome .done self [] := by
  simp only [LeKeyStore.call, toStore, purgeAll, EStateM.run_bind, EStateM.run_modify, run_persist,
    persisted]
  cases outcome.write (jsonlText []) <;> rfl

variable {outcome self} {call : StoreCall}

/-- **A call that sets the vector** means what it means for the store in memory, and then writes the
    vector out. -/
theorem run_call_of_writes (h : call.writes self.keys) :
    ((toStore outcome).call call).run self
      = persisted outcome (call.answer self.keys) self (call.after self.keys) := by
  cases call with
  | loadKeys incoming =>
      have hfits : ¬ wouldOverflow incoming self.keys kCapacity = true := h
      rw [run_call_loadKeys, if_neg hfits, StoreCall.answer, StoreCall.after, if_neg hfits,
        Bool.eq_false_iff.2 hfits]
  | containsKey keyId => exact absurd h id
  | listKeyIds => exact absurd h id
  | purgeKey keyId =>
      have hmem : keyId ∈ self.keys.map LeKeyRecord.keyId := h
      rw [run_call_purgeKey, if_pos hmem, StoreCall.answer, StoreCall.after, decide_eq_true hmem]
  | purgeAll => exact run_call_purgeAll outcome self

/-- **A call that does not set the vector** answers and leaves the store and its file alone. -/
theorem run_call_of_not_writes (h : ¬ call.writes self.keys) :
    ((toStore outcome).call call).run self = .ok (call.answer self.keys) self := by
  cases call with
  | loadKeys incoming =>
      have hoverflow : wouldOverflow incoming self.keys kCapacity = true := not_not.1 h
      rw [run_call_loadKeys, if_pos hoverflow, StoreCall.answer, hoverflow]
  | containsKey keyId =>
      rw [StoreCall.answer, ← containsKeyId_eq]
      rfl
  | listKeyIds => rfl
  | purgeKey keyId =>
      have hmem : keyId ∉ self.keys.map LeKeyRecord.keyId := h
      rw [run_call_purgeKey, if_neg hmem, StoreCall.answer, decide_eq_false hmem]
  | purgeAll => exact absurd trivial h

/-- Whether the call returns or throws, the vector is the one it means. -/
theorem keys_run_call (outcome : OfstreamOutcome) (self : JsonlLeKeyStore) (call : StoreCall) :
    (((toStore outcome).call call).run self).state.keys = call.after self.keys := by
  by_cases h : call.writes self.keys
  · rw [run_call_of_writes h, persisted]
    split <;> rfl
  · rw [run_call_of_not_writes h, StoreCall.after_of_not_writes h]
    rfl

/-! ## A torn file -/

theorem construct_existing (content : StdString) :
    construct (some content) true
      = (readKeys content).map fun keys => { file := some content, keys := keys } := by
  cases hread : readKeys content <;> simp [construct, hread, Except.map]

/-- **A torn key file is never misread.** Whatever the keys, the file before and the number of bytes the
    stream took of what `persist` wrote: the constructor throws `AsmError` exactly when the file ends
    inside a record, and otherwise loads the records whose lines are there, unaltered. -/
theorem torn_file_never_misread (keys : List LeKeyRecord) (file : Option StdString) (count : ℕ) :
    let torn := ((persist (.writesFirst count)).run { file := file, keys := keys }).state.file
    let content := (jsonlText keys).take count
    torn = some content ∧
      ((∃ text, construct torn true = .error (.asmError text)) ↔ CutInside keys content) ∧
      (¬ CutInside keys content → ∃ front, front <+: keys ∧
        construct torn true = .ok { file := torn, keys := front } ∧
        (jsonlText front = content ∨ jsonlText front = content ++ [newline])) := by
  intro torn content
  have htorn : torn = some content := by
    simp only [torn, run_persist]
    rfl
  have hpart : content <+: jsonlText keys := List.take_prefix count _
  have hloads : ¬ CutInside keys content → ∃ front, front <+: keys ∧
      construct torn true = .ok { file := torn, keys := front } ∧
      (jsonlText front = content ∨ jsonlText front = content ++ [newline]) := by
    intro hcut
    obtain ⟨front, hfront, hread, htext⟩ := readKeys_of_not_cutInside hpart hcut
    exact ⟨front, hfront, by rw [htorn, construct_existing, hread]; rfl, htext⟩
  refine ⟨htorn, ⟨fun hthrows => ?_, fun hcut => ?_⟩, hloads⟩
  · obtain ⟨text, hthrow⟩ := hthrows
    by_contra hcut
    obtain ⟨front, -, hok, -⟩ := hloads hcut
    rw [hthrow] at hok
    exact absurd hok (by simp)
  · obtain ⟨text, hthrow⟩ := readKeys_of_cutInside hcut
    exact ⟨text, by rw [htorn, construct_existing, hthrow]; rfl⟩

end JsonlLeKeyStore

end AsmProto
