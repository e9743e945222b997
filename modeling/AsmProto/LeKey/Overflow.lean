import Mathlib.Data.Finset.Card
import AsmProto.LeKey.JsonlStore

set_option autoImplicit false

/-! # When a load overflows

`would_overflow` counts, in `unique_count`, the stored records and every record of the batch whose id
is not stored, once for each time it occurs. The capacity is meant for the distinct ids, which is what
the load loop leaves. The two counts differ when a batch names a new id twice. -/

namespace AsmProto

/-- The distinct ids of the stored records and the batch together. -/
def unionIds (existing incoming : List LeKeyRecord) : Finset UInt32 :=
  (existing.map LeKeyRecord.keyId ++ incoming.map LeKeyRecord.keyId).toFinset

/-- The records of a batch whose id is not stored. -/
def freshRecords (existing incoming : List LeKeyRecord) : List LeKeyRecord :=
  incoming.filter fun key => key.keyId ∉ existing.map LeKeyRecord.keyId

/-- What a load should report and leave, given how to read the records of a store. -/
structure ExactOverflow {σ : Type} (keys : σ → List LeKeyRecord) (store : σ)
    (incoming : List LeKeyRecord) (result : EStateM.Result StdException σ Bool) : Prop where
  reports : (∃ store', result = .ok true store') ↔
    kCapacity < (unionIds (keys store) incoming).card
  /-- On overflow nothing is changed. -/
  refused : ∀ store', result = .ok true store' → store' = store
  /-- Otherwise the ids are the union. -/
  loaded : (¬ ∃ store', result = .ok true store') →
    ((keys result.state).map LeKeyRecord.keyId).toFinset = unionIds (keys store) incoming

theorem wouldOverflow_iff_fresh {incoming existing : List LeKeyRecord} {capacity : ℕ} :
    wouldOverflow incoming existing capacity = true ↔
      capacity < existing.length + (freshRecords existing incoming).length := by
  rw [wouldOverflow_iff, List.countP_eq_length_filter, freshRecords]

/-- The load loop leaves the union of the ids. -/
theorem toFinset_upsertAll (existing incoming : List LeKeyRecord) :
    ((KeyedList.upsertAll LeKeyRecord.keyId existing incoming).map LeKeyRecord.keyId).toFinset
      = unionIds existing incoming := by
  ext keyId
  rw [List.mem_toFinset, KeyedList.mem_map_key_upsertAll, unionIds, List.mem_toFinset,
    List.mem_append]

/-- One record an id: the union has as many ids as the load loop leaves records. -/
theorem card_unionIds {existing : List LeKeyRecord}
    (hnodup : (existing.map LeKeyRecord.keyId).Nodup) (incoming : List LeKeyRecord) :
    (unionIds existing incoming).card
      = existing.length + (KeyedList.newKeys LeKeyRecord.keyId existing incoming).length := by
  rw [← toFinset_upsertAll, List.toFinset_card_of_nodup (KeyedList.nodup_upsertAll _ hnodup),
    List.length_map, KeyedList.length_upsertAll]

/-- More than sixteen ids are never loaded. -/
theorem card_unionIds_le {existing incoming : List LeKeyRecord}
    (hnodup : (existing.map LeKeyRecord.keyId).Nodup) :
    (unionIds existing incoming).card
      ≤ existing.length + (freshRecords existing incoming).length := by
  have hle := KeyedList.length_newKeys_le LeKeyRecord.keyId existing incoming
  rw [List.countP_eq_length_filter] at hle
  rw [card_unionIds hnodup]
  exact Nat.add_le_add_left hle _

section Load

variable {σ : Type} {keys : σ → List LeKeyRecord} {self : σ} {incoming : List LeKeyRecord}
  {result : EStateM.Result StdException σ Bool}

/-- **A load that decides by `would_overflow`** and loads by the loop does what it should exactly when
    the repeated new ids do not tip the count. -/
theorem exactOverflow_iff (hnodup : ((keys self).map LeKeyRecord.keyId).Nodup)
    (hoverflow : wouldOverflow incoming (keys self) kCapacity = true → result = .ok true self)
    (hloads : ¬ wouldOverflow incoming (keys self) kCapacity = true →
      (¬ ∃ self', result = .ok true self') ∧
        keys result.state = KeyedList.upsertAll LeKeyRecord.keyId (keys self) incoming) :
    ExactOverflow keys self incoming result ↔
      ((unionIds (keys self) incoming).card ≤ kCapacity →
        (keys self).length + (freshRecords (keys self) incoming).length ≤ kCapacity) := by
  have hreports : (∃ self', result = .ok true self') ↔
      kCapacity < (keys self).length + (freshRecords (keys self) incoming).length := by
    rw [← wouldOverflow_iff_fresh]
    constructor
    · intro hresult
      by_contra hfits
      exact (hloads hfits).1 hresult
    · intro h
      exact ⟨self, hoverflow h⟩
  constructor
  · intro hexact hunion
    by_contra hcount
    have hover := hexact.reports.1 (hreports.2 (Nat.not_le.1 hcount))
    omega
  · intro hcounts
    refine ⟨?_, ?_, ?_⟩
    · rw [hreports]
      have hle := @card_unionIds_le (keys self) incoming hnodup
      constructor
      · intro hcount
        by_contra hunion
        exact absurd (hcounts (Nat.not_lt.1 hunion)) (Nat.not_le.2 hcount)
      · intro hunion
        exact hunion.trans_le hle
    · intro self' hresult
      have hover := wouldOverflow_iff_fresh.2 (hreports.1 ⟨self', hresult⟩)
      have hsame := hresult.symm.trans (hoverflow hover)
      injection hsame
    · intro hnone
      have hfits := mt (fun h => (⟨self, hoverflow h⟩ : ∃ self', result = .ok true self')) hnone
      rw [(hloads hfits).2, toFinset_upsertAll]

end Load

theorem InMemoryLeKeyStore.exactOverflow_loadKeys_iff {self : InMemoryLeKeyStore}
    (hnodup : (self.keys.map LeKeyRecord.keyId).Nodup) (incoming : List LeKeyRecord) :
    ExactOverflow InMemoryLeKeyStore.keys self incoming ((loadKeys incoming).run self) ↔
      ((unionIds self.keys incoming).card ≤ kCapacity →
        self.keys.length + (freshRecords self.keys incoming).length ≤ kCapacity) := by
  refine exactOverflow_iff hnodup ?_ ?_
  · intro hoverflow
    rw [run_loadKeys, if_pos hoverflow]
  · intro hfits
    rw [run_loadKeys, if_neg hfits]
    exact ⟨by simp, rfl⟩

theorem JsonlLeKeyStore.exactOverflow_loadKeys_iff {self : JsonlLeKeyStore}
    (hnodup : (self.keys.map LeKeyRecord.keyId).Nodup) (outcome : OfstreamOutcome)
    (incoming : List LeKeyRecord) :
    ExactOverflow JsonlLeKeyStore.keys self incoming ((loadKeys outcome incoming).run self) ↔
      ((unionIds self.keys incoming).card ≤ kCapacity →
        self.keys.length + (freshRecords self.keys incoming).length ≤ kCapacity) := by
  refine exactOverflow_iff hnodup ?_ ?_
  · intro hoverflow
    rw [run_loadKeys, if_pos hoverflow]
  · intro hfits
    rw [run_loadKeys, if_neg hfits]
    -- whether or not the file opens, the vector has been set
    cases hwrite : outcome.write
      (jsonlText (KeyedList.upsertAll LeKeyRecord.keyId self.keys incoming)) with
    | none =>
        simp only [hwrite]
        exact ⟨by simp, rfl⟩
    | some content =>
        simp only [hwrite]
        exact ⟨by simp, rfl⟩

/-- **When the overflow decision is exact.** For both stores, whatever becomes of the file, a load
    into a valid store reports overflow for more than sixteen distinct ids, changes nothing then and
    else leaves the union of the ids, if and only if the ids fit only where their repetitions do. -/
theorem overflow_exact_iff (keys : List LeKeyRecord) (hvalid : KeysValid keys)
    (incoming : List LeKeyRecord) (file : Option StdString) (outcome : OfstreamOutcome) :
    (ExactOverflow InMemoryLeKeyStore.keys { keys := keys } incoming
        ((InMemoryLeKeyStore.loadKeys incoming).run { keys := keys }) ↔
      ((unionIds keys incoming).card ≤ kCapacity →
        keys.length + (freshRecords keys incoming).length ≤ kCapacity)) ∧
    (ExactOverflow JsonlLeKeyStore.keys { file := file, keys := keys } incoming
        ((JsonlLeKeyStore.loadKeys outcome incoming).run { file := file, keys := keys }) ↔
      ((unionIds keys incoming).card ≤ kCapacity →
        keys.length + (freshRecords keys incoming).length ≤ kCapacity)) :=
  ⟨@InMemoryLeKeyStore.exactOverflow_loadKeys_iff { keys := keys } hvalid.nodup incoming,
    @JsonlLeKeyStore.exactOverflow_loadKeys_iff { file := file, keys := keys } hvalid.nodup outcome
      incoming⟩

def fifteenKeys : List LeKeyRecord := (List.range 15).map fun i => blankKey (UInt32.ofNat i)

/-- A batch that names a stored id twice and brings the sixteenth, and a file that does not open. -/
theorem overflow_exact_at_capacity :
    KeysValid fifteenKeys ∧
    ExactOverflow InMemoryLeKeyStore.keys { keys := fifteenKeys } [blankKey 14, blankKey 15, blankKey 14]
      ((InMemoryLeKeyStore.loadKeys [blankKey 14, blankKey 15, blankKey 14]).run
        { keys := fifteenKeys }) ∧
    ExactOverflow JsonlLeKeyStore.keys { file := some [], keys := fifteenKeys }
      [blankKey 14, blankKey 15, blankKey 14]
      ((JsonlLeKeyStore.loadKeys .openFails [blankKey 14, blankKey 15, blankKey 14]).run
        { file := some [], keys := fifteenKeys }) := by
  have hvalid : KeysValid fifteenKeys := ⟨by decide, by decide⟩
  have hroom : fifteenKeys.length
      + (freshRecords fifteenKeys [blankKey 14, blankKey 15, blankKey 14]).length ≤ kCapacity := by decide
  obtain ⟨hmemory, hfile⟩ := overflow_exact_iff fifteenKeys hvalid
    [blankKey 14, blankKey 15, blankKey 14] (some []) .openFails
  exact ⟨hvalid, hmemory.2 fun _ => hroom, hfile.2 fun _ => hroom⟩

/-- An empty store refuses a batch of seventeen records for one id. -/
theorem repeated_id_overflows :
    (InMemoryLeKeyStore.loadKeys (List.replicate 17 (blankKey 7))).run { keys := [] }
      = .ok true { keys := [] } ∧
    (unionIds [] (List.replicate 17 (blankKey 7))).card = 1 ∧
    ¬ ExactOverflow InMemoryLeKeyStore.keys { keys := [] } (List.replicate 17 (blankKey 7))
      ((InMemoryLeKeyStore.loadKeys (List.replicate 17 (blankKey 7))).run { keys := [] }) := by
  have hrun : (InMemoryLeKeyStore.loadKeys (List.replicate 17 (blankKey 7))).run { keys := [] }
      = .ok true { keys := [] } := rfl
  have hcard : (unionIds [] (List.replicate 17 (blankKey 7))).card = 1 := by decide
  refine ⟨hrun, hcard, fun hexact => ?_⟩
  have hover := hexact.reports.1 ⟨_, hrun⟩
  rw [show unionIds (InMemoryLeKeyStore.keys { keys := [] }) (List.replicate 17 (blankKey 7))
    = unionIds [] (List.replicate 17 (blankKey 7)) from rfl, hcard] at hover
  exact absurd hover (by decide)

end AsmProto
