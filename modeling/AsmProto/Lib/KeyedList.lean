import Mathlib.Tactic

set_option autoImplicit false

/-! # Insertion-ordered keyed lists

A list of records read as a map from keys to records: looking a key up finds its first record,
`upsert` overwrites the first record with the key in place or appends, `eraseKey` drops every record
with the key. On lists with pairwise distinct keys this is a map that remembers insertion order; the
lemmas below do not assume distinctness unless they name it, since a list read from outside need not
have it. -/

namespace KeyedList

variable {α κ : Type} [DecidableEq κ] (key : α → κ)

/-- The first record with key `k`. -/
def lookup (l : List α) (k : κ) : Option α := l.find? (fun a => key a = k)

/-- Overwrite the first record with `a`'s key, or append `a`. -/
def upsert : List α → α → List α
  | [], a => [a]
  | b :: rest, a => if key b = key a then a :: rest else b :: upsert rest a

/-- Drop every record with key `k`. -/
def eraseKey (l : List α) (k : κ) : List α := l.filter (fun a => key a ≠ k)

/-- Upsert a batch, record by record. -/
def upsertAll (l batch : List α) : List α := batch.foldl (upsert key) l

@[simp] theorem upsertAll_nil (l : List α) : upsertAll key l [] = l := rfl

@[simp] theorem upsertAll_cons (l : List α) (a : α) (batch : List α) :
    upsertAll key l (a :: batch) = upsertAll key (upsert key l a) batch := rfl

/-! ## Lookup -/

theorem lookup_cons (b : α) (l : List α) (k : κ) :
    lookup key (b :: l) k = if key b = k then some b else lookup key l k := by
  unfold lookup
  by_cases h : key b = k
  · rw [if_pos h, List.find?_cons_of_pos (by simpa using h)]
  · rw [if_neg h, List.find?_cons_of_neg (by simpa using h)]

theorem lookup_eq_none_iff {l : List α} {k : κ} : lookup key l k = none ↔ k ∉ l.map key := by
  simp [lookup, List.find?_eq_none]

theorem lookup_isSome_iff {l : List α} {k : κ} : (lookup key l k).isSome ↔ k ∈ l.map key := by
  rw [← not_iff_not, ← lookup_eq_none_iff, Option.isSome_iff_ne_none, not_not]

theorem lookup_append (l m : List α) (k : κ) :
    lookup key (l ++ m) k = (lookup key l k).or (lookup key m k) :=
  List.find?_append

theorem mem_of_lookup {l : List α} {k : κ} {a : α} (h : lookup key l k = some a) :
    a ∈ l ∧ key a = k :=
  ⟨List.mem_of_find?_eq_some h, by simpa using List.find?_some h⟩

/-- Without repeated keys every record is the one its key finds. -/
theorem lookup_of_mem {l : List α} (hnodup : (l.map key).Nodup) {a : α} (h : a ∈ l) :
    lookup key l (key a) = some a := by
  induction l with
  | nil => simp at h
  | cons b l ih =>
      rw [List.map_cons, List.nodup_cons] at hnodup
      rw [lookup_cons]
      rcases List.mem_cons.1 h with rfl | hmem
      · rw [if_pos rfl]
      · have hne : key b ≠ key a := fun heq => hnodup.1 (heq ▸ List.mem_map_of_mem hmem)
        rw [if_neg hne, ih hnodup.2 hmem]

/-! ## Upserting one record -/

theorem upsert_of_not_mem {l : List α} {a : α} (h : key a ∉ l.map key) :
    upsert key l a = l ++ [a] := by
  induction l with
  | nil => rfl
  | cons b rest ih =>
      simp only [List.map_cons, List.mem_cons, not_or] at h
      rw [upsert, if_neg (fun he => h.1 he.symm), ih h.2, List.cons_append]

/-- Overwriting keeps every position. -/
theorem map_key_upsert_of_mem {l : List α} {a : α} (h : key a ∈ l.map key) :
    (upsert key l a).map key = l.map key := by
  induction l with
  | nil => simp at h
  | cons b rest ih =>
      rw [upsert]
      split
      · next he => simp [he]
      · next hne =>
          have hrest : key a ∈ rest.map key := by
            rw [List.map_cons, List.mem_cons] at h
            exact h.resolve_left (fun he => hne he.symm)
          simp [ih hrest]

theorem map_key_upsert (l : List α) (a : α) :
    (upsert key l a).map key
      = if key a ∈ l.map key then l.map key else l.map key ++ [key a] := by
  split
  · next h => exact map_key_upsert_of_mem key h
  · next h => simp [upsert_of_not_mem key h]

/-- After an upsert the key looks up the new record; every other key is untouched. -/
theorem lookup_upsert (l : List α) (a : α) (k : κ) :
    lookup key (upsert key l a) k = if key a = k then some a else lookup key l k := by
  induction l with
  | nil => simp [upsert, lookup]
  | cons b rest ih =>
      rw [upsert]
      by_cases hba : key b = key a
      · rw [if_pos hba]
        by_cases hak : key a = k
        · simp [lookup_cons, hak]
        · simp [lookup_cons, hba, hak]
      · rw [if_neg hba]
        by_cases hbk : key b = k
        · have hak : key a ≠ k := fun he => hba (hbk.trans he.symm)
          simp [lookup_cons, hbk, hak]
        · simp [lookup_cons, hbk, ih]

theorem mem_map_key_upsert {l : List α} {a : α} {k : κ} :
    k ∈ (upsert key l a).map key ↔ k ∈ l.map key ∨ k = key a := by
  rw [map_key_upsert]
  split
  · next h =>
      refine ⟨Or.inl, fun hk => hk.elim id ?_⟩
      rintro rfl
      exact h
  · simp

theorem nodup_upsert {l : List α} {a : α} (h : (l.map key).Nodup) :
    ((upsert key l a).map key).Nodup := by
  rw [map_key_upsert]
  split
  · exact h
  · next hnot =>
      exact h.append (List.nodup_singleton _) (List.disjoint_singleton.2 hnot)

/-- An upsert brings in no record but the one it is given. -/
theorem mem_of_mem_upsert {l : List α} {a b : α} (h : b ∈ upsert key l a) : b ∈ l ∨ b = a := by
  induction l with
  | nil => exact Or.inr (List.mem_singleton.1 h)
  | cons c l ih =>
      rw [upsert] at h
      split at h
      · exact (List.mem_cons.1 h).symm.imp_left (List.mem_cons_of_mem c)
      · rcases List.mem_cons.1 h with rfl | hmem
        · exact Or.inl List.mem_cons_self
        · exact (ih hmem).imp_left (List.mem_cons_of_mem c)

/-! ## Upserting a batch -/

theorem mem_of_mem_upsertAll {l batch : List α} {b : α} (h : b ∈ upsertAll key l batch) :
    b ∈ l ∨ b ∈ batch := by
  induction batch generalizing l with
  | nil => exact Or.inl h
  | cons a batch ih =>
      rcases ih h with hmem | hmem
      · rcases mem_of_mem_upsert key hmem with hold | rfl
        · exact Or.inl hold
        · exact Or.inr List.mem_cons_self
      · exact Or.inr (List.mem_cons_of_mem a hmem)

theorem mem_map_key_upsertAll {l batch : List α} {k : κ} :
    k ∈ (upsertAll key l batch).map key ↔ k ∈ l.map key ∨ k ∈ batch.map key := by
  induction batch generalizing l with
  | nil => simp
  | cons a batch ih =>
      rw [upsertAll_cons, ih, mem_map_key_upsert, List.map_cons, List.mem_cons, or_assoc]

theorem nodup_upsertAll {l batch : List α} (h : (l.map key).Nodup) :
    ((upsertAll key l batch).map key).Nodup := by
  induction batch generalizing l with
  | nil => exact h
  | cons a batch ih => exact ih (nodup_upsert key h)

/-- The last record of the batch with the key wins; otherwise the list's own answer stays. -/
theorem lookup_upsertAll (l batch : List α) (k : κ) :
    lookup key (upsertAll key l batch) k
      = (lookup key batch.reverse k).or (lookup key l k) := by
  induction batch generalizing l with
  | nil => simp [lookup]
  | cons a batch ih =>
      rw [upsertAll_cons, ih, lookup_upsert, List.reverse_cons, lookup_append, Option.or_assoc,
        lookup_cons]
      by_cases h : key a = k
      · simp [h]
      · simp [h, lookup]

/-- The keys a batch adds to `l`, in the order it first names them. -/
def newKeys (l batch : List α) : List κ :=
  match batch with
  | [] => []
  | a :: rest =>
      if key a ∈ l.map key then newKeys l rest else key a :: newKeys (l ++ [a]) rest

theorem newKeys_congr {l m : List α} (h : ∀ k, k ∈ l.map key ↔ k ∈ m.map key) (batch : List α) :
    newKeys key l batch = newKeys key m batch := by
  induction batch generalizing l m with
  | nil => rfl
  | cons a batch ih =>
      unfold newKeys
      rw [ih h, ih (l := l ++ [a]) (m := m ++ [a])
        (fun k => by simp only [List.map_append, List.mem_append, h k])]
      by_cases hmem : key a ∈ m.map key
      · rw [if_pos ((h _).2 hmem), if_pos hmem]
      · rw [if_neg (fun hc => hmem ((h _).1 hc)), if_neg hmem]

/-- A batch leaves the old keys where they were and appends its new keys in first-named order. -/
theorem map_key_upsertAll (l batch : List α) :
    (upsertAll key l batch).map key = l.map key ++ newKeys key l batch := by
  induction batch generalizing l with
  | nil => simp [newKeys]
  | cons a batch ih =>
      rw [upsertAll_cons, ih, newKeys, map_key_upsert]
      split
      · next h =>
          congr 1
          exact newKeys_congr key
            (fun k => by rw [mem_map_key_upsert]; exact ⟨fun hk => hk.elim id (by rintro rfl; exact h),
              Or.inl⟩) batch
      · next h => rw [upsert_of_not_mem key h, List.append_assoc, List.singleton_append]

/-- Records with the same keys add the same keys. -/
theorem newKeys_of_map_eq {l m batch batch' : List α} (h : l.map key = m.map key)
    (hbatch : batch.map key = batch'.map key) : newKeys key l batch = newKeys key m batch' := by
  induction batch generalizing l m batch' with
  | nil =>
      obtain rfl := List.map_eq_nil_iff.1 hbatch.symm
      rfl
  | cons a batch ih =>
      obtain ⟨b, batch', rfl, hkey, hrest⟩ := List.map_eq_cons_iff.1 hbatch.symm
      unfold newKeys
      rw [hkey, h, ih h hrest.symm]
      congr 2
      exact ih (by rw [List.map_append, List.map_append, h, List.map_singleton, List.map_singleton, hkey])
        hrest.symm

theorem map_key_upsertAll_of_map_eq {l m batch batch' : List α} (h : l.map key = m.map key)
    (hbatch : batch.map key = batch'.map key) :
    (upsertAll key l batch).map key = (upsertAll key m batch').map key := by
  rw [map_key_upsertAll, map_key_upsertAll, h, newKeys_of_map_eq key h hbatch]

theorem mem_newKeys {l batch : List α} {k : κ} (h : k ∈ newKeys key l batch) :
    k ∉ l.map key ∧ k ∈ batch.map key := by
  induction batch generalizing l with
  | nil => simp [newKeys] at h
  | cons a batch ih =>
      rw [newKeys] at h
      split at h
      · exact ⟨(ih h).1, List.mem_cons_of_mem _ (ih h).2⟩
      · next hnot =>
          rcases List.mem_cons.1 h with rfl | h
          · exact ⟨hnot, List.mem_cons_self ..⟩
          · obtain ⟨hl, hb⟩ := ih h
            simp only [List.map_append, List.mem_append, not_or] at hl
            exact ⟨hl.1, List.mem_cons_of_mem _ hb⟩

/-- New keys stand in the order of their first occurrence in the batch. -/
theorem pairwise_newKeys (l batch : List α) :
    (newKeys key l batch).Pairwise
      (fun k k' => (batch.map key).idxOf k < (batch.map key).idxOf k') := by
  induction batch generalizing l with
  | nil => exact List.Pairwise.nil
  | cons a batch ih =>
      -- other keys stand one place later in the longer batch
      have hshift : ∀ m : List α, (∀ k ∈ newKeys key m batch, k ≠ key a) →
          (newKeys key m batch).Pairwise
            (fun k k' => ((a :: batch).map key).idxOf k < ((a :: batch).map key).idxOf k') := by
        intro m hne
        refine (ih m).imp_of_mem ?_
        intro k k' hk hk' hlt
        rw [List.map_cons, List.idxOf_cons_ne _ (hne k hk).symm, List.idxOf_cons_ne _ (hne k' hk').symm]
        omega
      rw [newKeys]
      split
      · next hmem =>
          apply hshift
          rintro k hk rfl
          exact (mem_newKeys key hk).1 hmem
      · have hne : ∀ k ∈ newKeys key (l ++ [a]) batch, k ≠ key a := by
          rintro k hk rfl
          exact (mem_newKeys key hk).1 (by simp)
        refine List.Pairwise.cons ?_ (hshift _ hne)
        intro k hk
        rw [List.map_cons, List.idxOf_cons_self, List.idxOf_cons_ne _ (hne k hk).symm]
        omega

/-- The size after a batch counts the new keys once each. -/
theorem length_upsertAll (l batch : List α) :
    (upsertAll key l batch).length = l.length + (newKeys key l batch).length := by
  have h := congrArg List.length (map_key_upsertAll key l batch)
  simpa using h

theorem length_newKeys_le (l batch : List α) :
    (newKeys key l batch).length ≤ batch.countP (fun a => decide (key a ∉ l.map key)) := by
  induction batch generalizing l with
  | nil => simp [newKeys]
  | cons a batch ih =>
      rw [newKeys, List.countP_cons]
      split
      · next h => simpa [h] using ih l
      · next h =>
          have hle : batch.countP (fun b => decide (key b ∉ (l ++ [a]).map key))
              ≤ batch.countP (fun b => decide (key b ∉ l.map key)) := by
            apply List.countP_mono_left
            intro b _ hb
            simp only [List.map_append, List.mem_append, not_or, decide_eq_true_eq] at hb ⊢
            exact hb.1
          have := ih (l ++ [a])
          simp only [List.length_cons, h, not_false_eq_true, decide_true, if_true]
          omega

/-! ## Erasing -/

theorem map_key_eraseKey (l : List α) (k : κ) :
    (eraseKey key l k).map key = (l.map key).filter (· ≠ k) := by
  simp [eraseKey, List.filter_map, Function.comp_def]

theorem mem_map_key_eraseKey {l : List α} {k k' : κ} :
    k' ∈ (eraseKey key l k).map key ↔ k' ∈ l.map key ∧ k' ≠ k := by
  rw [map_key_eraseKey, List.mem_filter, decide_eq_true_eq]

theorem nodup_eraseKey {l : List α} {k : κ} (h : (l.map key).Nodup) :
    ((eraseKey key l k).map key).Nodup := by
  rw [map_key_eraseKey]
  exact h.filter _

theorem lookup_eraseKey_of_ne {l : List α} {k k' : κ} (h : k' ≠ k) :
    lookup key (eraseKey key l k) k' = lookup key l k' := by
  induction l with
  | nil => rfl
  | cons a l ih =>
      rw [lookup_cons]
      by_cases ha : key a = k
      · have hk' : key a ≠ k' := fun he => h (he.symm.trans ha)
        rw [if_neg hk', ← ih, eraseKey, List.filter_cons_of_neg (by simpa using ha)]
        rfl
      · rw [eraseKey, List.filter_cons_of_pos (by simpa using ha), lookup_cons]
        exact if_congr Iff.rfl rfl ih

/-- Erasing removes something exactly when the key is there. -/
theorem eraseKey_eq_self_iff {l : List α} {k : κ} : eraseKey key l k = l ↔ k ∉ l.map key := by
  rw [eraseKey, List.filter_eq_self]
  simp

theorem length_eraseKey_le (l : List α) (k : κ) : (eraseKey key l k).length ≤ l.length :=
  List.length_filter_le _ _

theorem length_eraseKey_eq_iff {l : List α} {k : κ} :
    (eraseKey key l k).length = l.length ↔ k ∉ l.map key := by
  rw [← eraseKey_eq_self_iff]
  exact ⟨List.filter_sublist.eq_of_length, congrArg List.length⟩

/-! ## All records of a key

`lookup` sees the first record of a key only. On a list with repeated keys the others are still
there, and an upsert leaves them alone. -/

/-- Every record with key `k`, in order. -/
def records (l : List α) (k : κ) : List α := l.filter (fun a => key a = k)

theorem records_cons (b : α) (l : List α) (k : κ) :
    records key (b :: l) k = if key b = k then b :: records key l k else records key l k := by
  simp [records, List.filter_cons]

theorem lookup_eq_head?_records (l : List α) (k : κ) : lookup key l k = (records key l k).head? :=
  List.head?_filter.symm

/-- A key is listed once for every record it has. -/
theorem count_map_key (l : List α) (k : κ) : (l.map key).count k = (records key l k).length := by
  rw [List.count, List.countP_map, List.countP_eq_length_filter, records]
  congr 1

/-- Without repeated keys the first record of a key is all there is of it. -/
theorem records_of_nodup {l : List α} (hnodup : (l.map key).Nodup) {k : κ} {a : α}
    (h : lookup key l k = some a) : records key l k = [a] := by
  rw [lookup_eq_head?_records] at h
  obtain ⟨rest, hrest⟩ := List.head?_eq_some_iff.1 h
  have hkey : ∀ b ∈ records key l k, key b = k := fun b hb => by
    simpa using (List.mem_filter.1 hb).2
  match rest with
  | [] => exact hrest
  | b :: rest =>
      have hsub : ((records key l k).map key).Nodup := hnodup.sublist (List.filter_sublist.map key)
      rw [hrest, List.map_cons, List.map_cons, List.nodup_cons] at hsub
      rw [hkey a (by rw [hrest]; simp), hkey b (by rw [hrest]; simp)] at hsub
      exact absurd (by simp) hsub.1

/-- Positions of keys and records of every key determine the list. -/
theorem ext_of_records {l m : List α} (hkeys : l.map key = m.map key)
    (hrecords : ∀ k, records key l k = records key m k) : l = m := by
  induction l generalizing m with
  | nil => exact (List.map_eq_nil_iff.1 hkeys.symm).symm
  | cons a l ih =>
      match m with
      | [] => simp at hkeys
      | b :: m =>
          simp only [List.map_cons, List.cons.injEq] at hkeys
          have hhead := hrecords (key a)
          rw [records_cons, records_cons, if_pos rfl, if_pos hkeys.1.symm, List.cons.injEq] at hhead
          obtain ⟨rfl, -⟩ := hhead
          congr 1
          refine ih hkeys.2 fun k => ?_
          have hk := hrecords k
          rw [records_cons, records_cons] at hk
          split at hk
          · exact (List.cons.inj hk).2
          · exact hk

theorem records_upsert (l : List α) (a : α) (k : κ) :
    records key (upsert key l a) k
      = if key a = k then a :: (records key l k).tail else records key l k := by
  induction l with
  | nil => rw [upsert, records_cons]; simp [records]
  | cons b rest ih =>
      rw [upsert]
      by_cases hba : key b = key a
      · rw [if_pos hba]
        by_cases hak : key a = k
        · simp [records_cons, hba, hak]
        · simp [records_cons, hba, hak]
      · rw [if_neg hba, records_cons, ih, records_cons]
        by_cases hbk : key b = k
        · have hak : key a ≠ k := fun he => hba (hbk.trans he.symm)
          simp [hbk, hak]
        · simp [hbk]

/-- A batch replaces the first record of each key it names by the last record it has for it. -/
theorem records_upsertAll (l batch : List α) (k : κ) :
    records key (upsertAll key l batch) k
      = match lookup key batch.reverse k with
        | some a => a :: (records key l k).tail
        | none => records key l k := by
  induction batch generalizing l with
  | nil => simp [lookup]
  | cons b batch ih =>
      rw [upsertAll_cons, ih, List.reverse_cons, lookup_append, lookup_cons]
      cases hrev : lookup key batch.reverse k with
      | some a =>
          simp only [records_upsert, Option.some_or]
          split <;> simp
      | none =>
          simp only [records_upsert, Option.none_or]
          split <;> simp [lookup]

/-- **When a batch changes nothing**: every key it names is there already, its first record equal to
    the last record the batch has for it. -/
theorem upsertAll_eq_self_iff {l batch : List α} :
    upsertAll key l batch = l ↔
      ∀ a ∈ batch, lookup key l (key a) = lookup key batch.reverse (key a) := by
  constructor
  · intro h a ha
    have hsome : (lookup key batch.reverse (key a)).isSome := by
      rw [lookup_isSome_iff]
      exact List.mem_map_of_mem (List.mem_reverse.2 ha)
    obtain ⟨b, hb⟩ := Option.isSome_iff_exists.1 hsome
    have hlookup := lookup_upsertAll key l batch (key a)
    rw [h, hb, Option.some_or] at hlookup
    rw [hlookup, hb]
  · intro h
    have hpresent : ∀ k ∈ batch.map key, k ∈ l.map key := by
      intro k hk
      obtain ⟨a, ha, rfl⟩ := List.mem_map.1 hk
      rw [← lookup_isSome_iff, h a ha, lookup_isSome_iff]
      exact List.mem_map_of_mem (List.mem_reverse.2 ha)
    have hnew : newKeys key l batch = [] := by
      apply List.eq_nil_iff_forall_not_mem.2
      intro k hk
      exact (mem_newKeys key hk).1 (hpresent k (mem_newKeys key hk).2)
    -- no position moves, so it is enough to compare the records of every key
    refine ext_of_records key (by rw [map_key_upsertAll, hnew, List.append_nil]) fun k => ?_
    rw [records_upsertAll]
    cases hrev : lookup key batch.reverse k with
    | none => rfl
    | some a =>
        obtain ⟨hmem, rfl⟩ := mem_of_lookup key hrev
        have hhead := h a (List.mem_reverse.1 hmem)
        rw [hrev, lookup_eq_head?_records] at hhead
        exact (List.eq_cons_of_mem_head? hhead).symm

/-- **A batch that was upserted changes nothing the second time**, also on a list with repeated
    keys. -/
theorem upsertAll_upsertAll_self (l batch : List α) :
    upsertAll key (upsertAll key l batch) batch = upsertAll key l batch := by
  rw [upsertAll_eq_self_iff]
  intro a ha
  have hsome : (lookup key batch.reverse (key a)).isSome := by
    rw [lookup_isSome_iff]
    exact List.mem_map_of_mem (List.mem_reverse.2 ha)
  rw [lookup_upsertAll, Option.or_of_isSome hsome]

theorem eraseKey_eraseKey_self (l : List α) (k : κ) :
    eraseKey key (eraseKey key l k) k = eraseKey key l k := by
  rw [eraseKey_eq_self_iff, mem_map_key_eraseKey]
  exact fun hmem => hmem.2 rfl

/-! ## Reordered batches -/

/-- A permutation that keeps the order of the records with one key. -/
structure Reordered (batch batch' : List α) : Prop where
  perm : batch.Perm batch'
  agree : ∀ k, records key batch k = records key batch' k

/-- Records of every key make up the list. -/
theorem perm_of_records {l m : List α} (h : ∀ k, records key l k = records key m k) : l.Perm m := by
  classical
  rw [List.perm_iff_count]
  intro a
  have hcount : ∀ l : List α, l.count a = (records key l (key a)).count a := by
    intro l
    rw [records, List.count_filter (by simp)]
  rw [hcount l, hcount m, h]

/-- Without repeated keys every permutation will do. -/
theorem reordered_of_perm {batch batch' : List α} (hperm : batch.Perm batch')
    (hnodup : (batch.map key).Nodup) : Reordered key batch batch' := by
  refine ⟨hperm, fun k => ?_⟩
  have hrecords : (records key batch k).Perm (records key batch' k) := hperm.filter _
  have hshort : (records key batch k).length ≤ 1 := by
    rw [← count_map_key]
    exact List.nodup_iff_count_le_one.1 hnodup k
  match hbatch : records key batch k with
  | [] => rw [hbatch] at hrecords; exact (List.nil_perm.1 hrecords).symm
  | [a] => rw [hbatch] at hrecords; exact List.singleton_perm.1 hrecords
  | a :: b :: rest => rw [hbatch] at hshort; simp at hshort

/-- The keys that were there keep their positions, and the new ones come behind them. -/
theorem getElem?_upsertAll_key {l batch : List α} {i : ℕ} {a : α}
    (h : (upsertAll key l batch)[i]? = some a) : key a ∈ l.map key ↔ i < l.length := by
  have hkey : ((upsertAll key l batch).map key)[i]? = some (key a) := by
    rw [List.getElem?_map, h, Option.map_some]
  rw [map_key_upsertAll] at hkey
  by_cases hi : i < l.length
  · rw [List.getElem?_append_left (by simpa using hi)] at hkey
    exact iff_of_true (List.mem_of_getElem? hkey) hi
  · rw [List.getElem?_append_right (by simpa using hi)] at hkey
    exact iff_of_false (mem_newKeys key (List.mem_of_getElem? hkey)).1 hi

variable {key}

/-- The last record of a key decides what an upsert leaves, so the order among keys does not. -/
theorem Reordered.records_upsertAll_eq {batch batch' : List α} (h : Reordered key batch batch')
    (l : List α) (k : κ) :
    records key (upsertAll key l batch) k
      = records key (upsertAll key l batch') k := by
  have hlast : ∀ batch : List α, lookup key batch.reverse k
      = (records key batch k).getLast? := by
    intro batch
    rw [lookup_eq_head?_records, records, List.filter_reverse, List.head?_reverse]
    rfl
  rw [records_upsertAll, records_upsertAll, hlast, hlast, h.agree]

/-- **Position by position**, the records of the keys that were there are the same. -/
theorem Reordered.take_upsertAll {batch batch' : List α} (h : Reordered key batch batch')
    (l : List α) :
    (upsertAll key l batch).take l.length = (upsertAll key l batch').take l.length := by
  have hkeys : ∀ batch : List α, ((upsertAll key l batch).take l.length).map key = l.map key := by
    intro batch
    rw [List.map_take, map_key_upsertAll, List.take_left' (List.length_map key)]
  -- the first positions hold all records of the keys that were there
  have hfront : ∀ (batch : List α) (k : κ),
      records key ((upsertAll key l batch).take l.length) k
        = if k ∈ l.map key then records key (upsertAll key l batch) k else [] := by
    intro batch k
    split
    · next hmem =>
        have hback : records key ((upsertAll key l batch).drop l.length) k = [] := by
          rw [records, List.filter_eq_nil_iff]
          intro a ha hkey
          obtain ⟨i, hi⟩ := List.mem_iff_getElem?.1 ha
          rw [List.getElem?_drop] at hi
          have hold := (getElem?_upsertAll_key key hi).1 ((of_decide_eq_true hkey).symm ▸ hmem)
          omega
        conv_rhs => rw [← List.take_append_drop l.length (upsertAll key l batch)]
        rw [records] at hback ⊢
        rw [records, List.filter_append, hback, List.append_nil]
    · next hnot =>
        rw [records, List.filter_eq_nil_iff]
        intro a ha hkey
        have hmem : key a ∈ l.map key := by
          rw [← hkeys batch]
          exact List.mem_map_of_mem ha
        exact hnot (of_decide_eq_true hkey ▸ hmem)
  refine ext_of_records key ((hkeys batch).trans (hkeys batch').symm) fun k => ?_
  rw [hfront, hfront, h.records_upsertAll_eq]

end KeyedList
