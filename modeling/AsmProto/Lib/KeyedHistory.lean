import AsmProto.Lib.KeyedList

set_option autoImplicit false

/-! # Keyed lists defined by their history

`replay` runs a sequence of operations (load a batch, erase a key, clear) on an empty keyed list. The
theorems below answer every question about the resulting list from the sequence alone, without the
intermediate lists: which keys are present (`mem_replay_iff`), which record each holds
(`lookup_replay`), and in which order they stand (`replay_ordered`). -/

namespace KeyedList

variable {α κ : Type}

/-- What one step of a history does to the list. -/
inductive Op (α κ : Type) where
  | load (batch : List α)
  | erase (k : κ)
  | clear
  | skip

variable [DecidableEq κ] (key : α → κ)

def Op.apply (l : List α) : Op α κ → List α
  | .load batch => upsertAll key l batch
  | .erase k => eraseKey key l k
  | .clear => []
  | .skip => l

/-- The list after a history that starts empty. -/
def replay (history : List (Op α κ)) : List α := history.foldl (Op.apply key) []

@[simp] theorem replay_nil : replay key ([] : List (Op α κ)) = [] := rfl

theorem replay_concat (history : List (Op α κ)) (op : Op α κ) :
    replay key (history ++ [op]) = op.apply key (replay key history) := by
  simp [replay]

/-- The step loads a record with key `k`. -/
def Op.Loads (k : κ) (op : Op α κ) : Prop := ∃ batch, op = .load batch ∧ k ∈ batch.map key

/-- The step removes key `k`, alone or with all others. -/
def Op.Removes (k : κ) (op : Op α κ) : Prop := op = .erase k ∨ op = .clear

/-- **Presence, read off the history**: some step loads `k` and none after it removes `k`. -/
def Present (history : List (Op α κ)) (k : κ) : Prop :=
  ∃ before op after, history = before ++ op :: after ∧ op.Loads key k ∧
    ∀ later ∈ after, ¬ Op.Removes k later

/-- A split of a history one step longer is at the last step or inside the earlier ones. -/
theorem concat_eq_append_cons_iff {β : Type} {l before after : List β} {last op : β} :
    l ++ [last] = before ++ op :: after ↔
      (before = l ∧ op = last ∧ after = []) ∨
        ∃ after', l = before ++ op :: after' ∧ after = after' ++ [last] := by
  constructor
  · intro h
    rcases List.eq_nil_or_concat after with rfl | ⟨init, b, rfl⟩
    · obtain ⟨hl, hlast⟩ := List.append_inj' h rfl
      simp only [List.cons.injEq, and_true] at hlast
      exact Or.inl ⟨hl.symm, hlast.symm, rfl⟩
    · have h' : l ++ [last] = (before ++ op :: init) ++ [b] := by simpa using h
      obtain ⟨hl, hlast⟩ := List.append_inj' h' rfl
      simp only [List.cons.injEq, and_true] at hlast
      exact Or.inr ⟨init, hl, by simp [hlast]⟩
  · intro h
    rcases h with ⟨rfl, rfl, rfl⟩ | ⟨after', rfl, rfl⟩
    · rfl
    · simp

omit [DecidableEq κ] in
theorem not_present_nil (k : κ) : ¬ Present key ([] : List (Op α κ)) k := by
  intro hpresent
  rcases hpresent with ⟨before, op, after, h, -⟩
  simp at h

omit [DecidableEq κ] in
/-- Presence after one more step. -/
theorem present_concat {history : List (Op α κ)} {op : Op α κ} {k : κ} :
    Present key (history ++ [op]) k ↔
      op.Loads key k ∨ (Present key history k ∧ ¬ Op.Removes k op) := by
  constructor
  · intro hpresent
    rcases hpresent with ⟨before, loaded, after, hsplit, hloads, hafter⟩
    rcases concat_eq_append_cons_iff.1 hsplit with ⟨-, rfl, rfl⟩ | ⟨after', rfl, rfl⟩
    · exact Or.inl hloads
    · exact Or.inr ⟨⟨before, loaded, after', rfl, hloads,
        fun later hlater => hafter later (List.mem_append_left _ hlater)⟩, hafter op (by simp)⟩
  · intro h
    rcases h with hloads | ⟨⟨before, loaded, after, rfl, hloads, hafter⟩, hop⟩
    · exact ⟨history, op, [], rfl, hloads, by simp⟩
    · refine ⟨before, loaded, after ++ [op], by simp, hloads, fun later hlater => ?_⟩
      rcases List.mem_append.1 hlater with h | h
      · exact hafter later h
      · rw [List.mem_singleton.1 h]
        exact hop

/-- **The present keys are the keys of the replayed list.** -/
theorem mem_replay_iff {history : List (Op α κ)} {k : κ} :
    k ∈ (replay key history).map key ↔ Present key history k := by
  induction history using List.reverseRecOn with
  | nil => simp [not_present_nil key k]
  | append_singleton history op ih =>
      rw [replay_concat, present_concat, ← ih]
      cases op with
      | load batch =>
          simp only [Op.apply, mem_map_key_upsertAll, Op.Loads, Op.Removes, Op.load.injEq,
            exists_eq_left', reduceCtorEq, or_self, not_false_eq_true, and_true]
          exact or_comm
      | erase k' =>
          simp only [Op.apply, mem_map_key_eraseKey, Op.Loads, Op.Removes, reduceCtorEq, false_and,
            exists_false, false_or, Op.erase.injEq, or_false, ne_eq, eq_comm]
      | clear => simp [Op.apply, Op.Loads, Op.Removes]
      | skip => simp [Op.apply, Op.Loads, Op.Removes]

omit [DecidableEq κ] in
/-- A present key has a latest load. -/
theorem exists_latest_load {history : List (Op α κ)} {k : κ} (h : Present key history k) :
    ∃ before batch after, history = before ++ .load batch :: after ∧ k ∈ batch.map key ∧
      ∀ later ∈ after, ¬ later.Loads key k ∧ ¬ Op.Removes k later := by
  induction history using List.reverseRecOn with
  | nil => exact absurd h (not_present_nil key k)
  | append_singleton history op ih =>
      by_cases hloads : op.Loads key k
      · obtain ⟨batch, rfl, hmem⟩ := hloads
        exact ⟨history, batch, [], rfl, hmem, by simp⟩
      · obtain ⟨hpresent, hkept⟩ := ((present_concat key).1 h).resolve_left hloads
        obtain ⟨before, batch, after, rfl, hmem, hafter⟩ := ih hpresent
        refine ⟨before, batch, after ++ [op], by simp, hmem, fun later hlater => ?_⟩
        rcases List.mem_append.1 hlater with hl | hl
        · exact hafter later hl
        · rw [List.mem_singleton.1 hl]
          exact ⟨hloads, hkept⟩

/-- A step that neither loads nor removes `k` leaves the record of `k`. -/
theorem lookup_apply_of_not_mem {l : List α} {op : Op α κ} {k : κ} (hload : ¬ op.Loads key k)
    (hremove : ¬ Op.Removes k op) : lookup key (op.apply key l) k = lookup key l k := by
  cases op with
  | load batch =>
      have hnone : lookup key batch.reverse k = none := by
        rw [lookup_eq_none_iff, List.map_reverse, List.mem_reverse]
        exact fun hk => hload ⟨batch, rfl, hk⟩
      rw [Op.apply, lookup_upsertAll, hnone, Option.none_or]
  | erase k' =>
      have hne : k ≠ k' := fun he => hremove (Or.inl (by rw [he]))
      rw [Op.apply, lookup_eraseKey_of_ne key hne]
  | clear => exact absurd (Or.inr rfl) hremove
  | skip => rfl

/-- **The record held for `k` is the last one with that key in the latest batch naming it.** -/
theorem lookup_replay {before after : List (Op α κ)} {batch : List α} {k : κ}
    (hk : k ∈ batch.map key)
    (hafter : ∀ later ∈ after, ¬ later.Loads key k ∧ ¬ Op.Removes k later) :
    lookup key (replay key (before ++ .load batch :: after)) k = lookup key batch.reverse k := by
  induction after using List.reverseRecOn with
  | nil =>
      have hsome : (lookup key batch.reverse k).isSome := by
        rw [lookup_isSome_iff, List.map_reverse, List.mem_reverse]
        exact hk
      obtain ⟨a, ha⟩ := Option.isSome_iff_exists.1 hsome
      rw [replay_concat, Op.apply, lookup_upsertAll, ha, Option.some_or]
  | append_singleton after op ih =>
      have hop := hafter op (by simp)
      rw [← List.cons_append, ← List.append_assoc, replay_concat,
        lookup_apply_of_not_mem key hop.1 hop.2]
      exact ih fun later hlater => hafter later (List.mem_append_left _ hlater)

/-! ## Order -/

/-- `k` was inserted by step `i`, at place `j` of its batch: the step loads `k` while `k` is absent,
    and no later step removes it. -/
def InsertedAt (history : List (Op α κ)) (k : κ) (i j : ℕ) : Prop :=
  ∃ before batch after, history = before ++ .load batch :: after ∧ before.length = i ∧
    ¬ Present key before k ∧ k ∈ batch.map key ∧ (batch.map key).idxOf k = j ∧
    ∀ later ∈ after, ¬ Op.Removes k later

/-- A key inserted by an earlier step, or earlier in the batch of the same step. -/
def InsertedBefore (history : List (Op α κ)) (k k' : κ) : Prop :=
  ∀ i j i' j', InsertedAt key history k i j → InsertedAt key history k' i' j' →
    i < i' ∨ (i = i' ∧ j < j')

/-- An insertion in a history one step longer: by the last step, or an earlier one it kept. -/
theorem insertedAt_concat {history : List (Op α κ)} {op : Op α κ} {k : κ} {i j : ℕ}
    (h : InsertedAt key (history ++ [op]) k i j) :
    (∃ batch, op = .load batch ∧ i = history.length ∧ ¬ Present key history k ∧
        (batch.map key).idxOf k = j) ∨ InsertedAt key history k i j := by
  obtain ⟨before, batch, after, hsplit, hi, habsent, hmem, hj, hafter⟩ := h
  rcases concat_eq_append_cons_iff.1 hsplit with ⟨rfl, hop, rfl⟩ | ⟨after', rfl, rfl⟩
  · exact Or.inl ⟨batch, hop.symm, hi.symm, habsent, hj⟩
  · exact Or.inr ⟨before, batch, after', rfl, hi, habsent, hmem, hj,
      fun later hlater => hafter later (List.mem_append_left _ hlater)⟩

/-- Every present key was inserted by some step. -/
theorem exists_insertedAt {history : List (Op α κ)} {k : κ} (h : Present key history k) :
    ∃ i j, InsertedAt key history k i j := by
  induction history using List.reverseRecOn with
  | nil => exact absurd h (not_present_nil key k)
  | append_singleton history op ih =>
      by_cases hpresent : Present key history k ∧ ¬ Op.Removes k op
      · obtain ⟨i, j, before, batch, after, rfl, hi, habsent, hmem, hj, hafter⟩ := ih hpresent.1
        refine ⟨i, j, before, batch, after ++ [op], by simp, hi, habsent, hmem, hj,
          fun later hlater => ?_⟩
        rcases List.mem_append.1 hlater with hl | hl
        · exact hafter later hl
        · rw [List.mem_singleton.1 hl]
          exact hpresent.2
      · -- the key is not carried over, so the last step loads it while it is absent
        obtain ⟨batch, rfl, hmem⟩ := ((present_concat key).1 h).resolve_right hpresent
        have habsent : ¬ Present key history k :=
          fun hp => hpresent ⟨hp, by simp [Op.Removes]⟩
        exact ⟨_, _, history, batch, [], rfl, rfl, habsent, hmem, rfl, by simp⟩

theorem insertedAt_lt {history : List (Op α κ)} {k : κ} {i j : ℕ}
    (h : InsertedAt key history k i j) : i < history.length := by
  obtain ⟨before, batch, after, rfl, rfl, -⟩ := h
  simp

/-- A key the list already holds was not inserted by the last step. -/
theorem insertedAt_of_mem {history : List (Op α κ)} {op : Op α κ} {k : κ} {i j : ℕ}
    (hk : k ∈ (replay key history).map key) (h : InsertedAt key (history ++ [op]) k i j) :
    InsertedAt key history k i j := by
  rcases insertedAt_concat key h with ⟨_, -, -, habsent, -⟩ | h
  · exact absurd ((mem_replay_iff key).1 hk) habsent
  · exact h

/-- **The list stands in insertion order.** -/
theorem replay_ordered (history : List (Op α κ)) :
    ((replay key history).map key).Pairwise (InsertedBefore key history) := by
  induction history using List.reverseRecOn with
  | nil => simp
  | append_singleton history op ih =>
      -- the keys that stay keep their insertions, hence their order
      have hkept : ((replay key history).map key).Pairwise
          (InsertedBefore key (history ++ [op])) := by
        refine ih.imp_of_mem fun {k k'} hk hk' hbefore => ?_
        intro i j i' j' h h'
        exact hbefore i j i' j' (insertedAt_of_mem key hk h) (insertedAt_of_mem key hk' h')
      rw [replay_concat]
      cases op with
      | erase k =>
          rw [Op.apply, map_key_eraseKey]
          exact hkept.filter _
      | clear => exact List.Pairwise.nil
      | skip => exact hkept
      | load batch =>
          rw [Op.apply, map_key_upsertAll, List.pairwise_append]
          refine ⟨hkept, ?_, ?_⟩
          · -- two keys of this batch: same step, order of first occurrence
            refine (pairwise_newKeys key (replay key history) batch).imp_of_mem ?_
            intro k k' hk hk' hlt i j i' j' h h'
            have hlast : ∀ {k i j}, k ∈ newKeys key (replay key history) batch →
                InsertedAt key (history ++ [Op.load batch]) k i j →
                i = history.length ∧ (batch.map key).idxOf k = j := by
              intro k i j hk h
              rcases insertedAt_concat key h with ⟨_, hop, hi, -, hj⟩ | h
              · rw [Op.load.injEq] at hop
                subst hop
                exact ⟨hi, hj⟩
              · obtain ⟨before, b, after, hsplit, -, -, hmem, -, hafter⟩ := h
                exact absurd ((mem_replay_iff key).2 ⟨before, .load b, after, hsplit,
                  ⟨b, rfl, hmem⟩, hafter⟩) (mem_newKeys key hk).1
            obtain ⟨rfl, rfl⟩ := hlast hk h
            obtain ⟨rfl, rfl⟩ := hlast hk' h'
            exact Or.inr ⟨rfl, hlt⟩
          · -- an old key before a new one: an earlier step
            intro k hk k' hk' i j i' j' h h'
            have hi := insertedAt_lt key (insertedAt_of_mem key hk h)
            rcases insertedAt_concat key h' with ⟨_, -, hi', -, -⟩ | h'
            · exact Or.inl (by omega)
            · obtain ⟨before, b, after, hsplit, -, -, hmem, -, hafter⟩ := h'
              exact absurd ((mem_replay_iff key).2 ⟨before, .load b, after, hsplit,
                ⟨b, rfl, hmem⟩, hafter⟩) (mem_newKeys key hk').1

end KeyedList
