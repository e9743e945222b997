import AsmProto.Lib.KeyedList

set_option autoImplicit false

/-! # Keyed lists seen through some of their keys

`view p l` is the part of a keyed list whose keys satisfy `p`. The operations on keyed lists commute
with it where they work on keys in view, and go unnoticed where they work on others. -/

namespace KeyedList

variable {α κ : Type} (key : α → κ) (p : κ → Bool)

/-- The records whose keys are in view. -/
def view (l : List α) : List α := l.filter fun a => p (key a)

@[simp] theorem view_nil : view key p ([] : List α) = [] := rfl

theorem view_cons_of_visible {a : α} (h : p (key a) = true) (l : List α) :
    view key p (a :: l) = a :: view key p l := by
  simp [view, h]

theorem view_cons_of_hidden {a : α} (h : p (key a) = false) (l : List α) :
    view key p (a :: l) = view key p l := by
  simp [view, h]

theorem map_key_view (l : List α) : (view key p l).map key = (l.map key).filter p := by
  rw [view, List.filter_map]
  rfl

theorem mem_map_key_view {l : List α} {k : κ} :
    k ∈ (view key p l).map key ↔ k ∈ l.map key ∧ p k = true := by
  rw [map_key_view, List.mem_filter]

theorem length_view_le (l : List α) : (view key p l).length ≤ l.length := List.length_filter_le _ _

variable [DecidableEq κ]

theorem view_upsert_of_visible {a : α} (h : p (key a) = true) (l : List α) :
    view key p (upsert key l a) = upsert key (view key p l) a := by
  induction l with
  | nil => simp [view, upsert, h]
  | cons b l ih =>
      rw [upsert]
      by_cases hkey : key b = key a
      · have hb : p (key b) = true := by rw [hkey, h]
        rw [if_pos hkey, view_cons_of_visible key p h, view_cons_of_visible key p hb, upsert,
          if_pos hkey]
      · rw [if_neg hkey]
        cases hb : p (key b) with
        | true =>
            rw [view_cons_of_visible key p hb, view_cons_of_visible key p hb, upsert, if_neg hkey, ih]
        | false => rw [view_cons_of_hidden key p hb, view_cons_of_hidden key p hb, ih]

theorem view_upsert_of_hidden {a : α} (h : p (key a) = false) (l : List α) :
    view key p (upsert key l a) = view key p l := by
  induction l with
  | nil => simp [view, upsert, h]
  | cons b l ih =>
      rw [upsert]
      by_cases hkey : key b = key a
      · have hb : p (key b) = false := by rw [hkey, h]
        rw [if_pos hkey, view_cons_of_hidden key p h, view_cons_of_hidden key p hb]
      · rw [if_neg hkey]
        cases hb : p (key b) with
        | true => rw [view_cons_of_visible key p hb, view_cons_of_visible key p hb, ih]
        | false => rw [view_cons_of_hidden key p hb, view_cons_of_hidden key p hb, ih]

/-- A batch of visible records is loaded into the view. -/
theorem view_upsertAll_of_visible {batch : List α} (h : ∀ a ∈ batch, p (key a) = true)
    (l : List α) : view key p (upsertAll key l batch) = upsertAll key (view key p l) batch := by
  induction batch generalizing l with
  | nil => rfl
  | cons a batch ih =>
      rw [upsertAll_cons, upsertAll_cons, ih fun b hb => h b (List.mem_cons_of_mem a hb),
        view_upsert_of_visible key p (h a List.mem_cons_self)]

/-- A batch of hidden records is not seen. -/
theorem view_upsertAll_of_hidden {batch : List α} (h : ∀ a ∈ batch, p (key a) = false)
    (l : List α) : view key p (upsertAll key l batch) = view key p l := by
  induction batch generalizing l with
  | nil => rfl
  | cons a batch ih =>
      rw [upsertAll_cons, ih fun b hb => h b (List.mem_cons_of_mem a hb),
        view_upsert_of_hidden key p (h a List.mem_cons_self)]

theorem view_eraseKey (l : List α) (k : κ) :
    view key p (eraseKey key l k) = eraseKey key (view key p l) k := by
  rw [view, view, eraseKey, eraseKey, List.filter_filter, List.filter_filter]
  exact List.filter_congr fun a _ => Bool.and_comm _ _

theorem view_eraseKey_of_hidden {k : κ} (h : p k = false) (l : List α) :
    view key p (eraseKey key l k) = view key p l := by
  rw [view_eraseKey, eraseKey_eq_self_iff, mem_map_key_view]
  simp [h]

end KeyedList
