import Mathlib.Data.Fintype.Card
import Mathlib.Data.List.Count
import Mathlib.Logic.Function.Basic

set_option autoImplicit false

/-! # Handles with one owner

A system gives out handles and takes them back; owners hold at most one handle each, acquire one from
the system, pass it on or give it back. As long as a handle is only given out while nobody has it, every
handle that is out has exactly one owner, and the books of the system balance. -/

universe u v

/-- Who holds what, and the books of the system: the handles that are out, and all that were ever taken
    and returned. -/
structure Ownership (N : Type u) (H : Type v) where
  holds : N → Option H := fun _ => none
  out : List H := []
  taken : List H := []
  returned : List H := []

namespace Ownership

variable {N : Type u} {H : Type v} [DecidableEq N] [DecidableEq H]

def acquire (o : Ownership N H) (n : N) (h : H) : Ownership N H where
  holds := Function.update o.holds n (some h)
  out := h :: o.out
  taken := o.taken ++ [h]
  returned := o.returned

/-- Giving back the handle that `n` holds. -/
def giveBack (o : Ownership N H) (n : N) (h : H) : Ownership N H where
  holds := Function.update o.holds n none
  out := o.out.erase h
  taken := o.taken
  returned := o.returned ++ [h]

/-- Giving back what `n` holds, if it holds something. -/
def release (o : Ownership N H) (n : N) : Ownership N H :=
  match o.holds n with
  | none => o
  | some h => o.giveBack n h

/-- Passing what `m` holds on to `n`, who holds nothing. -/
def pass (o : Ownership N H) (m n : N) : Ownership N H :=
  { o with holds := Function.update (Function.update o.holds m none) n (o.holds m) }

/-- Every handle that is out has one owner, and the books balance. -/
structure Exclusive (o : Ownership N H) : Prop where
  owned : ∀ h, h ∈ o.out ↔ ∃ n, o.holds n = some h
  unique : ∀ {n m h}, o.holds n = some h → o.holds m = some h → n = m
  nodup : o.out.Nodup
  balance : ∀ h, o.taken.count h = o.returned.count h + o.out.count h

omit [DecidableEq N] in
theorem exclusive_empty : ({} : Ownership N H).Exclusive where
  owned h := ⟨fun hmem => absurd hmem (by simp), fun ⟨n, hn⟩ => by cases hn⟩
  unique := by
    intro n m h hn
    cases hn
  nodup := List.nodup_nil
  balance h := rfl

variable {o : Ownership N H}

theorem Exclusive.acquire (h : o.Exclusive) {n : N} {handle : H} (hempty : o.holds n = none)
    (hfresh : handle ∉ o.out) : (o.acquire n handle).Exclusive where
  owned handle' := by
    simp only [Ownership.acquire, List.mem_cons, h.owned]
    refine ⟨fun hout => ?_, fun howned => ?_⟩
    · rcases hout with rfl | ⟨m, hm⟩
      · exact ⟨n, Function.update_self ..⟩
      · refine ⟨m, ?_⟩
        rw [Function.update_of_ne]
        · exact hm
        · rintro rfl
          rw [hempty] at hm
          cases hm
    · obtain ⟨m, hm⟩ := howned
      by_cases hmn : m = n
      · subst hmn
        rw [Function.update_self, Option.some.injEq] at hm
        exact Or.inl hm.symm
      · rw [Function.update_of_ne hmn] at hm
        exact Or.inr ⟨m, hm⟩
  unique := by
    intro m k handle' hm hk
    have hnot : ∀ m, o.holds m ≠ some handle := fun m hm => hfresh ((h.owned handle).2 ⟨m, hm⟩)
    simp only [Ownership.acquire] at hm hk
    by_cases hmn : m = n
    · by_cases hkn : k = n
      · rw [hmn, hkn]
      · subst hmn
        rw [Function.update_self, Option.some.injEq] at hm
        rw [Function.update_of_ne hkn, ← hm] at hk
        exact absurd hk (hnot k)
    · rw [Function.update_of_ne hmn] at hm
      by_cases hkn : k = n
      · subst hkn
        rw [Function.update_self, Option.some.injEq] at hk
        rw [← hk] at hm
        exact absurd hm (hnot m)
      · rw [Function.update_of_ne hkn] at hk
        exact h.unique hm hk
  nodup := List.nodup_cons.2 ⟨hfresh, h.nodup⟩
  balance handle' := by
    simp only [Ownership.acquire, List.count_append, List.count_cons, List.count_nil, h.balance]
    omega

theorem Exclusive.giveBack (h : o.Exclusive) {n : N} {handle : H} (hn : o.holds n = some handle) :
    (o.giveBack n handle).Exclusive := by
  have hother : ∀ m handle', (o.giveBack n handle).holds m = some handle' ↔
      m ≠ n ∧ o.holds m = some handle' := by
    intro m handle'
    simp only [Ownership.giveBack]
    by_cases hmn : m = n
    · subst hmn
      rw [Function.update_self]
      exact iff_of_false (by simp) (fun hne => hne.1 rfl)
    · rw [Function.update_of_ne hmn]
      exact ⟨fun hm => ⟨hmn, hm⟩, And.right⟩
  refine ⟨fun handle' => ?_, ?_, h.nodup.erase handle, fun handle' => ?_⟩
  · simp only [hother]
    show handle' ∈ o.out.erase handle ↔ _
    rw [h.nodup.mem_erase_iff, h.owned]
    refine ⟨fun hleft => ?_, fun howned => ?_⟩
    · obtain ⟨hne, m, hm⟩ := hleft
      refine ⟨m, ?_, hm⟩
      rintro rfl
      exact hne (Option.some.inj (hm.symm.trans hn))
    · obtain ⟨m, hmn, hm⟩ := howned
      refine ⟨?_, m, hm⟩
      rintro rfl
      exact hmn (h.unique hm hn)
  · intro m k handle' hm hk
    exact h.unique ((hother m handle').1 hm).2 ((hother k handle').1 hk).2
  · have hbalance := h.balance handle'
    have hpos : 0 < o.out.count handle := List.count_pos_iff.2 ((h.owned handle).2 ⟨n, hn⟩)
    simp only [Ownership.giveBack, List.count_append, List.count_cons, List.count_nil,
      List.count_erase]
    by_cases hsame : handle = handle'
    · subst hsame
      simp only [beq_self_eq_true, if_true]
      omega
    · simp only [beq_iff_eq, hsame, if_false]
      omega

theorem Exclusive.release (h : o.Exclusive) (n : N) : (o.release n).Exclusive := by
  unfold Ownership.release
  cases hn : o.holds n with
  | none => exact h
  | some handle => exact h.giveBack hn

theorem Exclusive.pass (h : o.Exclusive) {m n : N} (hempty : o.holds n = none) :
    (o.pass m n).Exclusive := by
  have hpassed : ∀ k handle, (o.pass m n).holds k = some handle ↔
      k = n ∧ o.holds m = some handle ∨ k ≠ n ∧ k ≠ m ∧ o.holds k = some handle := by
    intro k handle
    simp only [Ownership.pass]
    by_cases hkn : k = n
    · subst hkn
      simp
    · rw [Function.update_of_ne hkn]
      by_cases hkm : k = m
      · subst hkm
        simp [hkn]
      · rw [Function.update_of_ne hkm]
        simp [hkn, hkm]
  refine ⟨fun handle => ?_, ?_, h.nodup, h.balance⟩
  · simp only [hpassed]
    refine (h.owned handle).trans ⟨fun howned => ?_, fun howned => ?_⟩
    · obtain ⟨k, hk⟩ := howned
      by_cases hkm : k = m
      · subst hkm
        exact ⟨n, Or.inl ⟨rfl, hk⟩⟩
      · refine ⟨k, Or.inr ⟨?_, hkm, hk⟩⟩
        rintro rfl
        rw [hempty] at hk
        cases hk
    · rcases howned with ⟨k, ⟨-, hm⟩ | ⟨-, -, hk⟩⟩
      · exact ⟨m, hm⟩
      · exact ⟨k, hk⟩
  · intro k l handle hk hl
    rcases (hpassed k handle).1 hk with ⟨rfl, hm⟩ | ⟨hkn, hkm, hkeeps⟩
    · rcases (hpassed l handle).1 hl with ⟨rfl, -⟩ | ⟨hln, hlm, hkeeps⟩
      · rfl
      · exact absurd (h.unique hkeeps hm) hlm
    · rcases (hpassed l handle).1 hl with ⟨rfl, hm⟩ | ⟨hln, hlm, hkeeps'⟩
      · exact absurd (h.unique hkeeps hm) hkm
      · exact h.unique hkeeps hkeeps'

omit [DecidableEq N] in
/-- **When nobody holds anything, nothing is out** and all that was taken was returned. -/
theorem Exclusive.settled (h : o.Exclusive) (hempty : ∀ n, o.holds n = none) :
    o.out = [] ∧ ∀ handle, o.taken.count handle = o.returned.count handle := by
  have hout : o.out = [] := by
    refine List.eq_nil_iff_forall_not_mem.2 fun handle hmem => ?_
    obtain ⟨n, hn⟩ := (h.owned handle).1 hmem
    rw [hempty n] at hn
    cases hn
  refine ⟨hout, fun handle => ?_⟩
  rw [h.balance, hout, List.count_nil, Nat.add_zero]

/-- No more handles are out than there are owners that hold one. -/
theorem Exclusive.length_out_le (h : o.Exclusive) {owners : Finset N}
    (howners : ∀ n handle, o.holds n = some handle → n ∈ owners) : o.out.length ≤ owners.card := by
  have howner : ∀ handle : { handle // handle ∈ o.out }, ∃ n, o.holds n = some handle.val :=
    fun handle => (h.owned handle.val).1 handle.property
  choose owner hholds using howner
  have hinjective : Function.Injective owner := by
    intro handle handle' hsame
    have hheld := hholds handle
    rw [hsame, hholds handle', Option.some.injEq] at hheld
    exact Subtype.ext hheld.symm
  have hnodup : (o.out.attach.map owner).Nodup := (List.nodup_attach.2 h.nodup).map hinjective
  have hsubset : (o.out.attach.map owner).toFinset ⊆ owners := by
    intro n hn
    obtain ⟨handle, -, rfl⟩ := List.mem_map.1 (List.mem_toFinset.1 hn)
    exact howners _ _ (hholds handle)
  have hlen := Finset.card_le_card hsubset
  rwa [List.toFinset_card_of_nodup hnodup, List.length_map, List.length_attach] at hlen

end Ownership
