import AsmProto.Lib.Effect

set_option autoImplicit false

/-! # Procedures that do the same

Two procedures on states of different types are alike along a relation when from related states they
return or throw the same and leave related states. The rules follow the ways a procedure is built, so
that two programs over two implementations are alike when the implementations are. -/

namespace EStateM

variable {ε σ τ σ' τ' α β : Type}

/-- The same value or exception, and related states. -/
inductive Result.Alike (R : σ → τ → Prop) : Result ε σ α → Result ε τ α → Prop where
  | ok (a : α) {s : σ} {t : τ} (h : R s t) : Result.Alike R (.ok a s) (.ok a t)
  | error (e : ε) {s : σ} {t : τ} (h : R s t) : Result.Alike R (.error e s) (.error e t)

def Alike (R : σ → τ → Prop) (x : EStateM ε σ α) (y : EStateM ε τ α) : Prop :=
  ∀ s t, R s t → Result.Alike R (x.run s) (y.run t)

theorem Result.Alike.state {R : σ → τ → Prop} {x : Result ε σ α} {y : Result ε τ α}
    (h : Result.Alike R x y) : R x.state y.state := by
  cases h with
  | ok a h => exact h
  | error e h => exact h

section Rules

variable {R : σ → τ → Prop}

theorem alike_refl (x : EStateM ε σ α) : Alike Eq x x := by
  rintro s _ rfl
  cases x.run s with
  | ok a s' => exact .ok a rfl
  | error e s' => exact .error e rfl

theorem alike_pure (a : α) : Alike R (pure a : EStateM ε σ α) (pure a : EStateM ε τ α) :=
  fun _ _ h => .ok a h

theorem alike_liftExcept (x : Except ε α) :
    Alike R (liftExcept x : EStateM ε σ α) (liftExcept x : EStateM ε τ α) := by
  intro s t h
  cases x with
  | ok a => exact .ok a h
  | error e => exact .error e h

theorem alike_modify {f : σ → σ} {g : τ → τ} (h : ∀ s t, R s t → R (f s) (g t)) :
    Alike R (modify f : EStateM ε σ PUnit) (modify g : EStateM ε τ PUnit) :=
  fun s t hst => .ok PUnit.unit (h s t hst)

theorem alike_bind {x : EStateM ε σ α} {y : EStateM ε τ α} {f : α → EStateM ε σ β}
    {g : α → EStateM ε τ β} (h : Alike R x y) (hfg : ∀ a, Alike R (f a) (g a)) :
    Alike R (x >>= f) (y >>= g) := by
  intro s t hst
  have hxy := h s t hst
  rw [EStateM.run_bind, EStateM.run_bind]
  generalize x.run s = rx, y.run t = ry at hxy ⊢
  cases hxy with
  | ok a h' => exact hfg a _ _ h'
  | error e h' => exact .error e h'

theorem alike_tryCatch {x : EStateM ε σ α} {y : EStateM ε τ α} {f : ε → EStateM ε σ α}
    {g : ε → EStateM ε τ α} (h : Alike R x y) (hfg : ∀ e, Alike R (f e) (g e)) :
    Alike R (tryCatch x f : EStateM ε σ α) (tryCatch y g : EStateM ε τ α) := by
  intro s t hst
  have hxy := h s t hst
  rw [run_try, run_try]
  generalize x.run s = rx, y.run t = ry at hxy ⊢
  cases hxy with
  | ok a h' => exact .ok a h'
  | error e h' => exact hfg e _ _ h'

theorem alike_adaptExcept {ε' : Type} {x : EStateM ε σ α} {y : EStateM ε τ α} (f : ε → ε')
    (h : Alike R x y) : Alike R (adaptExcept f x) (adaptExcept f y) := by
  intro s t hst
  have hxy := h s t hst
  rw [run_adaptExcept, run_adaptExcept]
  generalize x.run s = rx, y.run t = ry at hxy ⊢
  cases hxy with
  | ok a h' => exact .ok a h'
  | error e h' => exact .error (f e) h'

/-- Procedures on a component are alike when those on the whole states should be. -/
theorem alike_zoom {Q : σ' → τ' → Prop} {x : EStateM ε σ' α} {y : EStateM ε τ' α} {read : σ → σ'}
    {replace : σ' → σ → σ} {read' : τ → τ'} {replace' : τ' → τ → τ}
    (hread : ∀ s t, R s t → Q (read s) (read' t))
    (hreplace : ∀ s t a b, R s t → Q a b → R (replace a s) (replace' b t)) (h : Alike Q x y) :
    Alike R (zoom read replace x) (zoom read' replace' y) := by
  intro s t hst
  have hxy := h _ _ (hread s t hst)
  rw [run_zoom, run_zoom]
  generalize x.run (read s) = rx, y.run (read' t) = ry at hxy ⊢
  cases hxy with
  | ok a h' => exact .ok a (hreplace s t _ _ hst h')
  | error e h' => exact .error e (hreplace s t _ _ hst h')

end Rules

end EStateM
