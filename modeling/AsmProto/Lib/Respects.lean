import AsmProto.Lib.Effect

set_option autoImplicit false

/-! # What procedures return and throw

A procedure respects `I`, `Q` and `E` when it keeps the invariant `I` of its state whatever happens,
returns only values in `Q` and throws only exceptions in `E`. One rule for each way a procedure is
built. -/

variable {ε σ τ α β : Type}

/-- What is returned is in `Q`, and what is thrown is in `E`. -/
def Except.Respects (Q : α → Prop) (E : ε → Prop) : Except ε α → Prop
  | .ok a => Q a
  | .error e => E e

namespace Except

variable {Q : α → Prop} {E : ε → Prop}

theorem Respects.bind {Q' : β → Prop} {x : Except ε α} {f : α → Except ε β} (h : x.Respects Q E)
    (hf : ∀ a, Q a → (f a).Respects Q' E) : (x >>= f).Respects Q' E := by
  cases x with
  | ok a => exact hf a h
  | error e => exact h

theorem respects_ite {c : Prop} [Decidable c] {x y : Except ε α} (hx : c → x.Respects Q E)
    (hy : ¬ c → y.Respects Q E) : (if c then x else y).Respects Q E := by
  split
  · next h => exact hx h
  · next h => exact hy h

end Except

namespace EStateM

def Result.Respects (I : σ → Prop) (Q : α → Prop) (E : ε → Prop) : Result ε σ α → Prop
  | .ok a s => I s ∧ Q a
  | .error e s => I s ∧ E e

def Respects (I : σ → Prop) (Q : α → Prop) (E : ε → Prop) (x : EStateM ε σ α) : Prop :=
  ∀ s, I s → (x.run s).Respects I Q E

theorem Result.Respects.state {I : σ → Prop} {Q : α → Prop} {E : ε → Prop} {x : Result ε σ α}
    (h : x.Respects I Q E) : I x.state := by
  cases x with
  | ok a s => exact h.1
  | error e s => exact h.1

section Rules

variable {I : σ → Prop} {Q : α → Prop} {E : ε → Prop}

theorem respects_pure {a : α} (h : Q a) : Respects I Q E (pure a : EStateM ε σ α) :=
  fun _ hs => ⟨hs, h⟩

theorem respects_throw {e : ε} (h : E e) : Respects I Q E (throw e : EStateM ε σ α) :=
  fun _ hs => ⟨hs, h⟩

theorem respects_liftExcept {x : Except ε α} (h : x.Respects Q E) :
    Respects I Q E (liftExcept x : EStateM ε σ α) := by
  intro s hs
  cases x with
  | ok a => exact ⟨hs, h⟩
  | error e => exact ⟨hs, h⟩

theorem respects_modify {f : σ → σ} (h : ∀ s, I s → I (f s)) :
    Respects I (fun _ => True) E (modify f : EStateM ε σ PUnit) :=
  fun s hs => ⟨h s hs, trivial⟩

theorem respects_bind {Q' : β → Prop} {x : EStateM ε σ α} {f : α → EStateM ε σ β}
    (h : Respects I Q E x) (hf : ∀ a, Q a → Respects I Q' E (f a)) :
    Respects I Q' E (x >>= f) := by
  intro s hs
  have hx := h s hs
  rw [EStateM.run_bind]
  generalize x.run s = r at hx ⊢
  cases r with
  | ok a t => exact hf a hx.2 t hx.1
  | error e t => exact hx

theorem respects_tryCatch {E' : ε → Prop} {x : EStateM ε σ α} {handler : ε → EStateM ε σ α}
    (h : Respects I Q E x) (hhandler : ∀ e, E e → Respects I Q E' (handler e)) :
    Respects I Q E' (tryCatch x handler : EStateM ε σ α) := by
  intro s hs
  have hx := h s hs
  rw [run_try]
  generalize x.run s = r at hx ⊢
  cases r with
  | ok a t => exact hx
  | error e t => exact hhandler e hx.2 t hx.1

theorem respects_adaptExcept {ε' : Type} {E' : ε' → Prop} {x : EStateM ε σ α} {f : ε → ε'}
    (hf : ∀ e, E e → E' (f e)) (h : Respects I Q E x) : Respects I Q E' (adaptExcept f x) := by
  intro s hs
  have hx := h s hs
  rw [run_adaptExcept]
  generalize x.run s = r at hx ⊢
  cases r with
  | ok a t => exact hx
  | error e t => exact ⟨hx.1, hf e hx.2⟩

/-- A procedure on a component, whose own invariant is `J`. -/
theorem respects_zoom {J : τ → Prop} {x : EStateM ε τ α} {read : σ → τ} {replace : τ → σ → σ}
    (hread : ∀ s, I s → J (read s)) (hreplace : ∀ s t, I s → J t → I (replace t s))
    (h : Respects J Q E x) : Respects I Q E (zoom read replace x) := by
  intro s hs
  have hx := h (read s) (hread s hs)
  rw [run_zoom]
  generalize x.run (read s) = r at hx ⊢
  cases r with
  | ok a t => exact ⟨hreplace s t hs hx.1, hx.2⟩
  | error e t => exact ⟨hreplace s t hs hx.1, hx.2⟩

end Rules

end EStateM
