import Mathlib.Tactic

set_option autoImplicit false

/-! # Fallible computations, pure and stateful

`Except ε` is the fallible pure function; `EStateM ε σ` is the fallible procedure whose state survives
an exception, as the state of an imperative program does when an exception unwinds. This file gives
the inversion of a successful bind, the lifting of a pure function into a procedure, the lifting of a
procedure on one component of a state, and the run lemmas the proofs about both rewrite with. -/

universe u

variable {ε σ τ α β : Type u}

/-! ## Pure fallible functions -/

@[simp] theorem Except.ok_bind (a : α) (f : α → Except ε β) : (Except.ok a >>= f) = f a := rfl

@[simp] theorem Except.error_bind (e : ε) (f : α → Except ε β) :
    ((Except.error e : Except ε α) >>= f) = .error e := rfl

/-- A bind succeeds exactly when both steps do. -/
@[simp] theorem Except.mapError_ok {ε' : Type} (f : ε → ε') (a : α) :
    (Except.ok a).mapError f = .ok a := rfl

theorem Except.mapError_eq_ok_iff {ε' : Type} {x : Except ε α} {f : ε → ε'} {a : α} :
    x.mapError f = .ok a ↔ x = .ok a := by
  cases x with
  | ok b => simp [Except.mapError]
  | error e => simp [Except.mapError]

theorem Except.bind_eq_ok_iff {x : Except ε α} {f : α → Except ε β} {b : β} :
    (x >>= f) = .ok b ↔ ∃ a, x = .ok a ∧ f a = .ok b := by
  cases x with
  | error e => simp
  | ok a => simp

/-- `x` returns normally. -/
def Except.Returns (x : Except ε α) : Prop := ∃ a, x = .ok a

theorem Except.not_returns_iff {x : Except ε α} : ¬ x.Returns ↔ ∃ e, x = .error e := by
  cases x <;> simp [Except.Returns]

/-- A loop that returns has returned from every turn. -/
theorem Except.returns_turn_of_foldlM {f : β → α → Except ε β} {l : List α} {init : β}
    (h : (l.foldlM f init).Returns) {a : α} (ha : a ∈ l) : ∃ acc, (f acc a).Returns := by
  induction l generalizing init with
  | nil => simp at ha
  | cons x l ih =>
      obtain ⟨out, hout⟩ := h
      rw [List.foldlM_cons] at hout
      obtain ⟨acc, hturn, hrest⟩ := Except.bind_eq_ok_iff.1 hout
      rcases List.mem_cons.1 ha with rfl | hmem
      · exact ⟨init, acc, hturn⟩
      · exact ih ⟨out, hrest⟩ hmem

/-! ## Procedures whose state survives exceptions -/

namespace EStateM

/-- A pure fallible function as a procedure that leaves the state alone. -/
def liftExcept (x : Except ε α) : EStateM ε σ α := fun s =>
  match x with
  | .ok a => .ok a s
  | .error e => .error e s

@[simp] theorem run_liftExcept_ok (a : α) (s : σ) :
    (liftExcept (.ok a : Except ε α)).run s = .ok a s := rfl

@[simp] theorem run_liftExcept_error (e : ε) (s : σ) :
    (liftExcept (.error e : Except ε α)).run s = .error e s := rfl

/-- A fallible function of the state as a procedure that leaves the state alone. -/
def readExcept (f : σ → Except ε α) : EStateM ε σ α := fun s =>
  match f s with
  | .ok a => .ok a s
  | .error e => .error e s

theorem run_readExcept (f : σ → Except ε α) (s : σ) :
    (readExcept f).run s = match f s with
      | .ok a => .ok a s
      | .error e => .error e s := rfl

/-- Run a procedure on one component of the state, given how to read and replace it. -/
def zoom (read : σ → τ) (replace : τ → σ → σ) (x : EStateM ε τ α) : EStateM ε σ α := fun s =>
  match x.run (read s) with
  | .ok a t => .ok a (replace t s)
  | .error e t => .error e (replace t s)

theorem run_zoom (read : σ → τ) (replace : τ → σ → σ) (x : EStateM ε τ α) (s : σ) :
    (zoom read replace x).run s = match x.run (read s) with
      | .ok a t => .ok a (replace t s)
      | .error e t => .error e (replace t s) := rfl

/-- The handler of a `try` runs in the state the exception left. -/
theorem run_try (x : EStateM ε σ α) (handler : ε → EStateM ε σ α) (s : σ) :
    (tryCatch x handler : EStateM ε σ α).run s = match x.run s with
      | .ok a s' => .ok a s'
      | .error e s' => (handler e).run s' := by
  show EStateM.tryCatch x handler s = _
  unfold EStateM.tryCatch EStateM.run
  cases x s with
  | ok a s' => rfl
  | error e s' => rfl

/-- A procedure that returns has made each of its steps. -/
theorem run_bind_eq_ok_iff {x : EStateM ε σ α} {f : α → EStateM ε σ β} {s s' : σ} {b : β} :
    (x >>= f).run s = .ok b s' ↔ ∃ a t, x.run s = .ok a t ∧ (f a).run t = .ok b s' := by
  rw [EStateM.run_bind]
  cases x.run s with
  | ok a t => simp
  | error e t => simp

/-- The state a procedure leaves behind, whether it returned or threw. -/
def Result.state : Result ε σ α → σ
  | .ok _ s => s
  | .error _ s => s

@[simp] theorem Result.state_ok (a : α) (s : σ) : (Result.ok a s : Result ε σ α).state = s := rfl

@[simp] theorem Result.state_error (e : ε) (s : σ) :
    (Result.error e s : Result ε σ α).state = s := rfl

/-- The procedure threw. -/
def Result.Threw : Result ε σ α → Prop
  | .ok _ _ => False
  | .error _ _ => True

@[simp] theorem Result.threw_ok (a : α) (s : σ) : ¬ (Result.ok a s : Result ε σ α).Threw := id

@[simp] theorem Result.threw_error (e : ε) (s : σ) : (Result.error e s : Result ε σ α).Threw :=
  trivial

end EStateM
