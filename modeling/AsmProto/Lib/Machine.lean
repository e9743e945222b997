import Mathlib.Data.List.Forall2

set_option autoImplicit false

/-! # Machines that answer

A machine takes one input at a time, answers it and moves on. This file gives the invariant rule and
the projection rule for whole runs: one machine, seen through some of its inputs only, behaves as a
second machine that is given just these. With every input in view the rule is an ordinary simulation;
an input out of view is a silent step. -/

universe u v w

/-- A deterministic machine with inputs `ι`, answers `ο` and states `σ`. -/
structure Machine (ι : Type u) (ο : Type v) (σ : Type w) where
  step : σ → ι → ο × σ

namespace Machine

variable {ι : Type u} {ο : Type v} {σ : Type w}

/-- The state after a run. -/
def after (m : Machine ι ο σ) (s : σ) : List ι → σ
  | [] => s
  | i :: inputs => m.after (m.step s i).2 inputs

/-- The inputs of a run, each with its answer. -/
def log (m : Machine ι ο σ) (s : σ) : List ι → List (ι × ο)
  | [] => []
  | i :: inputs => (i, (m.step s i).1) :: m.log (m.step s i).2 inputs

/-- The answers of a run. -/
def answers (m : Machine ι ο σ) (s : σ) : List ι → List ο
  | [] => []
  | i :: inputs => (m.step s i).1 :: m.answers (m.step s i).2 inputs

@[simp] theorem after_nil (m : Machine ι ο σ) (s : σ) : m.after s [] = s := rfl

@[simp] theorem after_cons (m : Machine ι ο σ) (s : σ) (i : ι) (inputs : List ι) :
    m.after s (i :: inputs) = m.after (m.step s i).2 inputs := rfl

theorem after_append (m : Machine ι ο σ) (s : σ) (inputs more : List ι) :
    m.after s (inputs ++ more) = m.after (m.after s inputs) more := by
  induction inputs generalizing s with
  | nil => rfl
  | cons i inputs ih => exact ih _

theorem answers_append (m : Machine ι ο σ) (s : σ) (inputs more : List ι) :
    m.answers s (inputs ++ more) = m.answers s inputs ++ m.answers (m.after s inputs) more := by
  induction inputs generalizing s with
  | nil => rfl
  | cons i inputs ih => exact congrArg _ (ih _)

theorem mem_of_mem_log {m : Machine ι ο σ} {s : σ} {inputs : List ι} {step : ι × ο}
    (h : step ∈ m.log s inputs) : step.1 ∈ inputs := by
  induction inputs generalizing s with
  | nil => simp [log] at h
  | cons i inputs ih =>
      rcases List.mem_cons.1 h with rfl | hmem
      · exact List.mem_cons_self
      · exact List.mem_cons_of_mem i (ih hmem)

/-- What is logged was answered in some state. -/
theorem exists_step_of_mem_log {m : Machine ι ο σ} {s : σ} {inputs : List ι} {step : ι × ο}
    (h : step ∈ m.log s inputs) : ∃ t, step.2 = (m.step t step.1).1 := by
  induction inputs generalizing s with
  | nil => simp [log] at h
  | cons i inputs ih =>
      rcases List.mem_cons.1 h with rfl | hmem
      · exact ⟨s, rfl⟩
      · exact ih hmem

/-- **The invariant rule**: what every step keeps for the inputs of a run, the run keeps. -/
theorem invariant_after {m : Machine ι ο σ} {P : σ → Prop} {inputs : List ι}
    (hstep : ∀ s, ∀ i ∈ inputs, P s → P (m.step s i).2) {s : σ} (h : P s) :
    P (m.after s inputs) := by
  induction inputs generalizing s with
  | nil => exact h
  | cons i inputs ih =>
      exact ih (fun s j hj => hstep s j (List.mem_cons_of_mem i hj))
        (hstep s i List.mem_cons_self h)

/-- **The history rule**: a view of the state that each step moves by what it logs is the log, replayed. -/
theorem view_after {α : Type u} {m : Machine ι ο σ} {view : σ → α} {move : α → ι × ο → α}
    (hstep : ∀ s i, view (m.step s i).2 = move (view s) (i, (m.step s i).1)) (s : σ)
    (inputs : List ι) : view (m.after s inputs) = (m.log s inputs).foldl move (view s) := by
  induction inputs generalizing s with
  | nil => rfl
  | cons i inputs ih => rw [after_cons, ih, log, List.foldl_cons, hstep]

/-- **The simulation rule**: machines that answer alike from related states, and stay related, answer a
    whole run alike. -/
theorem answers_of_simulation {τ : Type w} {m : Machine ι ο σ} {n : Machine ι ο τ} {R : σ → τ → Prop}
    (hstep : ∀ s t i, R s t → (m.step s i).1 = (n.step t i).1 ∧ R (m.step s i).2 (n.step t i).2)
    {s : σ} {t : τ} (h : R s t) (inputs : List ι) :
    m.answers s inputs = n.answers t inputs ∧ R (m.after s inputs) (n.after t inputs) := by
  induction inputs generalizing s t with
  | nil => exact ⟨rfl, h⟩
  | cons i inputs ih =>
      obtain ⟨hanswer, hnext⟩ := hstep s t i h
      obtain ⟨hrest, hend⟩ := ih hnext
      exact ⟨by rw [answers, answers, hanswer, hrest], hend⟩

theorem map_fst_log (m : Machine ι ο σ) (s : σ) (inputs : List ι) :
    (m.log s inputs).map Prod.fst = inputs := by
  induction inputs generalizing s with
  | nil => rfl
  | cons i inputs ih => rw [log, List.map_cons, ih]

theorem answers_eq_map_log (m : Machine ι ο σ) (s : σ) (inputs : List ι) :
    m.answers s inputs = (m.log s inputs).map Prod.snd := by
  induction inputs generalizing s with
  | nil => rfl
  | cons i inputs ih => rw [answers, log, List.map_cons, ih]

/-- **The refinement rule**: machines whose steps relate inputs, answers and states relate whole runs. -/
theorem log_of_related {κ : Type u} {ω : Type v} {τ : Type w} {m : Machine ι ο σ} {n : Machine κ ω τ}
    {I : ι → κ → Prop} {O : ι × ο → κ × ω → Prop} {R : σ → τ → Prop}
    (hstep : ∀ s t i k, R s t → I i k →
      O (i, (m.step s i).1) (k, (n.step t k).1) ∧ R (m.step s i).2 (n.step t k).2)
    {s : σ} {t : τ} (h : R s t) {inputs : List ι} {inputs' : List κ}
    (hinputs : List.Forall₂ I inputs inputs') :
    List.Forall₂ O (m.log s inputs) (n.log t inputs') ∧ R (m.after s inputs) (n.after t inputs') := by
  induction hinputs generalizing s t with
  | nil => exact ⟨.nil, h⟩
  | cons hinput _ ih =>
      obtain ⟨hanswer, hnext⟩ := hstep s t _ _ h hinput
      obtain ⟨hrest, hend⟩ := ih hnext
      exact ⟨.cons hanswer hrest, hend⟩

theorem run_of_related {κ : Type u} {ω : Type v} {τ : Type w} {m : Machine ι ο σ} {n : Machine κ ω τ}
    {I : ι → κ → Prop} {O : ο → ω → Prop} {R : σ → τ → Prop}
    (hstep : ∀ s t i k, R s t → I i k → O (m.step s i).1 (n.step t k).1 ∧ R (m.step s i).2 (n.step t k).2)
    {s : σ} {t : τ} (h : R s t) {inputs : List ι} {inputs' : List κ}
    (hinputs : List.Forall₂ I inputs inputs') :
    List.Forall₂ O (m.answers s inputs) (n.answers t inputs') ∧
      R (m.after s inputs) (n.after t inputs') := by
  rw [answers_eq_map_log, answers_eq_map_log, List.forall₂_map_left_iff, List.forall₂_map_right_iff]
  exact log_of_related hstep h hinputs

/-! ## The last input of a kind -/

/-- No input of the run is loud in the state it meets. -/
def Quiet (m : Machine ι ο σ) (loud : σ → ι → Prop) (s : σ) : List ι → Prop
  | [] => True
  | i :: inputs => ¬ loud s i ∧ m.Quiet loud (m.step s i).2 inputs

/-- What no quiet input changes, a quiet run does not change. -/
theorem Quiet.eq_after {m : Machine ι ο σ} {loud : σ → ι → Prop} {α : Type u} {f : σ → α}
    (hstep : ∀ s i, ¬ loud s i → f (m.step s i).2 = f s) {s : σ} {inputs : List ι}
    (h : m.Quiet loud s inputs) : f (m.after s inputs) = f s := by
  induction inputs generalizing s with
  | nil => rfl
  | cons i inputs ih => exact (ih h.2).trans (hstep s i h.1)

/-- **A run is quiet, or has a last loud input.** -/
theorem quiet_or_last (m : Machine ι ο σ) (loud : σ → ι → Prop) (s : σ) (inputs : List ι) :
    m.Quiet loud s inputs ∨ ∃ before i later, inputs = before ++ i :: later ∧
      loud (m.after s before) i ∧ m.Quiet loud (m.after s (before ++ [i])) later := by
  induction inputs generalizing s with
  | nil => exact Or.inl trivial
  | cons i inputs ih =>
      rcases ih (m.step s i).2 with hquiet | ⟨before, j, later, rfl, hloud, hquiet⟩
      · by_cases hloud : loud s i
        · exact Or.inr ⟨[], i, inputs, rfl, hloud, hquiet⟩
        · exact Or.inl ⟨hloud, hquiet⟩
      · exact Or.inr ⟨i :: before, j, later, rfl, hloud, hquiet⟩

/-! ## Runs that an answer ends -/

/-- The inputs of a run that ends with the first answer `last` holds of. -/
def upTo (m : Machine ι ο σ) (last : ο → Bool) (s : σ) : List ι → List ι
  | [] => []
  | i :: inputs => if last (m.step s i).1 then [i] else i :: m.upTo last (m.step s i).2 inputs

theorem upTo_cons_of_last {m : Machine ι ο σ} {last : ο → Bool} {s : σ} {i : ι}
    (h : last (m.step s i).1 = true) (inputs : List ι) : m.upTo last s (i :: inputs) = [i] :=
  if_pos h

theorem upTo_cons_of_not_last {m : Machine ι ο σ} {last : ο → Bool} {s : σ} {i : ι}
    (h : last (m.step s i).1 = false) (inputs : List ι) :
    m.upTo last s (i :: inputs) = i :: m.upTo last (m.step s i).2 inputs := by
  rw [upTo, h, if_neg Bool.false_ne_true]

theorem upTo_prefix (m : Machine ι ο σ) (last : ο → Bool) (s : σ) (inputs : List ι) :
    m.upTo last s inputs <+: inputs := by
  induction inputs generalizing s with
  | nil => exact List.nil_prefix
  | cons i inputs ih =>
      cases hlast : last (m.step s i).1 with
      | true =>
          rw [upTo_cons_of_last hlast]
          exact List.cons_prefix_cons.2 ⟨rfl, List.nil_prefix⟩
      | false =>
          rw [upTo_cons_of_not_last hlast]
          exact List.cons_prefix_cons.2 ⟨rfl, ih _⟩

/-- A run that no answer ends takes all its inputs. -/
theorem upTo_eq_self {m : Machine ι ο σ} {last : ο → Bool} {s : σ} {inputs : List ι}
    (h : ∀ step ∈ m.log s (m.upTo last s inputs), last step.2 = false) :
    m.upTo last s inputs = inputs := by
  induction inputs generalizing s with
  | nil => rfl
  | cons i inputs ih =>
      cases hlast : last (m.step s i).1 with
      | true =>
          rw [upTo_cons_of_last hlast] at h
          exact absurd (h _ List.mem_cons_self) (by simp [hlast])
      | false =>
          rw [upTo_cons_of_not_last hlast] at h ⊢
          rw [ih fun step hstep => h step (List.mem_cons_of_mem _ hstep)]

/-- **Only the last input of such a run** is answered so. -/
theorem not_last_of_mem_dropLast {m : Machine ι ο σ} {last : ο → Bool} {s : σ} {inputs : List ι}
    {step : ι × ο} (h : step ∈ (m.log s (m.upTo last s inputs)).dropLast) : last step.2 = false := by
  induction inputs generalizing s with
  | nil => simp [upTo, log] at h
  | cons i inputs ih =>
      cases hlast : last (m.step s i).1 with
      | true =>
          rw [upTo_cons_of_last hlast] at h
          simp [log] at h
      | false =>
          rw [upTo_cons_of_not_last hlast, log] at h
          cases hrest : m.log (m.step s i).2 (m.upTo last (m.step s i).2 inputs) with
          | nil =>
              rw [hrest] at h
              simp at h
          | cons first rest =>
              rw [hrest, List.dropLast_cons_cons, ← hrest] at h
              rcases List.mem_cons.1 h with rfl | hmem
              · exact hlast
              · exact ih hmem

/-- The machine given its inputs in another form. -/
def comap {ι' : Type u} (m : Machine ι ο σ) (f : ι' → ι) : Machine ι' ο σ where
  step s i := m.step s (f i)

/-! ## Runs seen through a projection -/

universe u' v' w'

variable {κ : Type u'} {ω : Type v'} {τ : Type w'}

/-- What a run shows of the inputs in view: each of their answers, as `view` reads it. -/
def viewed (m : Machine ι ο σ) (project : ι → Option κ) (view : ο → ω) (s : σ)
    (inputs : List ι) : List ω :=
  (m.log s inputs).filterMap fun step => (project step.1).map fun _ => view step.2

theorem viewed_cons_some {m : Machine ι ο σ} {project : ι → Option κ} {view : ο → ω} {s : σ} {i : ι}
    {k : κ} (h : project i = some k) (inputs : List ι) :
    m.viewed project view s (i :: inputs)
      = view (m.step s i).1 :: m.viewed project view (m.step s i).2 inputs := by
  simp [viewed, log, h]

theorem viewed_cons_none {m : Machine ι ο σ} {project : ι → Option κ} {view : ο → ω} {s : σ} {i : ι}
    (h : project i = none) (inputs : List ι) :
    m.viewed project view s (i :: inputs) = m.viewed project view (m.step s i).2 inputs := by
  simp [viewed, log, h]

/-- `m`, seen through `project` and `view`, moves as `n` does, as long as it gives `fine` answers:
    an input in view is answered alike, and one out of view is not noticed. -/
structure Projects (m : Machine ι ο σ) (n : Machine κ ω τ) (project : ι → Option κ) (view : ο → ω)
    (fine : ι → ο → Prop) (R : σ → τ → Prop) : Prop where
  visible : ∀ {s t i k}, project i = some k → R s t → fine i (m.step s i).1 →
    view (m.step s i).1 = (n.step t k).1 ∧ R (m.step s i).2 (n.step t k).2
  silent : ∀ {s t i}, project i = none → R s t → fine i (m.step s i).1 → R (m.step s i).2 t

/-- **The projection rule**: what a whole run shows is what the other machine answers to the inputs in
    view, and the runs end in related states. -/
theorem Projects.run {m : Machine ι ο σ} {n : Machine κ ω τ} {project : ι → Option κ} {view : ο → ω}
    {fine : ι → ο → Prop} {R : σ → τ → Prop} (h : m.Projects n project view fine R) {s : σ} {t : τ}
    (hR : R s t) {inputs : List ι} (hfine : ∀ step ∈ m.log s inputs, fine step.1 step.2) :
    m.viewed project view s inputs = n.answers t (inputs.filterMap project) ∧
      R (m.after s inputs) (n.after t (inputs.filterMap project)) := by
  induction inputs generalizing s t with
  | nil => exact ⟨rfl, hR⟩
  | cons i inputs ih =>
      have hhead : fine i (m.step s i).1 := hfine (i, (m.step s i).1) List.mem_cons_self
      have htail : ∀ step ∈ m.log (m.step s i).2 inputs, fine step.1 step.2 :=
        fun step hstep => hfine step (List.mem_cons_of_mem _ hstep)
      cases hproject : project i with
      | none =>
          rw [viewed_cons_none hproject, List.filterMap_cons_none hproject]
          exact ih (h.silent hproject hR hhead) htail
      | some k =>
          obtain ⟨hanswer, hnext⟩ := h.visible hproject hR hhead
          obtain ⟨hrest, hend⟩ := ih hnext htail
          rw [viewed_cons_some hproject, List.filterMap_cons_some hproject, hanswer, hrest]
          exact ⟨rfl, hend⟩

end Machine
