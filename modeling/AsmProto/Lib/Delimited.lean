import Mathlib.Tactic

set_option autoImplicit false

/-! # Delimited tokens in a text

A text of plain characters and of tokens, each between an opening and a closing delimiter: the tags
of a markup text, or the entities of an escaped one. -/

namespace Delimited

variable {α : Type} [DecidableEq α] (first last : α)

/-- The plain characters and the tokens of the text; `some name` of a token has been read. -/
def scanFrom : Option (List α) → List α → List (α ⊕ List α)
  | _, [] => []
  | none, c :: text =>
      if c = first then scanFrom (some []) text else .inl c :: scanFrom none text
  | some name, c :: text =>
      if c = last then .inr name :: scanFrom none text else scanFrom (some (name ++ [c])) text

def scan (text : List α) : List (α ⊕ List α) := scanFrom first last none text

@[simp] theorem scan_nil : scan first last [] = [] := rfl

theorem scan_cons_of_ne {c : α} (h : c ≠ first) (text : List α) :
    scan first last (c :: text) = .inl c :: scan first last text := by
  rw [scan, scanFrom, if_neg h, scan]

/-- Plain text stands for itself. -/
theorem scan_append_of_not_mem {segment : List α} (h : first ∉ segment) (text : List α) :
    scan first last (segment ++ text) = segment.map Sum.inl ++ scan first last text := by
  induction segment with
  | nil => rfl
  | cons c segment ih =>
      simp only [List.mem_cons, not_or] at h
      rw [List.cons_append, scan_cons_of_ne first last (Ne.symm h.1), ih h.2, List.map_cons,
        List.cons_append]

theorem scanFrom_append_of_not_mem {segment : List α} (h : last ∉ segment) (name text : List α) :
    scanFrom first last (some name) (segment ++ text)
      = scanFrom first last (some (name ++ segment)) text := by
  induction segment generalizing name with
  | nil => simp
  | cons c segment ih =>
      simp only [List.mem_cons, not_or] at h
      rw [List.cons_append, scanFrom, if_neg (Ne.symm h.1), ih h.2, List.append_assoc,
        List.singleton_append]

/-- A token is one piece. -/
theorem scan_token {name : List α} (h : last ∉ name) (text : List α) :
    scan first last (first :: (name ++ last :: text)) = .inr name :: scan first last text := by
  rw [scan, scanFrom, if_pos rfl, scanFrom_append_of_not_mem first last h, scanFrom, if_pos rfl,
    List.nil_append, scan]

/-! ## Words -/

/-- A text tells its first word, which ends at the separator. -/
theorem word_inj {α : Type} {sep : α} {word word' rest rest' : List α} (h : sep ∉ word)
    (h' : sep ∉ word') (heq : word ++ sep :: rest = word' ++ sep :: rest') :
    word = word' ∧ rest = rest' := by
  induction word generalizing word' with
  | nil =>
      cases word' with
      | nil => exact ⟨rfl, (List.cons.inj heq).2⟩
      | cons c word' => exact absurd (List.mem_cons.2 (Or.inl (List.cons.inj heq).1)) h'
  | cons c word ih =>
      cases word' with
      | nil => exact absurd (List.mem_cons.2 (Or.inl (List.cons.inj heq).1.symm)) h
      | cons c' word' =>
          obtain ⟨rfl, htail⟩ := List.cons.inj heq
          obtain ⟨rfl, hrest⟩ := ih (fun hc => h (List.mem_cons_of_mem _ hc))
            (fun hc => h' (List.mem_cons_of_mem _ hc)) htail
          exact ⟨rfl, hrest⟩

end Delimited
