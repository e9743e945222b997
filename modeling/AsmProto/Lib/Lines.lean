import Mathlib.Tactic

set_option autoImplicit false

/-! # Lines of a text

The loop `while (std::getline(input, line))`: lines end at the separator, which is not part of them,
and a last line without separator counts only when it has at least one character. -/

namespace Lines

variable {α : Type} [DecidableEq α] (sep : α)

/-- The rest of the text, with `line` read of the current line so far. -/
def getLinesFrom : List α → List α → List (List α)
  | line, [] => if line = [] then [] else [line]
  | line, c :: text => if c = sep then line :: getLinesFrom [] text else getLinesFrom (line ++ [c]) text

def getLines (text : List α) : List (List α) := getLinesFrom sep [] text

@[simp] theorem getLines_nil : getLines sep [] = [] := rfl

theorem getLinesFrom_append {line segment : List α} (h : sep ∉ segment) (text : List α) :
    getLinesFrom sep line (segment ++ text) = getLinesFrom sep (line ++ segment) text := by
  induction segment generalizing line with
  | nil => simp
  | cons c segment ih =>
      simp only [List.mem_cons, not_or] at h
      rw [List.cons_append, getLinesFrom, if_neg (fun he => h.1 he.symm), ih h.2,
        List.append_assoc, List.singleton_append]

/-- A terminated line comes first. -/
theorem getLines_append_sep {line : List α} (h : sep ∉ line) (text : List α) :
    getLines sep (line ++ sep :: text) = line :: getLines sep text := by
  rw [getLines, getLinesFrom_append sep h, getLinesFrom, if_pos rfl, List.nil_append, getLines]

/-- An unterminated last line counts unless it is empty. -/
theorem getLines_of_not_mem {line : List α} (h : sep ∉ line) :
    getLines sep line = if line = [] then [] else [line] := by
  have := @getLinesFrom_append α _ sep [] line h []
  rw [List.append_nil, List.nil_append] at this
  rw [getLines, this, getLinesFrom]

/-- Text written line by line, each with its separator, reads back as those lines. -/
theorem getLines_flatMap {lines : List (List α)} (h : ∀ line ∈ lines, sep ∉ line) (text : List α) :
    getLines sep (lines.flatMap (fun line => line ++ [sep]) ++ text)
      = lines ++ getLines sep text := by
  induction lines with
  | nil => rfl
  | cons line lines ih =>
      have hstep : (line :: lines).flatMap (fun line => line ++ [sep]) ++ text
          = line ++ sep :: (lines.flatMap (fun line => line ++ [sep]) ++ text) := by simp
      rw [hstep, getLines_append_sep sep (h line (by simp)), ih fun l hl => h l (by simp [hl]),
        List.cons_append]

omit [DecidableEq α] in
/-- What a prefix of such a text is: some whole lines, then a part of the next one. -/
theorem prefix_flatMap_cases {lines : List (List α)} {text : List α}
    (h : text <+: lines.flatMap (fun line => line ++ [sep])) :
    ∃ whole torn, text = whole.flatMap (fun line => line ++ [sep]) ++ torn ∧ whole <+: lines ∧
      (torn = [] ∨ ∃ line, whole ++ [line] <+: lines ∧ torn <+: line) := by
  induction lines generalizing text with
  | nil => exact ⟨[], [], by simpa using h, List.nil_prefix, Or.inl rfl⟩
  | cons line lines ih =>
      rw [List.flatMap_cons, List.append_assoc, List.singleton_append] at h
      -- the cut is inside the first line, right after it, or behind its separator
      rcases List.prefix_or_prefix_of_prefix h (List.prefix_append line _) with hin | ⟨t, rfl⟩
      · exact ⟨[], text, rfl, List.nil_prefix, Or.inr ⟨line, by simp, hin⟩⟩
      · rw [List.prefix_append_right_inj] at h
        match t with
        | [] => exact ⟨[], line, by simp, List.nil_prefix, Or.inr ⟨line, by simp, by simp⟩⟩
        | c :: t =>
            obtain ⟨rfl, ht⟩ := List.cons_prefix_cons.1 h
            obtain ⟨whole, torn, rfl, hwhole, htorn⟩ := ih ht
            refine ⟨line :: whole, torn, by simp, List.cons_prefix_cons.2 ⟨rfl, hwhole⟩, ?_⟩
            rcases htorn with rfl | ⟨next, hnext, hpart⟩
            · exact Or.inl rfl
            · exact Or.inr ⟨next, List.cons_prefix_cons.2 ⟨rfl, hnext⟩, hpart⟩

end Lines
