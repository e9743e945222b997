import Mathlib.Tactic

set_option autoImplicit false

/-! # Patterns of quantified character classes

The fragment of ECMAScript regular expressions that is a concatenation of character classes, each
with a greedy quantifier and possibly captured as a group. `fullMatch` is the backtracking matcher
of `regex_match`: every quantifier takes the longest run first and gives characters back until the
rest of the pattern matches the rest of the text, which must be used up.

When every repeated class excludes the characters that can follow it (`Separated`), a text splits
along the pattern in at most one way, so the matcher finds that split whatever its search order
(`fullMatch_eq_some_iff`). -/

namespace ClassPattern

variable {α : Type}

/-- One quantified class: `min` to `max` characters it accepts, `max = none` for no bound. -/
structure Piece (α : Type) where
  accepts : α → Bool
  min : ℕ
  max : Option ℕ
  capture : Bool := false

namespace Piece

/-- A literal character. -/
def char [DecidableEq α] (c : α) : Piece α := ⟨fun a => a = c, 1, some 1, false⟩

/-- `class*`. -/
def many (accepts : α → Bool) : Piece α := ⟨accepts, 0, none, false⟩

/-- `(class+)`. -/
def captureMany1 (accepts : α → Bool) : Piece α := ⟨accepts, 1, none, true⟩

/-- `(class*)`. -/
def captureMany (accepts : α → Bool) : Piece α := ⟨accepts, 0, none, true⟩

/-- `(class{n})`. -/
def captureExactly (accepts : α → Bool) (n : ℕ) : Piece α := ⟨accepts, n, some n, true⟩

/-- How many characters at the start of `text` the piece can take at most. -/
def reach (p : Piece α) (text : List α) : ℕ :=
  let run := (text.takeWhile p.accepts).length
  match p.max with
  | none => run
  | some bound => Nat.min bound run

/-- The piece can take exactly this segment. -/
def Fits (p : Piece α) (segment : List α) : Prop :=
  (∀ a ∈ segment, p.accepts a = true) ∧ p.min ≤ segment.length ∧ ∀ n ∈ p.max, segment.length ≤ n

end Piece

/-- Try the lengths `hi, hi - 1, …, lo` in this order. -/
def tryLengths {β : Type} (attempt : ℕ → Option β) (lo : ℕ) : ℕ → Option β
  | 0 => if lo = 0 then attempt 0 else none
  | hi + 1 =>
      if hi + 1 < lo then none
      else match attempt (hi + 1) with
        | some b => some b
        | none => tryLengths attempt lo hi

/-- Match the whole text, returning the captured groups in order. -/
def fullMatch : List (Piece α) → List α → Option (List (List α))
  | [], [] => some []
  | [], _ :: _ => none
  | p :: ps, text =>
      tryLengths (fun n =>
        match fullMatch ps (text.drop n) with
        | some groups => some (if p.capture then text.take n :: groups else groups)
        | none => none) p.min (p.reach text)

/-! ## Splits of a text along a pattern -/

/-- The segments split the text along the pattern. -/
def Splits : List (Piece α) → List (List α) → List α → Prop
  | [], segments, text => segments = [] ∧ text = []
  | _ :: _, [], _ => False
  | p :: ps, segment :: segments, text =>
      p.Fits segment ∧ ∃ rest, text = segment ++ rest ∧ Splits ps segments rest

/-- The segments of the capturing pieces. -/
def groups : List (Piece α) → List (List α) → List (List α)
  | p :: ps, segment :: segments =>
      if p.capture then segment :: groups ps segments else groups ps segments
  | _, _ => []

theorem tryLengths_eq_some {β : Type} {attempt : ℕ → Option β} {lo hi : ℕ} {b : β}
    (h : tryLengths attempt lo hi = some b) : ∃ n, lo ≤ n ∧ n ≤ hi ∧ attempt n = some b := by
  induction hi with
  | zero =>
      rw [tryLengths] at h
      split at h
      · next h0 => exact ⟨0, h0.le, le_refl 0, h⟩
      · exact absurd h (by simp)
  | succ hi ih =>
      rw [tryLengths] at h
      split at h
      · exact absurd h (by simp)
      · next hlo =>
          split at h
          · next b' hb' => exact ⟨hi + 1, by omega, le_refl _, by rw [hb']; exact h⟩
          · obtain ⟨n, hn, hn', hb⟩ := ih h
            exact ⟨n, hn, by omega, hb⟩

theorem tryLengths_isSome {β : Type} {attempt : ℕ → Option β} {lo hi n : ℕ} (hlo : lo ≤ n)
    (hhi : n ≤ hi) (h : (attempt n).isSome) : (tryLengths attempt lo hi).isSome := by
  induction hi with
  | zero =>
      obtain rfl : n = 0 := by omega
      rw [tryLengths, if_pos (by omega)]
      exact h
  | succ hi ih =>
      rw [tryLengths, if_neg (by omega)]
      split
      · rfl
      · next hnone =>
          have hne : n ≠ hi + 1 := by
            rintro rfl
            simp [hnone] at h
          exact ih (by omega)

theorem Piece.fits_take {p : Piece α} {text : List α} {n : ℕ} (hmin : p.min ≤ n)
    (hreach : n ≤ p.reach text) : p.Fits (text.take n) ∧ n ≤ text.length := by
  have hrun : n ≤ (text.takeWhile p.accepts).length := by
    unfold reach at hreach
    split at hreach
    · exact hreach
    · exact hreach.trans (Nat.min_le_right _ _)
  have hlen : (text.takeWhile p.accepts).length ≤ text.length :=
    (List.takeWhile_sublist _).length_le
  have htake : text.take n = (text.takeWhile p.accepts).take n := by
    conv_lhs => rw [← List.takeWhile_append_dropWhile (p := p.accepts) (l := text)]
    exact List.take_append_of_le_length hrun
  refine ⟨⟨fun a ha => ?_, ?_, fun bound hbound => ?_⟩, hrun.trans hlen⟩
  · rw [htake] at ha
    have := List.all_takeWhile (p := p.accepts) (l := text)
    exact List.all_eq_true.1 this a (List.mem_of_mem_take ha)
  · rw [List.length_take]
    omega
  · rw [List.length_take]
    unfold reach at hreach
    rw [Option.mem_def.1 hbound] at hreach
    exact (Nat.min_le_left _ _).trans (hreach.trans (Nat.min_le_left _ _))

theorem Piece.length_le_reach {p : Piece α} {segment rest : List α} (h : p.Fits segment) :
    segment.length ≤ p.reach (segment ++ rest) := by
  have hrun : segment.length ≤ ((segment ++ rest).takeWhile p.accepts).length := by
    rw [List.takeWhile_append_of_pos h.1, List.length_append]
    omega
  unfold reach
  split
  · exact hrun
  · next bound hbound => exact Nat.le_min.2 ⟨h.2.2 bound hbound, hrun⟩

/-- A match is a split. -/
theorem splits_of_fullMatch {ps : List (Piece α)} {text : List α} {captured : List (List α)}
    (h : fullMatch ps text = some captured) :
    ∃ segments, Splits ps segments text ∧ groups ps segments = captured := by
  induction ps generalizing text captured with
  | nil =>
      match text with
      | [] =>
          rw [fullMatch, Option.some.injEq] at h
          exact ⟨[], ⟨rfl, rfl⟩, by rw [groups.eq_def]; exact h⟩
      | _ :: _ => exact absurd h (by simp [fullMatch])
  | cons p ps ih =>
      rw [fullMatch] at h
      obtain ⟨n, hmin, hreach, hn⟩ := tryLengths_eq_some h
      split at hn
      · next rest hrest =>
          obtain ⟨segments, hsplits, hgroups⟩ := ih hrest
          refine ⟨text.take n :: segments,
            ⟨(Piece.fits_take hmin hreach).1, text.drop n, (List.take_append_drop n text).symm,
              hsplits⟩, ?_⟩
          rw [groups, hgroups]
          exact Option.some.inj hn
      · exact absurd hn (by simp)

/-- A split makes the matcher succeed. -/
theorem fullMatch_isSome_of_splits {ps : List (Piece α)} {segments : List (List α)} {text : List α}
    (h : Splits ps segments text) : (fullMatch ps text).isSome := by
  induction ps generalizing segments text with
  | nil =>
      obtain ⟨-, rfl⟩ := h
      rfl
  | cons p ps ih =>
      match segments with
      | [] => exact absurd h id
      | segment :: segments =>
          obtain ⟨hfits, rest, rfl, hrest⟩ := h
          rw [fullMatch]
          apply tryLengths_isSome hfits.2.1 (Piece.length_le_reach hfits)
          rw [List.drop_left' rfl]
          obtain ⟨captured, hcaptured⟩ := Option.isSome_iff_exists.1 (ih hrest)
          rw [hcaptured]
          rfl

/-! ## Patterns with one split a text -/

/-- `a` can be the first character of a text the pattern splits. -/
def Starts (a : α) : List (Piece α) → Prop
  | [] => False
  | p :: ps => p.accepts a = true ∨ (p.min = 0 ∧ Starts a ps)

/-- Every piece has a fixed length or excludes what can follow it. -/
def Separated : List (Piece α) → Prop
  | [] => True
  | p :: ps => (p.max = some p.min ∨ ∀ a, p.accepts a = true → ¬ Starts a ps) ∧ Separated ps

theorem starts_of_splits {ps : List (Piece α)} {segments : List (List α)} {a : α} {text : List α}
    (h : Splits ps segments (a :: text)) : Starts a ps := by
  induction ps generalizing segments with
  | nil => exact absurd h.2 (by simp)
  | cons p ps ih =>
      match segments with
      | [] => exact absurd h id
      | [] :: segments =>
          obtain ⟨hfits, rest, hrest, hsplits⟩ := h
          rw [List.nil_append] at hrest
          subst hrest
          exact Or.inr ⟨by simpa using hfits.2.1, ih hsplits⟩
      | (b :: segment) :: segments =>
          obtain ⟨hfits, rest, hrest, -⟩ := h
          rw [List.cons_append, List.cons.injEq] at hrest
          rw [hrest.1]
          exact Or.inl (hfits.1 b (by simp))

/-- Two segments the same piece takes at the start of one text, one longer than the other: the
    longer takes a character that the rest of the pattern starts with. -/
theorem not_shorter {p : Piece α} {ps : List (Piece α)} {s t rest rest' : List α}
    {segments : List (List α)}
    (hsep : p.max = some p.min ∨ ∀ a, p.accepts a = true → ¬ Starts a ps)
    (hs : p.Fits s) (ht : p.Fits t) (heq : s ++ rest = t ++ rest')
    (hsplits : Splits ps segments rest) : ¬ s.length < t.length := by
  intro hlt
  rcases hsep with hfixed | hexcl
  · have hlong := ht.2.2 p.min hfixed
    have hshort := hs.2.1
    omega
  · obtain ⟨u, hu⟩ : s <+: t :=
      List.prefix_of_prefix_length_le (List.prefix_append s rest)
        (heq ▸ List.prefix_append t rest') hlt.le
    match u with
    | [] =>
        rw [List.append_nil] at hu
        rw [hu] at hlt
        omega
    | a :: u =>
        rw [← hu, List.append_assoc] at heq
        have hrest : rest = a :: (u ++ rest') := List.append_cancel_left heq
        rw [hrest] at hsplits
        exact hexcl a (ht.1 a (by rw [← hu]; simp)) (starts_of_splits hsplits)

/-- **A separated pattern splits a text in at most one way.** -/
theorem splits_unique {ps : List (Piece α)} (hsep : Separated ps) {segments segments' : List (List α)}
    {text : List α} (h : Splits ps segments text) (h' : Splits ps segments' text) :
    segments = segments' := by
  induction ps generalizing segments segments' text with
  | nil => rw [h.1, h'.1]
  | cons p ps ih =>
      match segments, segments' with
      | [], _ => exact absurd h id
      | _ :: _, [] => exact absurd h' id
      | s :: segments, t :: segments' =>
          obtain ⟨hs, rest, rfl, hrest⟩ := h
          obtain ⟨ht, rest', heq, hrest'⟩ := h'
          have hlen : s.length = t.length := le_antisymm
            (Nat.not_lt.1 (not_shorter hsep.1 ht hs heq.symm hrest'))
            (Nat.not_lt.1 (not_shorter hsep.1 hs ht heq hrest))
          obtain ⟨rfl, rfl⟩ := List.append_inj heq hlen
          rw [ih hsep.2 hrest hrest']

/-- The pattern matches the whole text with these groups. -/
def Matches (ps : List (Piece α)) (text : List α) (captured : List (List α)) : Prop :=
  ∃ segments, Splits ps segments text ∧ groups ps segments = captured

/-- **What a separated pattern matches**, and with which groups. -/
theorem fullMatch_eq_some_iff {ps : List (Piece α)} (hsep : Separated ps) {text : List α}
    {captured : List (List α)} :
    fullMatch ps text = some captured ↔ Matches ps text captured := by
  refine ⟨splits_of_fullMatch, ?_⟩
  intro hsegments
  rcases hsegments with ⟨segments, hsplits, rfl⟩
  obtain ⟨found, hfound⟩ := Option.isSome_iff_exists.1 (fullMatch_isSome_of_splits hsplits)
  obtain ⟨segments', hsplits', rfl⟩ := splits_of_fullMatch hfound
  rw [hfound, splits_unique hsep hsplits hsplits']

/-- Every group is a segment its piece fits. -/
theorem forall₂_fits_groups {ps : List (Piece α)} {segments : List (List α)} {text : List α}
    (h : Splits ps segments text) :
    List.Forall₂ Piece.Fits (ps.filter Piece.capture) (groups ps segments) := by
  induction ps generalizing segments text with
  | nil =>
      rw [groups.eq_def]
      exact List.Forall₂.nil
  | cons p ps ih =>
      match segments with
      | [] => exact absurd h id
      | segment :: segments =>
          obtain ⟨hfits, rest, -, hrest⟩ := h
          rw [groups]
          by_cases hcapture : p.capture = true
          · rw [List.filter_cons_of_pos hcapture, if_pos hcapture]
            exact List.Forall₂.cons hfits (ih hrest)
          · rw [List.filter_cons_of_neg hcapture, if_neg hcapture]
            exact ih hrest

/-- The groups of a match fit the capturing pieces, one after the other. -/
theorem Matches.forall₂_fits {ps : List (Piece α)} {text : List α} {captured : List (List α)}
    (h : Matches ps text captured) :
    List.Forall₂ Piece.Fits (ps.filter Piece.capture) captured := by
  obtain ⟨segments, hsplits, rfl⟩ := h
  exact forall₂_fits_groups hsplits

/-! ## Building matches piece by piece -/

theorem matches_nil : Matches ([] : List (Piece α)) [] [] := ⟨[], ⟨rfl, rfl⟩, by rw [groups.eq_def]⟩

/-- A piece without group takes a segment it fits. -/
theorem Matches.skip {p : Piece α} {ps : List (Piece α)} {segment text : List α}
    {captured : List (List α)} (h : Matches ps text captured) (hcapture : p.capture = false)
    (hfits : p.Fits segment) : Matches (p :: ps) (segment ++ text) captured := by
  obtain ⟨segments, hsplits, hgroups⟩ := h
  exact ⟨segment :: segments, ⟨hfits, text, rfl, hsplits⟩, by simp [groups, hcapture, hgroups]⟩

/-- A capturing piece takes a segment it fits, and the segment is its group. -/
theorem Matches.capture {p : Piece α} {ps : List (Piece α)} {segment text : List α}
    {captured : List (List α)} (h : Matches ps text captured) (hcapture : p.capture = true)
    (hfits : p.Fits segment) : Matches (p :: ps) (segment ++ text) (segment :: captured) := by
  obtain ⟨segments, hsplits, hgroups⟩ := h
  exact ⟨segment :: segments, ⟨hfits, text, rfl, hsplits⟩, by simp [groups, hcapture, hgroups]⟩

/-- `class*` takes nothing. -/
theorem Matches.none {accepts : α → Bool} {ps : List (Piece α)} {text : List α}
    {captured : List (List α)} (h : Matches ps text captured) :
    Matches (Piece.many accepts :: ps) text captured :=
  @Matches.skip α (Piece.many accepts) ps [] text captured h rfl
    ⟨by simp, le_refl 0, by simp [Piece.many]⟩

/-- A capturing repeated class takes a non-empty run. -/
theorem Matches.captureMany1 {accepts : α → Bool} {ps : List (Piece α)} {segment text : List α}
    {captured : List (List α)} (h : Matches ps text captured) (hne : segment ≠ [])
    (hall : ∀ a ∈ segment, accepts a = true) :
    Matches (Piece.captureMany1 accepts :: ps) (segment ++ text) (segment :: captured) :=
  h.capture rfl ⟨hall, List.length_pos_iff.2 hne, by simp [Piece.captureMany1]⟩

/-- A capturing repeated class that may take nothing takes any run. -/
theorem Matches.captureMany {accepts : α → Bool} {ps : List (Piece α)} {segment text : List α}
    {captured : List (List α)} (h : Matches ps text captured)
    (hall : ∀ a ∈ segment, accepts a = true) :
    Matches (Piece.captureMany accepts :: ps) (segment ++ text) (segment :: captured) :=
  h.capture rfl ⟨hall, Nat.zero_le _, by simp [Piece.captureMany]⟩

/-- A capturing class with a fixed count takes a run of that length. -/
theorem Matches.captureExactly {accepts : α → Bool} {n : ℕ} {ps : List (Piece α)}
    {segment text : List α} {captured : List (List α)} (h : Matches ps text captured)
    (hlen : segment.length = n) (hall : ∀ a ∈ segment, accepts a = true) :
    Matches (Piece.captureExactly accepts n :: ps) (segment ++ text) (segment :: captured) :=
  h.capture rfl ⟨hall, hlen.ge, by simp [Piece.captureExactly, hlen]⟩

section Literal

variable [DecidableEq α]

/-- A literal text, character by character. -/
def literal (text : List α) : List (Piece α) := text.map Piece.char

theorem Matches.char {c : α} {ps : List (Piece α)} {text : List α} {captured : List (List α)}
    (h : Matches ps text captured) : Matches (Piece.char c :: ps) (c :: text) captured :=
  @Matches.skip α (Piece.char c) ps [c] text captured h rfl
    ⟨by simp [Piece.char], by simp [Piece.char], by simp [Piece.char]⟩

theorem Matches.literal {chars : List α} {ps : List (Piece α)} {text : List α}
    {captured : List (List α)} (h : Matches ps text captured) :
    Matches (literal chars ++ ps) (chars ++ text) captured := by
  induction chars with
  | nil => exact h
  | cons c chars ih => exact ih.char

/-- A text the pattern splits has every literal character of the pattern. -/
theorem mem_of_splits {c : α} {ps : List (Piece α)} {segments : List (List α)} {text : List α}
    (hc : Piece.char c ∈ ps) (h : Splits ps segments text) : c ∈ text := by
  induction ps generalizing segments text with
  | nil => simp at hc
  | cons p ps ih =>
      match segments with
      | [] => exact absurd h id
      | segment :: segments =>
          obtain ⟨hfits, rest, rfl, hrest⟩ := h
          rcases List.mem_cons.1 hc with rfl | hc
          · match segment with
            | [] => exact absurd hfits.2.1 (by simp [Piece.char])
            | a :: segment =>
                have ha : a = c := by simpa [Piece.char] using hfits.1 a (by simp)
                simp [ha]
          · exact List.mem_append_right _ (ih hc hrest)

theorem Piece.count_le_of_fits {p : Piece α} {c : α} {segment : List α} (hfits : p.Fits segment)
    (hone : p.accepts c = false ∨ p.max = some 1) :
    segment.count c ≤ if p.accepts c = true then 1 else 0 := by
  by_cases hc : p.accepts c = true
  · rw [if_pos hc]
    have hmax := hone.resolve_left (by simp [hc])
    exact List.count_le_length.trans (hfits.2.2 1 hmax)
  · rw [if_neg hc, List.count_eq_zero_of_not_mem fun hmem => hc (hfits.1 c hmem)]

/-- **How often a character can occur**: once for each piece that accepts it, when none of these is
    repeated. -/
theorem Matches.count_le {c : α} {ps : List (Piece α)} {text : List α} {captured : List (List α)}
    (h : Matches ps text captured) (hone : ∀ p ∈ ps, p.accepts c = false ∨ p.max = some 1) :
    text.count c ≤ ps.countP fun p => p.accepts c := by
  obtain ⟨segments, hsplits, -⟩ := h
  induction ps generalizing segments text with
  | nil => simp [hsplits.2]
  | cons p ps ih =>
      match segments with
      | [] => exact absurd hsplits id
      | segment :: segments =>
          obtain ⟨hfits, rest, rfl, hrest⟩ := hsplits
          rw [List.forall_mem_cons] at hone
          rw [List.count_append, List.countP_cons, Nat.add_comm]
          exact Nat.add_le_add (ih hone.2 segments hrest) (Piece.count_le_of_fits hfits hone.1)

/-! ## Checking separation -/

omit [DecidableEq α] in
@[simp] theorem separated_nil : Separated ([] : List (Piece α)) := trivial

@[simp] theorem separated_char {c : α} {ps : List (Piece α)} :
    Separated (Piece.char c :: ps) ↔ Separated ps :=
  ⟨And.right, fun h => ⟨Or.inl rfl, h⟩⟩

omit [DecidableEq α] in
@[simp] theorem separated_captureExactly {accepts : α → Bool} {n : ℕ} {ps : List (Piece α)} :
    Separated (Piece.captureExactly accepts n :: ps) ↔ Separated ps :=
  ⟨And.right, fun h => ⟨Or.inl rfl, h⟩⟩

@[simp] theorem separated_literal {chars : List α} {ps : List (Piece α)} :
    Separated (literal chars ++ ps) ↔ Separated ps := by
  induction chars with
  | nil => rfl
  | cons c chars ih => exact separated_char.trans ih

omit [DecidableEq α] in
/-- A repeated class must exclude what the piece after it accepts, if that piece takes something. -/
theorem separated_cons_cons {p q : Piece α} {ps : List (Piece α)} (hmin : q.min ≠ 0)
    (hdisjoint : ∀ a, p.accepts a = true → q.accepts a = false) (h : Separated (q :: ps)) :
    Separated (p :: q :: ps) := by
  refine ⟨Or.inr fun a ha => ?_, h⟩
  intro hstarts
  rcases hstarts with hq | ⟨hzero, -⟩
  · rw [hdisjoint a ha] at hq
    exact absurd hq (by simp)
  · exact hmin hzero

/-- A repeated class before a literal must exclude it. -/
theorem separated_repeat_char {p : Piece α} {c : α} {ps : List (Piece α)}
    (hexcl : p.accepts c = false) (h : Separated ps) : Separated (p :: Piece.char c :: ps) := by
  refine separated_cons_cons (by simp [Piece.char]) (fun a ha => ?_) (separated_char.2 h)
  simp only [Piece.char, decide_eq_false_iff_not]
  rintro rfl
  rw [hexcl] at ha
  exact absurd ha (by simp)

/-- Two repeated classes before a literal must exclude each other and the literal. -/
theorem separated_repeat_many_char {p : Piece α} {accepts : α → Bool} {c : α} {ps : List (Piece α)}
    (hdisjoint : ∀ a, p.accepts a = true → accepts a = false) (hexcl : p.accepts c = false)
    (hexcl' : accepts c = false) (h : Separated ps) :
    Separated (p :: Piece.many accepts :: Piece.char c :: ps) := by
  refine ⟨Or.inr fun a ha => ?_, separated_repeat_char hexcl' h⟩
  intro hstarts
  rcases hstarts with hmany | ⟨-, hc | ⟨hmin, -⟩⟩
  · have hfalse := hdisjoint a ha
    simp only [Piece.many] at hmany
    rw [hfalse] at hmany
    exact absurd hmany (by simp)
  · have : a = c := by simpa [Piece.char] using hc
    rw [this, hexcl] at ha
    exact absurd ha (by simp)
  · exact absurd hmin (by simp [Piece.char])

end Literal

end ClassPattern
