import Mathlib.Data.List.TakeWhile
import Mathlib.Data.Nat.Digits.Defs
import Mathlib.Tactic

set_option autoImplicit false

/-! # Numerals in ASCII text

Printing a natural in a base up to 36 and scanning it back, on bytes. `print` is what an unsigned
stream insertion writes; `scanUnsigned` is the subject sequence of C's `strtoul`: leading blanks, an
optional sign, an optional `0x` in base 16 and the longest run of digits. On text that is digits
only, scanning is positional evaluation, so printing and scanning are inverse. -/

namespace Numeral

/-- The digit for a value below 36, in lower case. -/
def digitChar (d : ℕ) : UInt8 := if d < 10 then UInt8.ofNat (48 + d) else UInt8.ofNat (87 + d)

/-- The value of a digit, letters in either case. -/
def charDigit (c : UInt8) : Option ℕ :=
  if 48 ≤ c ∧ c ≤ 57 then some (c.toNat - 48)
  else if 97 ≤ c ∧ c ≤ 122 then some (c.toNat - 87)
  else if 65 ≤ c ∧ c ≤ 90 then some (c.toNat - 55)
  else none

def isDigit (base : ℕ) (c : UInt8) : Bool :=
  match charDigit c with
  | some d => d < base
  | none => false

/-- `isspace` in the classic locale. -/
def isSpace (c : UInt8) : Bool := c = 32 ∨ (9 ≤ c ∧ c ≤ 13)

/-- The numeral of `n` without leading zeros. -/
def print (base n : ℕ) : List UInt8 :=
  if n = 0 then [digitChar 0] else (Nat.digits base n).reverse.map digitChar

/-- The value of a digit string. -/
def value (base : ℕ) (text : List UInt8) : ℕ :=
  text.foldl (fun acc c => acc * base + (charDigit c).getD 0) 0

/-- Skip `0x` or `0X` when a digit follows it; otherwise the `0` is the number. -/
def skipHexPrefix (base : ℕ) (text : List UInt8) : List UInt8 :=
  match text with
  | 48 :: x :: d :: tail =>
      if base = 16 ∧ (x = 120 ∨ x = 88) ∧ isDigit 16 d then d :: tail else text
  | _ => text

/-- Whether a minus sign was read, and the magnitude; `none` when there is no digit. -/
def scanUnsigned (base : ℕ) (text : List UInt8) : Option (Bool × ℕ) :=
  let rest := text.dropWhile isSpace
  let signed := match rest with
    | 45 :: tail => (true, tail)
    | 43 :: tail => (false, tail)
    | _ => (false, rest)
  let digits := (skipHexPrefix base signed.2).takeWhile (isDigit base)
  if digits = [] then none else some (signed.1, value base digits)

/-! ## Digits -/

theorem charDigit_digitChar {d : ℕ} (h : d < 36) : charDigit (digitChar d) = some d := by
  have hall : ∀ d < 36, charDigit (digitChar d) = some d := by decide
  exact hall d h

theorem isDigit_digitChar {base d : ℕ} (hbase : base ≤ 36) (h : d < base) :
    isDigit base (digitChar d) = true := by
  simp [isDigit, charDigit_digitChar (show d < 36 by omega), h]

/-- A digit is no blank and no sign, and in base 16 or less no `x`. -/
theorem isDigit_ne {base : ℕ} {c : UInt8} (h : isDigit base c = true) :
    isSpace c = false ∧ c ≠ 45 ∧ c ≠ 43 := by
  have hsome : (charDigit c).isSome := by
    unfold isDigit at h
    cases hc : charDigit c with
    | none => simp [hc] at h
    | some d => rfl
  have hall : ∀ c : UInt8, (charDigit c).isSome → isSpace c = false ∧ c ≠ 45 ∧ c ≠ 43 := by
    intro c hc
    unfold charDigit at hc
    simp only [UInt8.le_iff_toNat_le, ← UInt8.toNat_inj, isSpace, UInt8.reduceToNat, ne_eq,
      decide_eq_false_iff_not] at hc ⊢
    split at hc
    · omega
    · split at hc
      · omega
      · split at hc
        · omega
        · simp at hc
  exact hall c hsome

theorem le_toNat_of_isDigit {base : ℕ} {c : UInt8} (h : isDigit base c = true) : 48 ≤ c.toNat := by
  unfold isDigit charDigit at h
  simp only [UInt8.le_iff_toNat_le, UInt8.reduceToNat] at h
  by_contra hlow
  simp [show ¬ 48 ≤ c.toNat by omega, show ¬ 97 ≤ c.toNat by omega,
    show ¬ 65 ≤ c.toNat by omega] at h

theorem not_isDigit_hexPrefix {c : UInt8} (h : isDigit 16 c = true) : ¬ (c = 120 ∨ c = 88) := by
  rintro (rfl | rfl) <;> exact absurd h (by decide)

/-! ## Printing and evaluating -/

theorem value_eq_ofDigits (base : ℕ) (ds : List ℕ) (h : ∀ d ∈ ds, d < 36) :
    value base (ds.reverse.map digitChar) = Nat.ofDigits base ds := by
  induction ds with
  | nil => rfl
  | cons d ds ih =>
      have hd := charDigit_digitChar (h d (by simp))
      have hrest := ih fun x hx => h x (by simp [hx])
      rw [value] at hrest ⊢
      rw [List.reverse_cons, List.map_append, List.foldl_append, hrest, Nat.ofDigits_cons]
      simp only [List.map_cons, List.map_nil, List.foldl_cons, List.foldl_nil, hd, Option.getD_some]
      ring

/-- One digit more on the right. -/
theorem value_concat (base : ℕ) (text : List UInt8) (c : UInt8) :
    value base (text ++ [c]) = value base text * base + (charDigit c).getD 0 := by
  rw [value, List.foldl_append]
  rfl

theorem digit_lt {base : ℕ} {c : UInt8} (h : isDigit base c = true) :
    (charDigit c).getD 0 < base := by
  unfold isDigit at h
  cases hc : charDigit c with
  | none => simp [hc] at h
  | some d => simpa [hc] using h

/-- A digit string of length `n` stands for a number below `base ^ n`. -/
theorem value_lt {base : ℕ} {text : List UInt8} (h : ∀ c ∈ text, isDigit base c = true) :
    value base text < base ^ text.length := by
  induction text using List.reverseRecOn with
  | nil => simp [value]
  | append_singleton text c ih =>
      have hinit := ih fun d hd => h d (by simp [hd])
      have hlast := digit_lt (h c (by simp))
      rw [value_concat, List.length_append, List.length_singleton, pow_succ]
      calc value base text * base + (charDigit c).getD 0
          < value base text * base + base := Nat.add_lt_add_left hlast _
        _ = (value base text + 1) * base := by ring
        _ ≤ base ^ text.length * base := Nat.mul_le_mul_right _ hinit

section Base

variable {base : ℕ} (hlo : 1 < base) (hhi : base ≤ 36)

include hlo hhi

/-- Printing and evaluating are inverse. -/
theorem value_print (n : ℕ) : value base (print base n) = n := by
  unfold print
  split
  · next h => simp [value, charDigit_digitChar, h]
  · rw [value_eq_ofDigits base _ fun d hd =>
      lt_of_lt_of_le (Nat.digits_lt_base hlo hd) hhi, Nat.ofDigits_digits]

theorem isDigit_of_mem_print {n : ℕ} {c : UInt8} (h : c ∈ print base n) :
    isDigit base c = true := by
  unfold print at h
  split at h
  · rw [List.mem_singleton.1 h]
    exact isDigit_digitChar hhi (by omega)
  · obtain ⟨d, hd, rfl⟩ := List.mem_map.1 h
    exact isDigit_digitChar hhi (Nat.digits_lt_base hlo (List.mem_reverse.1 hd))

end Base

theorem print_ne_nil (base n : ℕ) : print base n ≠ [] := by
  unfold print
  split
  · simp
  · next h => simpa [Nat.digits_ne_nil_iff_ne_zero] using h

/-! ## Decimal numerals -/

theorem value_print_ten (n : ℕ) : value 10 (print 10 n) = n := value_print (by decide) (by decide) n

theorem digits_print (n : ℕ) : print 10 n ≠ [] ∧ ∀ c ∈ print 10 n, isDigit 10 c = true :=
  ⟨print_ne_nil _ _, fun _ hc => isDigit_of_mem_print (by decide) (by decide) hc⟩

theorem not_mem_print {c : UInt8} (h : isDigit 10 c = false) (n : ℕ) : c ∉ print 10 n := by
  intro hmem
  rw [(digits_print n).2 c hmem] at h
  exact absurd h (by simp)

/-! ## Scanning -/

/-- What follows the leading blanks and one sign. -/
def afterSign (text : List UInt8) : List UInt8 :=
  match text.dropWhile isSpace with
  | c :: tail => if c = 45 ∨ c = 43 then tail else c :: tail
  | [] => []

/-- The digits a scan converts; what follows them is not looked at. -/
def scannedDigits (base : ℕ) (text : List UInt8) : List UInt8 :=
  (skipHexPrefix base (afterSign text)).takeWhile (isDigit base)

theorem afterSign_of_space {c : UInt8} (h : isSpace c = true) (text : List UInt8) :
    afterSign (c :: text) = afterSign text := by
  rw [afterSign, List.dropWhile_cons_of_pos h, afterSign]

theorem afterSign_of_sign {c : UInt8} (h : c = 45 ∨ c = 43) (text : List UInt8) :
    afterSign (c :: text) = text := by
  have hspace : ¬ isSpace c = true := by rcases h with rfl | rfl <;> decide
  rw [afterSign, List.dropWhile_cons_of_neg hspace]
  exact if_pos h

theorem afterSign_of_other {c : UInt8} (hspace : ¬ isSpace c = true) (hsign : ¬ (c = 45 ∨ c = 43))
    (text : List UInt8) : afterSign (c :: text) = c :: text := by
  rw [afterSign, List.dropWhile_cons_of_neg hspace]
  exact if_neg hsign

/-- **A scan converts a run of digits**, whatever stands before and after it. -/
theorem scanUnsigned_eq (base : ℕ) (text : List UInt8) :
    ∃ negative, scanUnsigned base text =
      if scannedDigits base text = [] then none
      else some (negative, value base (scannedDigits base text)) := by
  unfold scanUnsigned scannedDigits afterSign
  cases text.dropWhile isSpace with
  | nil => exact ⟨false, rfl⟩
  | cons c tail =>
      by_cases hminus : c = 45
      · subst hminus
        exact ⟨true, rfl⟩
      · by_cases hplus : c = 43
        · subst hplus
          exact ⟨false, rfl⟩
        · refine ⟨false, ?_⟩
          simp only [hminus, hplus, or_self, if_false]
          split
          · next heq => exact absurd (List.cons.inj heq).1 hminus
          · next heq => exact absurd (List.cons.inj heq).1 hplus
          · rfl

/-- The `x` of a hexadecimal start is no digit. -/
theorem skipHexPrefix_of_digits {base : ℕ} {text : List UInt8}
    (h : ∀ c ∈ text, isDigit base c = true) : skipHexPrefix base text = text := by
  unfold skipHexPrefix
  split
  · next x d rest =>
      rw [if_neg]
      intro hdigits
      rcases hdigits with ⟨rfl, hx, -⟩
      exact not_isDigit_hexPrefix (h x (by simp)) hx
  · rfl

theorem scannedDigits_of_digits {base : ℕ} {text : List UInt8}
    (h : ∀ c ∈ text, isDigit base c = true) : scannedDigits base text = text := by
  have hsign : afterSign text = text := by
    cases text with
    | nil => rfl
    | cons c tail =>
        obtain ⟨hspace, hminus, hplus⟩ := isDigit_ne (h c List.mem_cons_self)
        exact afterSign_of_other (by simp [hspace]) (not_or.2 ⟨hminus, hplus⟩) tail
  rw [scannedDigits, hsign, skipHexPrefix_of_digits h]
  exact List.takeWhile_eq_self_iff.2 h

theorem length_afterSign_le (text : List UInt8) : (afterSign text).length ≤ text.length := by
  have hdrop := List.length_dropWhile_le isSpace text
  unfold afterSign
  split
  · next c tail heq =>
      rw [heq, List.length_cons] at hdrop
      split
      · omega
      · rw [List.length_cons]
        omega
  · exact Nat.zero_le _

theorem length_scannedDigits_le (base : ℕ) (text : List UInt8) :
    (scannedDigits base text).length ≤ text.length := by
  have hskip : ∀ text : List UInt8, (skipHexPrefix base text).length ≤ text.length := by
    intro text
    unfold skipHexPrefix
    split
    · split
      · simp
      · rfl
    · rfl
  exact (List.takeWhile_prefix _).length_le.trans ((hskip _).trans (length_afterSign_le text))

theorem value_scannedDigits_lt {base : ℕ} (hbase : 0 < base) (text : List UInt8) :
    value base (scannedDigits base text) < base ^ text.length :=
  (value_lt fun _ hc => List.mem_takeWhile_imp hc).trans_le
    (Nat.pow_le_pow_right hbase (length_scannedDigits_le base text))

/-- Only a digit string is converted as a whole. -/
theorem scannedDigits_eq_self_iff {base : ℕ} {text : List UInt8} :
    scannedDigits base text = text ↔ ∀ c ∈ text, isDigit base c = true := by
  refine ⟨fun heq c hc => ?_, scannedDigits_of_digits⟩
  rw [← heq] at hc
  exact List.mem_takeWhile_imp hc

/-- **Scanning a digit string reads its value.** -/
theorem scanUnsigned_of_digits {base : ℕ} {text : List UInt8} (hne : text ≠ [])
    (h : ∀ c ∈ text, isDigit base c = true) :
    scanUnsigned base text = some (false, value base text) := by
  match text with
  | [] => exact absurd rfl hne
  | c :: tail =>
      obtain ⟨hspace, hminus, hplus⟩ := isDigit_ne (h c (by simp))
      have htake : (c :: tail).takeWhile (isDigit base) = c :: tail :=
        List.takeWhile_eq_self_iff.2 h
      have hsign : (match c :: tail with
          | 45 :: tail => (true, tail)
          | 43 :: tail => (false, tail)
          | _ => (false, c :: tail)) = (false, c :: tail) := by
        split
        · next heq => exact absurd (List.cons.inj heq).1 hminus
        · next heq => exact absurd (List.cons.inj heq).1 hplus
        · rfl
      unfold scanUnsigned
      rw [List.dropWhile_cons_of_neg (by simpa using hspace)]
      simp only [hsign, skipHexPrefix_of_digits h, htake]
      rw [if_neg (by simp)]

theorem scanUnsigned_print {base : ℕ} (hlo : 1 < base) (hhi : base ≤ 36) (n : ℕ) :
    scanUnsigned base (print base n) = some (false, n) := by
  rw [scanUnsigned_of_digits (print_ne_nil base n) fun c hc => isDigit_of_mem_print hlo hhi hc,
    value_print hlo hhi]

/-! ## Two hexadecimal digits a byte -/

/-- The numeral of `n` padded with zeros to `width`. -/
def printPadded (base width n : ℕ) : List UInt8 :=
  List.replicate (width - (print base n).length) 48 ++ print base n

/-- A byte takes exactly two hexadecimal digits. -/
theorem printPadded_byte (b : UInt8) :
    printPadded 16 2 b.toNat = [digitChar (b.toNat / 16), digitChar (b.toNat % 16)] := by
  have hall : ∀ n < 256, printPadded 16 2 n = [digitChar (n / 16), digitChar (n % 16)] := by
    intro n hn
    unfold printPadded print
    by_cases h0 : n = 0
    · subst h0; rfl
    · by_cases h16 : n < 16
      · rw [if_neg h0, Nat.digits_def' (by decide) (by omega), Nat.div_eq_of_lt h16,
          Nat.mod_eq_of_lt h16]
        rfl
      · rw [if_neg h0, Nat.digits_def' (by decide) (by omega),
          Nat.digits_def' (by decide) (by omega), Nat.div_div_eq_div_mul, Nat.div_eq_of_lt hn,
          Nat.mod_eq_of_lt (show n / 16 < 16 by omega)]
        rfl
  exact hall b.toNat b.toNat_lt

theorem scanUnsigned_byte (b : UInt8) :
    scanUnsigned 16 [digitChar (b.toNat / 16), digitChar (b.toNat % 16)]
      = some (false, b.toNat) := by
  have hb : b.toNat < 256 := b.toNat_lt
  have hhigh : b.toNat / 16 < 16 := by omega
  have hlow : b.toNat % 16 < 16 := by omega
  rw [scanUnsigned_of_digits (by simp)]
  · simp only [value, List.foldl_cons, List.foldl_nil,
      charDigit_digitChar (show b.toNat / 16 < 36 by omega),
      charDigit_digitChar (show b.toNat % 16 < 36 by omega), Option.getD_some, Option.some.injEq,
      Prod.mk.injEq, true_and]
    omega
  · intro c hc
    simp only [List.mem_cons, List.not_mem_nil, or_false] at hc
    rcases hc with rfl | rfl
    · exact isDigit_digitChar (by decide) hhigh
    · exact isDigit_digitChar (by decide) hlow

/-- A blank or a sign is no digit. -/
theorem not_isDigit_of_skipped {base : ℕ} {c : UInt8} (h : isSpace c = true ∨ c = 45 ∨ c = 43) :
    ¬ isDigit base c = true := by
  intro hdigit
  obtain ⟨hspace, hminus, hplus⟩ := isDigit_ne hdigit
  rcases h with hblank | hsign
  · rw [hspace] at hblank
    exact absurd hblank (by simp)
  · exact hsign.elim hminus hplus

/-- Behind a blank, one more character converts when it is a digit. -/
theorem takeWhile_afterSign_singleton {base : ℕ} {c : UInt8} :
    (afterSign [c]).takeWhile (isDigit base) ≠ [] ↔ isDigit base c = true := by
  by_cases hspace : isSpace c = true
  · have hdigit := @not_isDigit_of_skipped base c (Or.inl hspace)
    rw [afterSign_of_space hspace]
    simp [afterSign, hdigit]
  · by_cases hsign : c = 45 ∨ c = 43
    · have hdigit := @not_isDigit_of_skipped base c (Or.inr hsign)
      rw [afterSign_of_sign hsign]
      simp [hdigit]
    · rw [afterSign_of_other hspace hsign]
      by_cases hdigit : isDigit base c = true <;> simp [hdigit]

/-- **When two characters convert in base 16**: the first is a digit, or a blank or a sign before the
    second. -/
theorem scannedDigits_pair_ne_nil_iff {a b : UInt8} :
    scannedDigits 16 [a, b] ≠ [] ↔
      isDigit 16 a = true ∨ (isSpace a = true ∨ a = 45 ∨ a = 43) ∧ isDigit 16 b = true := by
  -- two characters are too short for a hexadecimal start
  have hshort : ∀ text : List UInt8, text.length ≤ 2 → skipHexPrefix 16 text = text := by
    intro text hlen
    unfold skipHexPrefix
    split
    · next => simp at hlen
    · rfl
  have hscan : scannedDigits 16 [a, b] = (afterSign [a, b]).takeWhile (isDigit 16) := by
    rw [scannedDigits, hshort _ (length_afterSign_le [a, b])]
  rw [hscan]
  by_cases hskipped : isSpace a = true ∨ a = 45 ∨ a = 43
  · rw [or_iff_right (not_isDigit_of_skipped hskipped), and_iff_right hskipped]
    rcases hskipped with hspace | hsign
    · rw [afterSign_of_space hspace]
      exact takeWhile_afterSign_singleton
    · rw [afterSign_of_sign hsign]
      by_cases hdigit : isDigit 16 b = true <;> simp [hdigit]
  · obtain ⟨hspace, hsign⟩ := not_or.1 hskipped
    rw [or_iff_left fun h => hskipped h.1, afterSign_of_other hspace hsign]
    by_cases hdigit : isDigit 16 a = true <;> simp [hdigit]

end Numeral
