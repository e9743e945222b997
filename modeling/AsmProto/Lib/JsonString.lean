import AsmProto.Lib.Numeral

set_option autoImplicit false

/-! # JSON string literals

What stands between the quotation marks of a JSON string, on the bytes of a UTF-8 text, and the
characters it denotes. Any character but a control character, the quotation mark and the backslash
stands for itself; a backslash starts an escape of two or six bytes, which denotes one character, and
two escapes of UTF-16 surrogates together denote one beyond 16 bits.

An escape is longer than the character it denotes. So a literal is the text it denotes, byte for byte,
exactly when there is no backslash in it (`Denotes.eq_utf8_iff`). -/

namespace JsonString

open Numeral

/-- The UTF-8 bytes of a text. -/
def utf8 (text : List Char) : List UInt8 := text.flatMap String.utf8EncodeChar

def quotationMark : UInt8 := 0x22

def backslash : UInt8 := 0x5c

/-- The letter of a two-byte escape and the code of the character it denotes: quotation mark,
    backslash, slash, backspace, form feed, line feed, carriage return and tab. -/
def shortEscapes : List (UInt8 × ℕ) :=
  [(0x22, 0x22), (0x5c, 0x5c), (0x2f, 0x2f), (0x62, 0x08), (0x66, 0x0c), (0x6e, 0x0a), (0x72, 0x0d),
   (0x74, 0x09)]

/-- The four digits of a `\u` escape. -/
structure IsHex4 (digits : List UInt8) : Prop where
  length : digits.length = 4
  digits : ∀ c ∈ digits, isDigit 16 c = true

/-- `\u` and its digits. -/
def unicodeEscape (digits : List UInt8) : List UInt8 := backslash :: 0x75 :: digits

/-- The literal between the quotation marks denotes the text. -/
inductive Denotes : List UInt8 → List Char → Prop where
  | nil : Denotes [] []
  | unescaped {c : Char} {literal : List UInt8} {text : List Char} (hcontrol : 0x20 ≤ c.toNat)
      (hquotationMark : c.toNat ≠ 0x22) (hbackslash : c.toNat ≠ 0x5c) (h : Denotes literal text) :
      Denotes (String.utf8EncodeChar c ++ literal) (c :: text)
  | short {c : Char} {letter : UInt8} {literal : List UInt8} {text : List Char}
      (hescape : (letter, c.toNat) ∈ shortEscapes) (h : Denotes literal text) :
      Denotes (backslash :: letter :: literal) (c :: text)
  | unicode {c : Char} {digits literal : List UInt8} {text : List Char} (hdigits : IsHex4 digits)
      (hcode : c.toNat = value 16 digits) (h : Denotes literal text) :
      Denotes (unicodeEscape digits ++ literal) (c :: text)
  | surrogates {c : Char} {high low literal : List UInt8} {text : List Char} (hhigh : IsHex4 high)
      (hlow : IsHex4 low) (hlead : 0xd800 ≤ value 16 high ∧ value 16 high < 0xdc00)
      (htrail : 0xdc00 ≤ value 16 low ∧ value 16 low < 0xe000)
      (hcode : c.toNat
        = 0x10000 + (value 16 high - 0xd800) * 0x400 + (value 16 low - 0xdc00))
      (h : Denotes literal text) :
      Denotes (unicodeEscape high ++ (unicodeEscape low ++ literal)) (c :: text)

/-! ## UTF-8 -/

theorem utf8_cons (c : Char) (text : List Char) :
    utf8 (c :: text) = String.utf8EncodeChar c ++ utf8 text := List.flatMap_cons

/-- A byte below 0x80 is a character of its own. -/
theorem toNat_of_mem_utf8EncodeChar {c : Char} {b : UInt8} (h : b ∈ String.utf8EncodeChar c) :
    b.toNat = c.toNat ∨ 0x80 ≤ b.toNat := by
  unfold String.utf8EncodeChar at h
  simp only [Char.toNat] at h ⊢
  split at h
  · left
    rw [List.mem_singleton.1 h, UInt8.toNat_ofNat']
    omega
  · right
    split at h
    · simp only [List.mem_cons, List.not_mem_nil, or_false] at h
      rcases h with rfl | rfl <;> simp only [UInt8.toNat_ofNat'] <;> omega
    · split at h
      · simp only [List.mem_cons, List.not_mem_nil, or_false] at h
        rcases h with rfl | rfl | rfl <;> simp only [UInt8.toNat_ofNat'] <;> omega
      · simp only [List.mem_cons, List.not_mem_nil, or_false] at h
        rcases h with rfl | rfl | rfl | rfl <;> simp only [UInt8.toNat_ofNat'] <;> omega

theorem utf8EncodeChar_length_le (c : Char) : (String.utf8EncodeChar c).length ≤ 4 := by
  rw [String.length_utf8EncodeChar]
  exact c.utf8Size_le_four

theorem utf8EncodeChar_length_le_three {c : Char} (h : c.toNat < 0x10000) :
    (String.utf8EncodeChar c).length ≤ 3 := by
  unfold String.utf8EncodeChar
  simp only [Char.toNat] at h
  dsimp only
  split
  · simp
  · split
    · simp
    · rw [if_pos (by omega)]
      simp

theorem utf8EncodeChar_length_of_ascii {c : Char} (h : c.toNat < 0x80) :
    (String.utf8EncodeChar c).length = 1 := by
  unfold String.utf8EncodeChar
  simp only [Char.toNat] at h
  rw [if_pos (by omega)]
  rfl

/-! ## Escapes -/

theorem IsHex4.value_lt {digits : List UInt8} (h : IsHex4 digits) : value 16 digits < 0x10000 := by
  have hlt := Numeral.value_lt h.digits
  rw [h.length] at hlt
  exact hlt

theorem shortEscapes_bounds : ∀ escape ∈ shortEscapes, 0x20 ≤ escape.1.toNat ∧ escape.2 < 0x80 := by
  decide

/-- An ASCII character occurs in the bytes of no other one. -/
theorem not_mem_utf8EncodeChar {c : Char} {b : UInt8} (hne : c.toNat ≠ b.toNat) (hb : b.toNat < 0x80) :
    b ∉ String.utf8EncodeChar c := by
  intro hmem
  rcases toNat_of_mem_utf8EncodeChar hmem with heq | hlarge
  · exact hne heq.symm
  · omega

namespace Denotes

variable {literal : List UInt8} {text : List Char}

/-- A literal is at least as long as its text, and longer when there is an escape in it. -/
theorem length_utf8_le (h : Denotes literal text) :
    (utf8 text).length ≤ literal.length ∧
      (backslash ∈ literal → (utf8 text).length < literal.length) := by
  induction h with
  | nil => exact ⟨le_refl _, fun hmem => absurd hmem (by simp)⟩
  | unescaped hcontrol hquotationMark hbackslash h ih =>
      rw [utf8_cons, List.length_append, List.length_append]
      refine ⟨Nat.add_le_add_left ih.1 _, fun hmem => Nat.add_lt_add_left (ih.2 ?_) _⟩
      exact (List.mem_append.1 hmem).resolve_left
        (not_mem_utf8EncodeChar hbackslash (by decide))
  | short hescape h ih =>
      have hone := utf8EncodeChar_length_of_ascii (shortEscapes_bounds _ hescape).2
      rw [utf8_cons, List.length_append, hone, List.length_cons, List.length_cons]
      omega
  | unicode hdigits hcode h ih =>
      have hthree := utf8EncodeChar_length_le_three (hcode.trans_lt hdigits.value_lt)
      rw [utf8_cons, List.length_append, List.length_append, unicodeEscape, List.length_cons,
        List.length_cons, hdigits.length]
      omega
  | @surrogates c _ _ _ _ hhigh hlow hlead htrail hcode h ih =>
      have hfour := utf8EncodeChar_length_le c
      rw [utf8_cons, List.length_append, List.length_append, List.length_append, unicodeEscape,
        unicodeEscape, List.length_cons, List.length_cons, List.length_cons, List.length_cons,
        hhigh.length, hlow.length]
      omega

/-- Without escapes every character stands for itself. -/
theorem eq_utf8_of_not_mem (h : Denotes literal text) (hbackslash : backslash ∉ literal) :
    literal = utf8 text := by
  induction h with
  | nil => rfl
  | unescaped hcontrol hquotationMark hchar h ih =>
      rw [utf8_cons, ← ih fun hmem => hbackslash (List.mem_append_right _ hmem)]
  | short hescape h ih => exact absurd List.mem_cons_self hbackslash
  | unicode hdigits hcode h ih => exact absurd List.mem_cons_self hbackslash
  | surrogates hhigh hlow hlead htrail hcode h ih => exact absurd List.mem_cons_self hbackslash

/-- **A literal is its own text exactly when there is no escape in it.** -/
theorem eq_utf8_iff (h : Denotes literal text) : literal = utf8 text ↔ backslash ∉ literal := by
  refine ⟨fun heq hmem => ?_, h.eq_utf8_of_not_mem⟩
  have hlt := h.length_utf8_le.2 hmem
  rw [← heq] at hlt
  exact lt_irrefl _ hlt

/-- There are no control characters in a literal. -/
theorem not_control_of_mem (h : Denotes literal text) : ∀ b ∈ literal, 0x20 ≤ b.toNat := by
  have hhex : ∀ {digits : List UInt8}, IsHex4 digits → ∀ b ∈ unicodeEscape digits, 0x20 ≤ b.toNat := by
    intro digits hdigits
    rw [unicodeEscape, List.forall_mem_cons, List.forall_mem_cons]
    exact ⟨by decide, by decide, fun b hb => (show 0x20 ≤ 48 by decide).trans
      (le_toNat_of_isDigit (hdigits.digits b hb))⟩
  induction h with
  | nil => simp
  | unescaped hcontrol hquotationMark hbackslash h ih =>
      intro b hb
      rcases List.mem_append.1 hb with hchar | hrest
      · rcases toNat_of_mem_utf8EncodeChar hchar with heq | hlarge
        · rw [heq]
          exact hcontrol
        · omega
      · exact ih b hrest
  | short hescape h ih =>
      rw [List.forall_mem_cons, List.forall_mem_cons]
      exact ⟨by decide, (shortEscapes_bounds _ hescape).1, ih⟩
  | unicode hdigits hcode h ih =>
      rw [List.forall_mem_append]
      exact ⟨hhex hdigits, ih⟩
  | surrogates hhigh hlow hlead htrail hcode h ih =>
      rw [List.forall_mem_append, List.forall_mem_append]
      exact ⟨hhex hhigh, hhex hlow, ih⟩

/-- A quotation mark has to be escaped. -/
theorem quotationMark_not_mem (h : Denotes literal text) (hbackslash : backslash ∉ literal) :
    quotationMark ∉ literal := by
  induction h with
  | nil => simp
  | unescaped hcontrol hquotationMark hchar h ih =>
      rw [List.mem_append, not_or] at hbackslash ⊢
      exact ⟨not_mem_utf8EncodeChar hquotationMark (by decide), ih hbackslash.2⟩
  | short hescape h ih => exact absurd List.mem_cons_self hbackslash
  | unicode hdigits hcode h ih => exact absurd List.mem_cons_self hbackslash
  | surrogates hhigh hlow hlead htrail hcode h ih => exact absurd List.mem_cons_self hbackslash

end Denotes

/-- A text that needs no escapes is a literal for itself. -/
theorem denotes_utf8 {text : List Char}
    (h : ∀ c ∈ text, 0x20 ≤ c.toNat ∧ c.toNat ≠ 0x22 ∧ c.toNat ≠ 0x5c) : Denotes (utf8 text) text := by
  induction text with
  | nil => exact .nil
  | cons c text ih =>
      rw [List.forall_mem_cons] at h
      rw [utf8_cons]
      exact .unescaped h.1.1 h.1.2.1 h.1.2.2 (ih h.2)

end JsonString
