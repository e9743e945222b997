import Mathlib.Tactic

set_option autoImplicit false

/-! # Big-endian bytes of naturals

`bigEndian w n` writes `n` on `w` bytes, most significant first; `beValue` reads a byte list back as
a natural. The two are inverse on `w` bytes, in both directions, so a fixed-width field that was
accepted re-encodes to itself.

The second half ties the positional reading to the shift-and-or arithmetic fixed-width machine words
are assembled with: a word built from its bytes by shifts has the bytes' `beValue`. -/

/-- The `w` big-endian bytes of `n`; digits above `256 ^ w` are dropped. -/
def bigEndian : ℕ → ℕ → List UInt8
  | 0, _ => []
  | w + 1, n => UInt8.ofNat (n / 256 ^ w) :: bigEndian w n

/-- The natural a big-endian byte list denotes. -/
def beValue : List UInt8 → ℕ
  | [] => 0
  | b :: bs => b.toNat * 256 ^ bs.length + beValue bs

@[simp] theorem bigEndian_length (w n : ℕ) : (bigEndian w n).length = w := by
  induction w with
  | zero => rfl
  | succ w ih => simp [bigEndian, ih]

theorem beValue_lt (bs : List UInt8) : beValue bs < 256 ^ bs.length := by
  induction bs with
  | nil => simp [beValue]
  | cons b bs ih =>
      have hb : b.toNat < 256 := b.toNat_lt
      have hstep : (b.toNat + 1) * 256 ^ bs.length ≤ 256 * 256 ^ bs.length :=
        Nat.mul_le_mul_right _ hb
      rw [Nat.add_mul] at hstep
      rw [beValue, List.length_cons, pow_succ']
      omega

/-- Dropping a multiple of `256 ^ w` does not change the `w` low bytes. -/
theorem bigEndian_add_mul (w n k : ℕ) : bigEndian w (k * 256 ^ w + n) = bigEndian w n := by
  induction w generalizing k with
  | zero => rfl
  | succ w ih =>
      have hpow : k * 256 ^ (w + 1) + n = k * 256 * 256 ^ w + n := by rw [pow_succ']; ring
      have hdiv : (k * 256 * 256 ^ w + n) / 256 ^ w = k * 256 + n / 256 ^ w := by
        rw [Nat.add_comm, Nat.add_mul_div_right _ _ (by positivity), Nat.add_comm]
      rw [bigEndian, bigEndian, hpow, hdiv, ih]
      congr 1
      apply UInt8.toNat_inj.1
      simp only [UInt8.toNat_ofNat']
      omega

/-- Reading any byte list and writing it back on as many bytes gives the list. -/
theorem bigEndian_beValue (bs : List UInt8) : bigEndian bs.length (beValue bs) = bs := by
  induction bs with
  | nil => rfl
  | cons b bs ih =>
      have hlt := beValue_lt bs
      rw [List.length_cons, bigEndian, beValue, bigEndian_add_mul, ih]
      congr 1
      rw [Nat.add_comm, Nat.add_mul_div_right _ _ (by positivity), Nat.div_eq_of_lt hlt]
      simp

/-- Writing a number that fits on `w` bytes and reading it back gives the number. -/
theorem beValue_bigEndian {w n : ℕ} (h : n < 256 ^ w) : beValue (bigEndian w n) = n := by
  induction w generalizing n with
  | zero =>
      have : n = 0 := by simpa using h
      simp [bigEndian, beValue, this]
  | succ w ih =>
      have hlow : bigEndian w n = bigEndian w (n % 256 ^ w) := by
        conv_lhs => rw [← Nat.div_add_mod' n (256 ^ w)]
        exact bigEndian_add_mul w _ _
      have hhead : n / 256 ^ w < 256 := by
        rw [Nat.div_lt_iff_lt_mul (by positivity), ← pow_succ']
        exact h
      rw [bigEndian, beValue, bigEndian_length, hlow, ih (Nat.mod_lt _ (by positivity)),
        UInt8.toNat_ofNat', Nat.mod_eq_of_lt hhead]
      exact Nat.div_add_mod' n (256 ^ w)

theorem beValue_inj {as bs : List UInt8} (hlen : as.length = bs.length)
    (h : beValue as = beValue bs) : as = bs := by
  rw [← bigEndian_beValue as, ← bigEndian_beValue bs, hlen, h]

/-! ## Words assembled by shifts -/

/-- The byte of a word at bit offset `8 * k`, cut out by shift and mask. -/
theorem shiftRight_and_byte (n s : ℕ) : (n >>> s &&& 255) = n / 2 ^ s % 256 := by
  rw [Nat.shiftRight_eq_div_pow]
  exact Nat.and_two_pow_sub_one_eq_mod _ 8

/-- A byte shifted inside a 32-bit word does not overflow. -/
theorem shiftLeft_byte_mod (b : UInt8) {s : ℕ} (hs : s ≤ 24) :
    b.toNat <<< s % 2 ^ 32 = b.toNat <<< s := by
  have hb : b.toNat < 256 := b.toNat_lt
  apply Nat.mod_eq_of_lt
  rw [Nat.shiftLeft_eq]
  calc b.toNat * 2 ^ s ≤ b.toNat * 2 ^ 24 :=
        Nat.mul_le_mul_left _ (Nat.pow_le_pow_right (by decide) hs)
    _ < 2 ^ 32 := by omega

/-- The byte a shift and a mask cut out of a 32-bit word. -/
theorem UInt32.toUInt8_shiftRight_and (value s : UInt32) (hs : s.toNat < 32) :
    (value >>> s &&& 0xff).toUInt8 = UInt8.ofNat (value.toNat / 2 ^ s.toNat) := by
  apply UInt8.toNat_inj.1
  rw [UInt32.toNat_toUInt8, UInt32.toNat_and, UInt32.toNat_shiftRight, Nat.mod_eq_of_lt hs,
    UInt8.toNat_ofNat']
  show (value.toNat >>> s.toNat &&& 255) % 2 ^ 8 = _
  rw [shiftRight_and_byte]
  omega

theorem UInt32.toUInt8_and_mask (value : UInt32) : (value &&& 0xff).toUInt8 = UInt8.ofNat value.toNat := by
  simpa using UInt32.toUInt8_shiftRight_and value 0 (by decide)

/-- The byte a shift and a mask cut out of a 64-bit word. -/
theorem UInt64.toUInt8_shiftRight_and (value s : UInt64) (hs : s.toNat < 64) :
    (value >>> s &&& 0xff).toUInt8 = UInt8.ofNat (value.toNat / 2 ^ s.toNat) := by
  apply UInt8.toNat_inj.1
  rw [UInt64.toNat_toUInt8, UInt64.toNat_and, UInt64.toNat_shiftRight, Nat.mod_eq_of_lt hs,
    UInt8.toNat_ofNat']
  show (value.toNat >>> s.toNat &&& 255) % 2 ^ 8 = _
  rw [shiftRight_and_byte]
  omega

/-- Or-ing a low part below a shifted high part is addition. -/
theorem shiftLeft_or_low {low s : ℕ} (high : ℕ) (h : low < 2 ^ s) :
    (high <<< s ||| low) = high * 2 ^ s + low := by
  rw [← Nat.shiftLeft_add_eq_or_of_lt h, Nat.shiftLeft_eq]

/-- Four bytes or-ed together at their bit offsets, as a positional value. -/
theorem or_shiftLeft_four (a b c d : UInt8) :
    (a.toNat <<< 24 ||| b.toNat <<< 16 ||| c.toNat <<< 8 ||| d.toNat) = beValue [a, b, c, d] := by
  have hb : b.toNat < 256 := b.toNat_lt
  have hc : c.toNat < 256 := c.toNat_lt
  have hd : d.toNat < 2 ^ 8 := d.toNat_lt
  have hcd : (c.toNat <<< 8 ||| d.toNat) = c.toNat * 2 ^ 8 + d.toNat := shiftLeft_or_low _ hd
  have hbcd : (b.toNat <<< 16 ||| (c.toNat <<< 8 ||| d.toNat))
      = b.toNat * 2 ^ 16 + (c.toNat * 2 ^ 8 + d.toNat) := by
    rw [hcd]
    exact shiftLeft_or_low _ (by omega)
  rw [Nat.or_assoc, Nat.or_assoc, hbcd, shiftLeft_or_low _ (by omega)]
  simp only [beValue, List.length_cons, List.length_nil]
  ring

/-- Three bytes or-ed together at their bit offsets, as a positional value. -/
theorem or_shiftLeft_three (b c d : UInt8) :
    (b.toNat <<< 16 ||| c.toNat <<< 8 ||| d.toNat) = beValue [b, c, d] := by
  have h := or_shiftLeft_four 0 b c d
  simpa [beValue] using h

/-- One shift-and-or step of a 64-bit accumulator appends one base-256 digit. -/
theorem UInt64.shiftLeft_or_byte (acc : UInt64) (b : UInt8) (h : acc.toNat < 2 ^ 56) :
    (acc <<< 8 ||| b.toUInt64).toNat = acc.toNat * 256 + b.toNat := by
  have hb : b.toNat < 2 ^ 8 := b.toNat_lt
  have hshift : acc.toNat <<< 8 < 2 ^ 64 := by rw [Nat.shiftLeft_eq]; omega
  rw [UInt64.toNat_or, UInt64.toNat_shiftLeft, UInt8.toNat_toUInt64]
  simp only [UInt64.reduceToNat, Nat.reduceMod]
  rw [Nat.mod_eq_of_lt hshift]
  exact shiftLeft_or_low _ hb

/-- The shift-and-or loop over a byte list reads its positional value while it fits 64 bits. -/
theorem UInt64.foldl_shiftLeft_or (bs : List UInt8) (acc : UInt64)
    (h : acc.toNat * 256 ^ bs.length + beValue bs < 2 ^ 64) :
    (bs.foldl (fun (v : UInt64) b => v <<< 8 ||| b.toUInt64) acc).toNat
      = acc.toNat * 256 ^ bs.length + beValue bs := by
  induction bs generalizing acc with
  | nil => simp [beValue]
  | cons b bs ih =>
      have hone : 1 ≤ 256 ^ bs.length := Nat.one_le_pow _ _ (by decide)
      have hsplit : acc.toNat * 256 ^ (b :: bs).length + beValue (b :: bs)
          = (acc.toNat * 256 + b.toNat) * 256 ^ bs.length + beValue bs := by
        simp only [List.length_cons, beValue, pow_succ]
        ring
      have hacc : acc.toNat < 2 ^ 56 := by
        have := Nat.le_mul_of_pos_right (acc.toNat * 256 + b.toNat) hone
        omega
      have hstep := UInt64.shiftLeft_or_byte acc b hacc
      rw [List.foldl_cons, hsplit, ih _ (by rw [hstep]; omega), hstep]
