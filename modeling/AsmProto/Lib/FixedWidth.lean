import AsmProto.Lib.Effect

set_option autoImplicit false

/-! # Fixed-width items in a byte list

A fixed-width format writes every value on the same number of bytes and reads it back from an offset
of a larger buffer. `FixedWidth` bundles the two functions with the law that ties them, so that a
sequence of items read one after the other is exactly the concatenation of their bytes
(`FixedWidth.readMany_eq_ok_iff`), whatever surrounds it. -/

/-- A format with `width` bytes an item: reading at an offset succeeds with `a` exactly when the
    item's own bytes stand there, and every `width` bytes are some item's. -/
structure FixedWidth (ε α : Type) where
  width : ℕ
  bytes : α → List UInt8
  read : List UInt8 → ℕ → Except ε α
  bytes_length : ∀ a, (bytes a).length = width
  bytes_surjective : ∀ slice : List UInt8, slice.length = width → ∃ a, bytes a = slice
  read_eq_ok_iff : ∀ (buffer : List UInt8) (offset : ℕ) (a : α),
    read buffer offset = .ok a ↔ (buffer.drop offset).take width = bytes a

namespace FixedWidth

variable {ε α : Type} (format : FixedWidth ε α)

/-- Reading inside the buffer never fails. -/
theorem returns_read {buffer : List UInt8} {offset : ℕ} (h : offset + format.width ≤ buffer.length) :
    (format.read buffer offset).Returns := by
  obtain ⟨a, ha⟩ := format.bytes_surjective ((buffer.drop offset).take format.width)
    (by simp only [List.length_take, List.length_drop]; omega)
  exact ⟨a, (format.read_eq_ok_iff buffer offset a).2 ha.symm⟩

/-- The bytes of a sequence of items. -/
def bytesMany (items : List α) : List UInt8 := items.flatMap format.bytes

@[simp] theorem bytesMany_nil : format.bytesMany [] = [] := rfl

@[simp] theorem bytesMany_cons (a : α) (items : List α) :
    format.bytesMany (a :: items) = format.bytes a ++ format.bytesMany items := rfl

@[simp] theorem bytesMany_length (items : List α) :
    (format.bytesMany items).length = items.length * format.width := by
  induction items with
  | nil => simp
  | cons a items ih =>
      rw [bytesMany_cons, List.length_append, format.bytes_length, ih, List.length_cons]
      ring

/-- Read `count` items one after the other, the first at `offset`. -/
def readMany (buffer : List UInt8) (offset : ℕ) : ℕ → Except ε (List α)
  | 0 => .ok []
  | count + 1 => do
      let head ← format.read buffer offset
      let tail ← readMany buffer (offset + format.width) count
      .ok (head :: tail)

/-- An index loop that reads item `i` at `offset + i * width` reads the sequence. -/
theorem mapM_range'_read (buffer : List UInt8) (offset start count : ℕ) :
    (List.range' start count).mapM (fun i => format.read buffer (offset + i * format.width))
      = format.readMany buffer (offset + start * format.width) count := by
  induction count generalizing start with
  | zero => rfl
  | succ count ih =>
      rw [List.range'_succ, List.mapM_cons, ih, readMany]
      have hnext : offset + (start + 1) * format.width
          = offset + start * format.width + format.width := by ring
      rw [hnext]
      rfl

theorem mapM_range_read (buffer : List UInt8) (offset count : ℕ) :
    (List.range count).mapM (fun i => format.read buffer (offset + i * format.width))
      = format.readMany buffer offset count := by
  rw [List.range_eq_range', format.mapM_range'_read]
  simp

/-- **A sequence is read exactly from the concatenation of its items' bytes.** -/
theorem readMany_eq_ok_iff {buffer : List UInt8} {offset count : ℕ} {items : List α} :
    format.readMany buffer offset count = .ok items ↔
      items.length = count ∧
        (buffer.drop offset).take (count * format.width) = format.bytesMany items := by
  induction count generalizing offset items with
  | zero =>
      simp only [readMany, Except.ok.injEq, Nat.zero_mul, List.take_zero]
      constructor
      · rintro rfl
        exact ⟨rfl, rfl⟩
      · intro hbytes
        rcases hbytes with ⟨hlen, -⟩
        exact (List.eq_nil_of_length_eq_zero hlen).symm
  | succ count ih =>
      have hsplit : (buffer.drop offset).take ((count + 1) * format.width)
          = (buffer.drop offset).take format.width
            ++ (buffer.drop (offset + format.width)).take (count * format.width) := by
        rw [Nat.add_mul, Nat.one_mul, Nat.add_comm, List.take_add, List.drop_drop]
      simp only [readMany, Except.bind_eq_ok_iff, Except.ok.injEq]
      constructor
      · intro hparts
        rcases hparts with ⟨head, hhead, tail, htail, rfl⟩
        obtain ⟨hlen, hbytes⟩ := ih.1 htail
        exact ⟨by simp [hlen], by
          rw [hsplit, (format.read_eq_ok_iff _ _ _).1 hhead, hbytes, bytesMany_cons]⟩
      · intro hparts
        rcases hparts with ⟨hlen, hbytes⟩
        match items with
        | [] => exact absurd hlen (by simp)
        | head :: tail =>
            -- the first `width` bytes are full: otherwise the whole slice is too short
            have hfull : ((buffer.drop offset).take format.width).length = format.width := by
              have := congrArg List.length hbytes
              simp only [List.length_take, List.length_drop, bytesMany_length, hlen] at this ⊢
              have : format.width ≤ (count + 1) * format.width := by
                rw [Nat.add_mul, Nat.one_mul]; omega
              omega
            rw [hsplit, bytesMany_cons] at hbytes
            obtain ⟨hhead, htail⟩ := List.append_inj hbytes (by rw [hfull, format.bytes_length])
            refine ⟨head, (format.read_eq_ok_iff _ _ _).2 hhead, tail, ih.2 ⟨?_, htail⟩, rfl⟩
            simpa using hlen

theorem returns_readMany {buffer : List UInt8} {offset count : ℕ}
    (h : offset + count * format.width ≤ buffer.length) :
    (format.readMany buffer offset count).Returns := by
  induction count generalizing offset with
  | zero => exact ⟨[], rfl⟩
  | succ count ih =>
      rw [Nat.add_mul, Nat.one_mul] at h
      have hread : (format.read buffer offset).Returns := format.returns_read (by omega)
      obtain ⟨head, hhead⟩ := hread
      obtain ⟨tail, htail⟩ := @ih (offset + format.width) (by omega)
      exact ⟨head :: tail, by simp [readMany, hhead, htail]⟩

end FixedWidth
