import AsmProto.LeKey.Payload

set_option autoImplicit false

/-! # The batch payloads and their images

The three batch codecs of the source accept exactly what they write. -/

namespace AsmProto

/-- A batch codec whose items take `itemLength` bytes and are read by `readItem`, which throws
    `truncated` past the end of the bytes. -/
structure ExactBatch {α : Type} (encode : List α → ByteBuffer)
    (decode : List UInt8 → Except StdException (List α))
    (readItem : List UInt8 → ℕ → Except StdException α) (itemLength : ℕ)
    (truncated : StdException) : Prop where
  roundTrip : ∀ items : List α, items.length < 2 ^ 32 → decode (encode items) = .ok items
  image : ∀ bytes items, decode bytes = .ok items → encode items = bytes
  /-- Once the size is that of `count` items, each of them is read. -/
  readsInside : ∀ (bytes : List UInt8) (count : ℕ), bytes.length = 8 + count * itemLength →
    ∀ i < count, (readItem bytes (8 + i * itemLength)).Returns
  neverTruncated : ∀ bytes, decode bytes ≠ .error truncated

section Codec

variable {α : Type} (format : FixedWidth StdException α) (itemLength : UInt32)

/-- **A batch of fixed-width items is exact**, if a truncated item has an error of its own. -/
theorem exactBatch_of_format (hwidth : format.width = itemLength.toNat) {errors : BatchErrors}
    {appendItem : ByteBuffer → α → ByteBuffer}
    (happend : ∀ out item, appendItem out item = out ++ format.bytes item)
    {truncated : StdException} (htruncated : truncated ∉
      [.asmError errors.tooShort, .asmError errors.itemLength, .asmError errors.sizeMismatch]) :
    ExactBatch (encodeBatch itemLength appendItem) (decodeBatch itemLength format.read errors)
      format.read itemLength.toNat truncated where
  roundTrip := by
    intro items hlen
    rw [encodeBatch_eq format itemLength happend, decodeBatch_eq_ok_iff format itemLength hwidth]
    exact ⟨hlen, rfl⟩
  image := by
    intro bytes items hdecode
    rw [encodeBatch_eq format itemLength happend]
    exact ((decodeBatch_eq_ok_iff format itemLength hwidth).1 hdecode).2.symm
  readsInside := by
    intro bytes count hlen i hi
    apply format.returns_read
    have hle : (i + 1) * itemLength.toNat ≤ count * itemLength.toNat :=
      Nat.mul_le_mul_right _ hi
    rw [Nat.add_mul, Nat.one_mul] at hle
    omega
  neverTruncated := by
    intro bytes hdecode
    exact htruncated (decodeBatch_error format itemLength hwidth hdecode)

end Codec

/-- **The batch codecs accept exactly their own image**: `LEKeyBatch` and both copies of the id
    batch, which agree with each other. -/
theorem batch_codecs_exact :
    ExactBatch LeKeyPayloadCodec.encodeLoadRequest LeKeyPayloadCodec.decodeLoadRequest
      decodeRecord 32 (.asmError "LE key batch item truncated") ∧
    ExactBatch GetEventListPayloadCodec.encodeU32Batch GetEventListPayloadCodec.decodeU32Batch
      decodeBeU32 4 (.asmError "unexpected end of buffer while reading u32") ∧
    ExactBatch LeKeyPayloadCodec.encodeU32Batch LeKeyPayloadCodec.decodeU32Batch
      decodeBeU32 4 (.asmError "unexpected end of buffer while reading u32") ∧
    ∀ bytes ids, GetEventListPayloadCodec.decodeU32Batch bytes = .ok ids ↔
      LeKeyPayloadCodec.decodeU32Batch bytes = .ok ids := by
  refine ⟨?_, ?_, ?_, ?_⟩
  · exact exactBatch_of_format recordItem 32 rfl appendRecord_eq (by decide)
  · exact exactBatch_of_format u32Item 4 rfl appendBeU32_eq (by decide)
  · exact exactBatch_of_format u32Item 4 rfl appendBeU32_eq (by decide)
  · intro bytes ids
    exact (decodeBatch_eq_ok_iff u32Item 4 rfl).trans (decodeBatch_eq_ok_iff u32Item 4 rfl).symm

end AsmProto
