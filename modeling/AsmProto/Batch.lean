import AsmProto.Common
import AsmProto.Lib.FixedWidth

set_option autoImplicit false

/-! # Batches

The standard's batch is an 8-byte header (item count, item length) followed by the items. The source
writes its batch codec three times: `encode_u32_batch` / `decode_u32_batch` in `event_log.cpp` and
again in `le_key.cpp`, and `encode_load_request` / `decode_load_request`. The three differ in the
item, its length and the error texts, so they are one pair of functions here, applied to those
values where the source has its copy. -/

namespace AsmProto

/-- The texts a batch decoder throws with. -/
structure BatchErrors where
  tooShort : String
  itemLength : String
  sizeMismatch : String

/-- The header is written first, then every item by `append_item`. -/
def encodeBatch {α : Type} (itemLength : UInt32) (appendItem : ByteBuffer → α → ByteBuffer)
    (items : List α) : ByteBuffer :=
  items.foldl appendItem (appendBeU32 (appendBeU32 [] (UInt32.ofNat items.length)) itemLength)

def decodeBatch {α : Type} (itemLength : UInt32)
    (decodeItem : List UInt8 → ℕ → Except StdException α) (errors : BatchErrors)
    (bytes : List UInt8) : Except StdException (List α) :=
  if bytes.length < 8 then
    .error (.asmError errors.tooShort)
  else do
    let count ← decodeBeU32 bytes 0
    let announced ← decodeBeU32 bytes 4
    if announced ≠ itemLength then
      .error (.asmError errors.itemLength)
    else if bytes.length ≠ 8 + count.toNat * itemLength.toNat then
      .error (.asmError errors.sizeMismatch)
    else
      (List.range count.toNat).mapM (fun i => decodeItem bytes (8 + i * itemLength.toNat))

/-! ## Integer items -/

/-- `append_be_u32` and `decode_be_u32` as an item format. -/
def u32Item : FixedWidth StdException UInt32 where
  width := 4
  bytes := u32Bytes
  read := decodeBeU32
  bytes_length := u32Bytes_length
  bytes_surjective := fun slice h => ⟨UInt32.ofNat (beValue slice), by
    have hlt := beValue_lt slice
    rw [h] at hlt
    apply beValue_inj (by rw [u32Bytes_length, h])
    rw [beValue_u32Bytes, UInt32.toNat_ofNat', Nat.mod_eq_of_lt (by omega)]⟩
  read_eq_ok_iff := fun _ _ _ => decodeBeU32_eq_ok_iff

/-- `append_be_u64` and `decode_be_u64` as an item format. -/
def u64Item : FixedWidth StdException UInt64 where
  width := 8
  bytes := u64Bytes
  read := decodeBeU64
  bytes_length := u64Bytes_length
  bytes_surjective := fun slice h => ⟨UInt64.ofNat (beValue slice), by
    have hlt := beValue_lt slice
    rw [h] at hlt
    apply beValue_inj (by rw [u64Bytes_length, h])
    rw [beValue_u64Bytes, UInt64.toNat_ofNat', Nat.mod_eq_of_lt (by omega)]⟩
  read_eq_ok_iff := fun _ _ _ => decodeBeU64_eq_ok_iff

@[simp] theorem u32Item_width : u32Item.width = 4 := rfl

@[simp] theorem u32Item_bytes (value : UInt32) : u32Item.bytes value = u32Bytes value := rfl

@[simp] theorem u64Item_width : u64Item.width = 8 := rfl

@[simp] theorem u64Item_bytes (value : UInt64) : u64Item.bytes value = u64Bytes value := rfl

/-- Four bytes inside a buffer are always read. -/
theorem returns_decodeBeU32_iff {bytes : List UInt8} {offset : ℕ} :
    (decodeBeU32 bytes offset).Returns ↔ offset + 4 ≤ bytes.length := by
  refine ⟨fun ⟨value, hvalue⟩ => ?_, fun h => u32Item.returns_read h⟩
  by_contra hshort
  rw [decodeBeU32_of_short (by omega)] at hvalue
  exact nomatch hvalue

/-! ## The batch layout -/

section Layout

variable {α : Type} (format : FixedWidth StdException α) (itemLength : UInt32)

/-- Header and items of a batch. -/
def batchBytes (items : List α) : ByteBuffer :=
  u32Bytes (UInt32.ofNat items.length) ++ u32Bytes itemLength ++ format.bytesMany items

theorem foldl_append_bytes {appendItem : ByteBuffer → α → ByteBuffer}
    (happend : ∀ out item, appendItem out item = out ++ format.bytes item)
    (items : List α) (out : ByteBuffer) :
    items.foldl appendItem out = out ++ format.bytesMany items := by
  induction items generalizing out with
  | nil => simp
  | cons item items ih => rw [List.foldl_cons, ih, happend, format.bytesMany_cons, List.append_assoc]

theorem encodeBatch_eq {appendItem : ByteBuffer → α → ByteBuffer}
    (happend : ∀ out item, appendItem out item = out ++ format.bytes item) (items : List α) :
    encodeBatch itemLength appendItem items = batchBytes format itemLength items := by
  rw [encodeBatch, foldl_append_bytes format happend, appendBeU32_eq, appendBeU32_eq, batchBytes,
    List.nil_append]

theorem batchBytes_length (items : List α) :
    (batchBytes format itemLength items).length = 8 + items.length * format.width := by
  simp [batchBytes]
  omega

/-- **What a batch decoder accepts**: exactly the bytes its encoder writes for fewer than 2³²
    items. -/
theorem decodeBatch_eq_ok_iff (hwidth : format.width = itemLength.toNat) {errors : BatchErrors}
    {bytes : List UInt8} {items : List α} :
    decodeBatch itemLength format.read errors bytes = .ok items ↔
      items.length < 2 ^ 32 ∧ bytes = batchBytes format itemLength items := by
  unfold decodeBatch
  split
  · next hshort =>
      refine ⟨fun hc => (nomatch hc), ?_⟩
      intro hbytes
      rcases hbytes with ⟨-, rfl⟩
      rw [batchBytes_length] at hshort
      omega
  · next hlong =>
      simp only [Except.bind_eq_ok_iff, decodeBeU32_eq_ok_iff, List.drop_zero]
      constructor
      · -- header and items were cut out of the bytes one behind the other
        intro hparts
        rcases hparts with ⟨count, hcount, announced, hannounced, h⟩
        split at h
        · exact absurd h (by simp)
        · next hitem =>
            split at h
            · exact absurd h (by simp)
            · next hsize =>
                rw [not_not] at hitem hsize
                subst hitem
                rw [← hwidth, format.mapM_range_read, format.readMany_eq_ok_iff] at h
                rw [← hwidth] at hsize
                obtain ⟨hlen, hitems⟩ := h
                have hrest : (bytes.drop 8).take (count.toNat * format.width) = bytes.drop 8 := by
                  apply List.take_of_length_le
                  simp only [List.length_drop]
                  omega
                have hcast : UInt32.ofNat items.length = count := by
                  rw [hlen, UInt32.ofNat_toNat]
                refine ⟨by rw [hlen]; exact count.toNat_lt, ?_⟩
                rw [batchBytes, hcast, ← hitems, hrest, ← hcount, ← hannounced, ← List.take_add,
                  List.take_append_drop]
      · intro hbytes
        rcases hbytes with ⟨hlen, rfl⟩
        have hcount : (UInt32.ofNat items.length).toNat = items.length := by
          rw [UInt32.toNat_ofNat', Nat.mod_eq_of_lt hlen]
        refine ⟨UInt32.ofNat items.length, ?_, itemLength, ?_, ?_⟩
        · rw [batchBytes, List.append_assoc, List.take_left' (u32Bytes_length _)]
        · rw [batchBytes, List.append_assoc, List.drop_left' (u32Bytes_length _),
            List.take_left' (u32Bytes_length _)]
        · rw [if_neg (by simp), if_neg (by rw [batchBytes_length, hcount, hwidth]; simp), ← hwidth,
            format.mapM_range_read, format.readMany_eq_ok_iff, hcount]
          refine ⟨rfl, ?_⟩
          rw [batchBytes, List.drop_left' (by simp), List.take_of_length_le (by simp)]

/-- The layout check alone decides acceptance: no item read fails afterwards. -/
theorem returns_decodeBatch_iff (hwidth : format.width = itemLength.toNat) {errors : BatchErrors}
    {bytes : List UInt8} :
    (decodeBatch itemLength format.read errors bytes).Returns ↔
      8 ≤ bytes.length ∧ beValue ((bytes.drop 4).take 4) = itemLength.toNat ∧
        bytes.length = 8 + beValue (bytes.take 4) * itemLength.toNat := by
  constructor
  · intro hreturns
    rcases hreturns with ⟨items, hitems⟩
    obtain ⟨hlen, rfl⟩ := (decodeBatch_eq_ok_iff format itemLength hwidth).1 hitems
    have hcount : beValue ((batchBytes format itemLength items).take 4) = items.length := by
      rw [batchBytes, List.append_assoc, List.take_left' (u32Bytes_length _), beValue_u32Bytes,
        UInt32.toNat_ofNat', Nat.mod_eq_of_lt hlen]
    refine ⟨by rw [batchBytes_length]; omega, ?_, by rw [batchBytes_length, hcount, hwidth]⟩
    rw [batchBytes, List.append_assoc, List.drop_left' (u32Bytes_length _),
      List.take_left' (u32Bytes_length _), beValue_u32Bytes]
  · intro hparts
    rcases hparts with ⟨hlong, hitem, hsize⟩
    obtain ⟨count, hcount⟩ := returns_decodeBeU32_iff.2 (show 0 + 4 ≤ bytes.length by omega)
    obtain ⟨announced, hannounced⟩ := returns_decodeBeU32_iff.2 (show 4 + 4 ≤ bytes.length by omega)
    have hcountValue : beValue (bytes.take 4) = count.toNat := by
      rw [decodeBeU32_eq_ok_iff, List.drop_zero] at hcount
      rw [hcount, beValue_u32Bytes]
    have hannouncedEq : announced = itemLength := by
      rw [decodeBeU32_eq_ok_iff] at hannounced
      rw [hannounced, beValue_u32Bytes] at hitem
      exact UInt32.toNat_inj.1 hitem
    have hread : (format.readMany bytes 8 count.toNat).Returns := by
      apply format.returns_readMany
      rw [hwidth, hsize, hcountValue]
    obtain ⟨items, hitems⟩ := hread
    refine ⟨items, ?_⟩
    rw [decodeBatch, if_neg (by omega), hcount, Except.ok_bind, hannounced, Except.ok_bind,
      if_neg (by simpa using hannouncedEq), if_neg (by rw [← hcountValue]; simpa using hsize),
      ← hwidth, format.mapM_range_read, hitems]

/-- A batch decoder throws on the header only: once the size is right, every item is read. -/
theorem decodeBatch_error (hwidth : format.width = itemLength.toNat) {errors : BatchErrors}
    {bytes : List UInt8} {ex : StdException}
    (h : decodeBatch itemLength format.read errors bytes = .error ex) :
    ex ∈ [.asmError errors.tooShort, .asmError errors.itemLength, .asmError errors.sizeMismatch] := by
  unfold decodeBatch at h
  split at h
  · obtain rfl := Except.error.inj h
    simp
  · next hlong =>
      obtain ⟨count, hcount⟩ := returns_decodeBeU32_iff.2 (show 0 + 4 ≤ bytes.length by omega)
      obtain ⟨announced, hannounced⟩ :=
        returns_decodeBeU32_iff.2 (show 4 + 4 ≤ bytes.length by omega)
      rw [hcount, Except.ok_bind, hannounced, Except.ok_bind] at h
      split at h
      · obtain rfl := Except.error.inj h
        simp
      · split at h
        · obtain rfl := Except.error.inj h
          simp
        · next hsize =>
            have hread : (format.readMany bytes 8 count.toNat).Returns := by
              apply format.returns_readMany
              rw [hwidth]
              omega
            obtain ⟨items, hitems⟩ := hread
            rw [← hwidth, format.mapM_range_read, hitems] at h
            exact nomatch h

end Layout

end AsmProto
