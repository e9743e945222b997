import AsmProto.EventLog

set_option autoImplicit false

/-! # LE key payloads

The records and payload codecs of `le_key.cpp`. A key record takes 32 bytes: id, key, expire time
and attribute data; `LEKeyBatch` is a batch of records and `LEKeyIDBatch` one of ids. -/

namespace AsmProto

structure LeKeyRecord where
  keyId : UInt32
  key : FixedBytes 16
  expireTime : UInt32
  attributeData : UInt64
deriving DecidableEq

/-- A record under an id, its other fields zero. -/
def blankKey (keyId : UInt32) : LeKeyRecord :=
  { keyId := keyId, key := .zero 16, expireTime := 0, attributeData := 0 }

def appendRecord (out : ByteBuffer) (key : LeKeyRecord) : ByteBuffer :=
  appendBeU64 (appendBeU32 (appendBeU32 out key.keyId ++ key.key.val) key.expireTime)
    key.attributeData

def decodeRecord (bytes : List UInt8) (offset : ℕ) : Except StdException LeKeyRecord :=
  if h : bytes.length < offset + 32 then
    .error (.asmError "LE key batch item truncated")
  else do
    let keyId ← decodeBeU32 bytes offset
    let key : FixedBytes 16 := ⟨(bytes.drop (offset + 4)).take 16, by simp; omega⟩
    let expireTime ← decodeBeU32 bytes (offset + 4 + 16)
    let attributeData ← decodeBeU64 bytes (offset + 4 + 16 + 4)
    .ok { keyId := keyId, key := key, expireTime := expireTime, attributeData := attributeData }

/-! ## Records as fixed-width items -/

/-- The 32 bytes of a record. -/
def recordBytes (key : LeKeyRecord) : ByteBuffer :=
  u32Bytes key.keyId ++ (key.key.val ++ (u32Bytes key.expireTime ++ u64Bytes key.attributeData))

theorem appendRecord_eq (out : ByteBuffer) (key : LeKeyRecord) :
    appendRecord out key = out ++ recordBytes key := by
  simp [appendRecord, recordBytes, appendBeU32_eq, appendBeU64_eq]

theorem recordBytes_length (key : LeKeyRecord) : (recordBytes key).length = 32 := by
  simp [recordBytes, key.key.property]

/-- A 32-byte slice is cut into its four fields. -/
theorem take_record (bytes : List UInt8) (offset : ℕ) :
    (bytes.drop offset).take 32
      = (bytes.drop offset).take 4 ++ ((bytes.drop (offset + 4)).take 16
        ++ ((bytes.drop (offset + 4 + 16)).take 4 ++ (bytes.drop (offset + 4 + 16 + 4)).take 8)) := by
  have hcut : ∀ m n k, (bytes.drop k).take (m + n)
      = (bytes.drop k).take m ++ (bytes.drop (k + m)).take n := by
    intro m n k
    rw [List.take_add, List.drop_drop]
  rw [show (32 : ℕ) = 4 + (16 + (4 + 8)) from rfl, hcut, hcut, hcut]

theorem decodeRecord_eq_ok_iff {bytes : List UInt8} {offset : ℕ} {key : LeKeyRecord} :
    decodeRecord bytes offset = .ok key ↔ (bytes.drop offset).take 32 = recordBytes key := by
  unfold decodeRecord
  split
  · next h =>
      refine ⟨fun hc => (nomatch hc), fun heq => ?_⟩
      have := congrArg List.length heq
      rw [recordBytes_length] at this
      simp only [List.length_take, List.length_drop] at this
      omega
  · next h =>
      simp only [Except.bind_eq_ok_iff, decodeBeU32_eq_ok_iff, decodeBeU64_eq_ok_iff,
        Except.ok.injEq]
      rw [take_record, recordBytes]
      constructor
      · intro hparts
        rcases hparts with ⟨keyId, hid, expireTime, hexpire, attributeData, hattribute, rfl⟩
        rw [hid, hexpire, hattribute]
      · intro heq
        have hkeyLength : ((bytes.drop (offset + 4)).take 16).length = 16 := by simp; omega
        have hslice : ∀ k, k + 4 ≤ bytes.length → ((bytes.drop k).take 4).length = 4 := by
          intro k hk
          simp
          omega
        obtain ⟨hid, heq⟩ := List.append_inj heq
          (by rw [hslice _ (by omega), u32Bytes_length])
        obtain ⟨hkey, heq⟩ := List.append_inj heq (by rw [hkeyLength, key.key.property])
        obtain ⟨hexpire, hattribute⟩ := List.append_inj heq
          (by rw [hslice _ (by omega), u32Bytes_length])
        refine ⟨key.keyId, hid, key.expireTime, hexpire, key.attributeData, hattribute, ?_⟩
        obtain ⟨keyId, keyBytes, expireTime, attributeData⟩ := key
        simp only [LeKeyRecord.mk.injEq, and_true, true_and]
        exact Subtype.ext hkey

/-- `append_record` and `decode_record` as an item format. -/
def recordItem : FixedWidth StdException LeKeyRecord where
  width := 32
  bytes := recordBytes
  read := decodeRecord
  bytes_length := recordBytes_length
  bytes_surjective := fun slice h => by
    obtain ⟨keyId, hid⟩ := u32Item.bytes_surjective ((slice.drop 0).take 4) (by simp; omega)
    obtain ⟨expireTime, hexpire⟩ :=
      u32Item.bytes_surjective ((slice.drop (0 + 4 + 16)).take 4) (by simp; omega)
    obtain ⟨attributeData, hattribute⟩ :=
      u64Item.bytes_surjective ((slice.drop (0 + 4 + 16 + 4)).take 8) (by simp; omega)
    refine ⟨⟨keyId, ⟨(slice.drop (0 + 4)).take 16, by simp; omega⟩, expireTime, attributeData⟩, ?_⟩
    have htake : (slice.drop 0).take 32 = slice := by
      rw [List.drop_zero, List.take_of_length_le (by omega)]
    have hfields := take_record slice 0
    rw [htake, ← hid, ← hexpire, ← hattribute] at hfields
    exact hfields.symm
  read_eq_ok_iff := fun _ _ _ => decodeRecord_eq_ok_iff

/-! ## Payload codecs -/

namespace LeKeyPayloadCodec

/-- `encode_u32_batch` of `le_key.cpp`. -/
def encodeU32Batch (values : List UInt32) : ByteBuffer := encodeBatch 4 appendBeU32 values

/-- `decode_u32_batch` of `le_key.cpp`. -/
def decodeU32Batch (bytes : List UInt8) : Except StdException (List UInt32) :=
  decodeBatch 4 decodeBeU32 ⟨"LEKeyID batch too short", "LEKeyID batch item length must be 4",
    "LEKeyID batch size mismatch"⟩ bytes

def encodeLoadRequest (keys : List LeKeyRecord) : ByteBuffer := encodeBatch 32 appendRecord keys

def decodeLoadRequest (bytes : List UInt8) : Except StdException (List LeKeyRecord) :=
  decodeBatch 32 decodeRecord ⟨"LEKeyLoad payload too short", "LEKeyLoad item length must be 32",
    "LEKeyLoad payload size mismatch"⟩ bytes

/-- The one-byte payload of the answers that carry a flag. -/
def encodeFlag (flag : Bool) : ByteBuffer := [if flag then 1 else 0]

/-- Any non-zero byte is true; the decoders differ in their error text. -/
def decodeFlag (notOneByte : String) (bytes : List UInt8) : Except StdException Bool :=
  match bytes with
  | [byte] => .ok (byte ≠ 0)
  | _ => .error (.asmError notOneByte)

def encodeLoadResponse (overflow : Bool) : ByteBuffer := encodeFlag overflow

def decodeLoadResponse (bytes : List UInt8) : Except StdException Bool :=
  decodeFlag "LEKeyLoad response payload must be 1 byte" bytes

def encodeQueryIdRequest (keyId : UInt32) : ByteBuffer := appendBeU32 [] keyId

def decodeQueryIdRequest (bytes : List UInt8) : Except StdException UInt32 :=
  decodeIdPayload "LEKeyQueryID request payload must be 4 bytes" bytes

def encodeQueryIdResponse (keyPresent : Bool) : ByteBuffer := encodeFlag keyPresent

def decodeQueryIdResponse (bytes : List UInt8) : Except StdException Bool :=
  decodeFlag "LEKeyQueryID response payload must be 1 byte" bytes

def encodeQueryAllResponse (keyIds : List UInt32) : ByteBuffer := encodeU32Batch keyIds

def decodeQueryAllResponse (bytes : List UInt8) : Except StdException (List UInt32) :=
  decodeU32Batch bytes

def encodePurgeIdRequest (keyId : UInt32) : ByteBuffer := appendBeU32 [] keyId

def decodePurgeIdRequest (bytes : List UInt8) : Except StdException UInt32 :=
  decodeIdPayload "LEKeyPurgeID request payload must be 4 bytes" bytes

def encodePurgeIdResponse (noKeyId : Bool) : ByteBuffer := encodeFlag noKeyId

def decodePurgeIdResponse (bytes : List UInt8) : Except StdException Bool :=
  decodeFlag "LEKeyPurgeID response payload must be 1 byte" bytes

theorem decodeFlag_encodeFlag (notOneByte : String) (flag : Bool) :
    decodeFlag notOneByte (encodeFlag flag) = .ok flag := by
  cases flag <;> rfl

theorem encodeLoadRequest_eq (keys : List LeKeyRecord) :
    encodeLoadRequest keys = batchBytes recordItem 32 keys :=
  encodeBatch_eq recordItem 32 appendRecord_eq keys

theorem decodeLoadRequest_eq_ok_iff {bytes : List UInt8} {keys : List LeKeyRecord} :
    decodeLoadRequest bytes = .ok keys ↔
      keys.length < 2 ^ 32 ∧ bytes = batchBytes recordItem 32 keys :=
  decodeBatch_eq_ok_iff recordItem 32 rfl

theorem returns_decodeLoadRequest_iff {bytes : List UInt8} :
    (decodeLoadRequest bytes).Returns ↔
      8 ≤ bytes.length ∧ beValue ((bytes.drop 4).take 4) = 32 ∧
        bytes.length = 8 + beValue (bytes.take 4) * 32 :=
  returns_decodeBatch_iff recordItem 32 rfl

theorem encodeQueryAllResponse_eq (keyIds : List UInt32) :
    encodeQueryAllResponse keyIds = batchBytes u32Item 4 keyIds :=
  encodeBatch_eq u32Item 4 appendBeU32_eq keyIds

theorem encodeQueryAllResponse_length (keyIds : List UInt32) :
    (encodeQueryAllResponse keyIds).length = 8 + keyIds.length * 4 := by
  rw [encodeQueryAllResponse_eq, batchBytes_length, u32Item_width]

theorem decodeQueryAllResponse_eq_ok_iff {bytes : List UInt8} {keyIds : List UInt32} :
    decodeQueryAllResponse bytes = .ok keyIds ↔
      keyIds.length < 2 ^ 32 ∧ bytes = batchBytes u32Item 4 keyIds :=
  decodeBatch_eq_ok_iff u32Item 4 rfl

end LeKeyPayloadCodec

end AsmProto
