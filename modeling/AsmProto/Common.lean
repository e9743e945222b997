import AsmProto.Lib.BigEndian
import AsmProto.Lib.Effect

set_option autoImplicit false

/-! # Common data types and big-endian fields

The declarations of `common.hpp`, and the integer readers and writers of `codec.cpp` every payload
format is built from. A `std::uint32_t` or `std::uint64_t` is `UInt32` or `UInt64`, so casts truncate
as they do in the source; a byte vector, a byte span and a `std::string` are lists of `UInt8`, and
`std::size_t` is `ℕ` (no container comes near 2⁶⁴ elements). -/

namespace AsmProto

/-- `std::vector<std::uint8_t>`. -/
abbrev ByteBuffer := List UInt8

/-- `std::string`: any bytes, not only text. -/
abbrev StdString := List UInt8

abbrev RequestId := UInt32

/-- `std::array<std::uint8_t, n>`. -/
abbrev FixedBytes (n : ℕ) := { bytes : List UInt8 // bytes.length = n }

/-- A value-initialised array. -/
def FixedBytes.zero (n : ℕ) : FixedBytes n := ⟨List.replicate n 0, List.length_replicate⟩

abbrev Ul := FixedBytes 16

/-- The bytes of an ASCII literal of the source. -/
def ascii (text : String) : StdString := text.toList.map Char.toUInt8

/-- The `std::exception`s the modelled code throws, each with its `what()`. -/
inductive StdException where
  | asmError (what : String)
  | invalidArgument (what : String)
  | outOfRange (what : String)
  | runtimeError (what : String)
deriving Repr, DecidableEq

def StdException.what : StdException → String
  | .asmError what => what
  | .invalidArgument what => what
  | .outOfRange what => what
  | .runtimeError what => what

inductive Command where
  | badRequest
  | getTime
  | getEventList
  | getEventId
  | querySpb
  | leKeyLoad
  | leKeyQueryId
  | leKeyQueryAll
  | leKeyPurgeId
  | leKeyPurgeAll
deriving Repr, DecidableEq

inductive GeneralResponse where
  | successful
  | failed
  | invalid
  | busy
deriving Repr, DecidableEq

/-- `static_cast<std::uint8_t>` of a response code. -/
def GeneralResponse.toByte : GeneralResponse → UInt8
  | .successful => 0x00
  | .failed => 0x01
  | .invalid => 0x02
  | .busy => 0x03

/-- `to_string` of a command. -/
def Command.toText : Command → StdString
  | .badRequest => ascii "BadRequest"
  | .getTime => ascii "GetTime"
  | .getEventList => ascii "GetEventList"
  | .getEventId => ascii "GetEventID"
  | .querySpb => ascii "QuerySPB"
  | .leKeyLoad => ascii "LEKeyLoad"
  | .leKeyQueryId => ascii "LEKeyQueryID"
  | .leKeyQueryAll => ascii "LEKeyQueryAll"
  | .leKeyPurgeId => ascii "LEKeyPurgeID"
  | .leKeyPurgeAll => ascii "LEKeyPurgeAll"

/-- `to_string` of a response code. -/
def GeneralResponse.toText : GeneralResponse → StdString
  | .successful => ascii "successful"
  | .failed => ascii "failed"
  | .invalid => ascii "invalid"
  | .busy => ascii "busy"

structure StandardRequest where
  command : Command := .getTime
  requestId : RequestId := 0
  payload : ByteBuffer := []
deriving Repr, DecidableEq

structure StandardResponse where
  command : Command := .badRequest
  requestId : Option RequestId := none
  payload : ByteBuffer := []
  responseCode : GeneralResponse := .successful
deriving Repr, DecidableEq

structure PeerIdentity where
  subject : StdString
  issuer : StdString
  sha256Thumbprint : StdString
deriving Repr, DecidableEq

structure ServiceResult where
  response : StandardResponse
  note : String
deriving Repr, DecidableEq

/-! ## Big-endian integers -/

def decodeBeU32 (bytes : List UInt8) (offset : ℕ) : Except StdException UInt32 :=
  if h : bytes.length < offset + 4 then
    .error (.asmError "unexpected end of buffer while reading u32")
  else
    .ok (bytes[offset].toUInt32 <<< 24
      ||| bytes[offset + 1].toUInt32 <<< 16
      ||| bytes[offset + 2].toUInt32 <<< 8
      ||| bytes[offset + 3].toUInt32)

/-- The loop `for (i = 0; i < 8U; ++i)` visits the eight bytes at `offset` in order. -/
def decodeBeU64 (bytes : List UInt8) (offset : ℕ) : Except StdException UInt64 :=
  if bytes.length < offset + 8 then
    .error (.asmError "unexpected end of buffer while reading u64")
  else
    .ok (((bytes.drop offset).take 8).foldl (fun value byte => value <<< 8 ||| byte.toUInt64) 0)

def appendBeU32 (out : ByteBuffer) (value : UInt32) : ByteBuffer :=
  out ++ [(value >>> 24 &&& 0xff).toUInt8, (value >>> 16 &&& 0xff).toUInt8,
    (value >>> 8 &&& 0xff).toUInt8, (value &&& 0xff).toUInt8]

def appendBeU64 (out : ByteBuffer) (value : UInt64) : ByteBuffer :=
  ([56, 48, 40, 32, 24, 16, 8, 0] : List UInt64).foldl
    (fun out shift => out ++ [(value >>> shift &&& 0xff).toUInt8]) out

/-- The four bytes `append_be_u32` appends. -/
def u32Bytes (value : UInt32) : ByteBuffer := bigEndian 4 value.toNat

/-- The eight bytes `append_be_u64` appends. -/
def u64Bytes (value : UInt64) : ByteBuffer := bigEndian 8 value.toNat

@[simp] theorem u32Bytes_length (value : UInt32) : (u32Bytes value).length = 4 :=
  bigEndian_length 4 _

@[simp] theorem u64Bytes_length (value : UInt64) : (u64Bytes value).length = 8 :=
  bigEndian_length 8 _

theorem beValue_u32Bytes (value : UInt32) : beValue (u32Bytes value) = value.toNat :=
  beValue_bigEndian value.toNat_lt

theorem u32Bytes_injective : Function.Injective u32Bytes := by
  intro value value' h
  have hvalue := congrArg beValue h
  rw [beValue_u32Bytes, beValue_u32Bytes] at hvalue
  exact UInt32.toNat_inj.1 hvalue

theorem beValue_u64Bytes (value : UInt64) : beValue (u64Bytes value) = value.toNat :=
  beValue_bigEndian value.toNat_lt

theorem appendBeU32_eq (out : ByteBuffer) (value : UInt32) :
    appendBeU32 out value = out ++ u32Bytes value := by
  unfold appendBeU32 u32Bytes
  rw [UInt32.toUInt8_shiftRight_and _ 24 (by decide), UInt32.toUInt8_shiftRight_and _ 16 (by decide),
    UInt32.toUInt8_shiftRight_and _ 8 (by decide), UInt32.toUInt8_and_mask]
  simp [bigEndian]

theorem appendBeU64_eq (out : ByteBuffer) (value : UInt64) :
    appendBeU64 out value = out ++ u64Bytes value := by
  unfold appendBeU64 u64Bytes
  simp only [List.foldl_cons, List.foldl_nil, List.append_assoc, List.cons_append, List.nil_append]
  rw [UInt64.toUInt8_shiftRight_and _ 56 (by decide), UInt64.toUInt8_shiftRight_and _ 48 (by decide),
    UInt64.toUInt8_shiftRight_and _ 40 (by decide), UInt64.toUInt8_shiftRight_and _ 32 (by decide),
    UInt64.toUInt8_shiftRight_and _ 24 (by decide), UInt64.toUInt8_shiftRight_and _ 16 (by decide),
    UInt64.toUInt8_shiftRight_and _ 8 (by decide), UInt64.toUInt8_shiftRight_and _ 0 (by decide)]
  simp [bigEndian]

/-- A four-byte slice that lies inside the list, byte by byte. -/
theorem take_four_drop (bytes : List UInt8) (offset : ℕ) (h : offset + 4 ≤ bytes.length) :
    (bytes.drop offset).take 4
      = [bytes[offset], bytes[offset + 1], bytes[offset + 2], bytes[offset + 3]] := by
  rw [List.drop_eq_getElem_cons (by omega), List.drop_eq_getElem_cons (by omega),
    List.drop_eq_getElem_cons (by omega), List.drop_eq_getElem_cons (by omega)]
  rfl

/-- `decode_be_u32` throws exactly when fewer than four bytes are left, and otherwise reads the
    big-endian value of the four bytes at `offset`. -/
theorem decodeBeU32_spec (bytes : List UInt8) (offset : ℕ) (h : offset + 4 ≤ bytes.length) :
    decodeBeU32 bytes offset = .ok (UInt32.ofNat (beValue ((bytes.drop offset).take 4))) := by
  rw [decodeBeU32, dif_neg (by omega), take_four_drop bytes offset h]
  congr 1
  apply UInt32.toNat_inj.1
  have hlt := beValue_lt [bytes[offset], bytes[offset + 1], bytes[offset + 2], bytes[offset + 3]]
  simp only [List.length_cons, List.length_nil] at hlt
  rw [UInt32.toNat_ofNat', Nat.mod_eq_of_lt (by omega), ← or_shiftLeft_four]
  simp only [UInt32.toNat_or, UInt32.toNat_shiftLeft, UInt8.toNat_toUInt32, UInt32.reduceToNat,
    Nat.reduceMod]
  rw [shiftLeft_byte_mod _ (by decide), shiftLeft_byte_mod _ (by decide),
    shiftLeft_byte_mod _ (by decide)]

theorem decodeBeU32_of_short {bytes : List UInt8} {offset : ℕ} (h : bytes.length < offset + 4) :
    decodeBeU32 bytes offset
      = .error (.asmError "unexpected end of buffer while reading u32") := by
  rw [decodeBeU32, dif_pos h]

/-- **A `u32` field is read exactly from its own four bytes.** -/
theorem decodeBeU32_eq_ok_iff {bytes : List UInt8} {offset : ℕ} {value : UInt32} :
    decodeBeU32 bytes offset = .ok value ↔ (bytes.drop offset).take 4 = u32Bytes value := by
  by_cases h : offset + 4 ≤ bytes.length
  · have hlen : ((bytes.drop offset).take 4).length = 4 := by simp; omega
    have hlt := beValue_lt ((bytes.drop offset).take 4)
    rw [hlen] at hlt
    rw [decodeBeU32_spec bytes offset h, Except.ok.injEq]
    constructor
    · rintro rfl
      apply beValue_inj (by rw [hlen, u32Bytes_length])
      rw [beValue_u32Bytes, UInt32.toNat_ofNat', Nat.mod_eq_of_lt (by omega)]
    · intro heq
      rw [heq, beValue_u32Bytes, UInt32.ofNat_toNat]
  · rw [decodeBeU32_of_short (by omega)]
    refine ⟨fun hc => (nomatch hc), fun heq => ?_⟩
    have := congrArg List.length heq
    simp only [List.length_take, List.length_drop, u32Bytes_length] at this
    omega

/-- **A `u64` field is read exactly from its own eight bytes.** -/
theorem decodeBeU64_eq_ok_iff {bytes : List UInt8} {offset : ℕ} {value : UInt64} :
    decodeBeU64 bytes offset = .ok value ↔ (bytes.drop offset).take 8 = u64Bytes value := by
  unfold decodeBeU64
  split
  · next h =>
      refine ⟨fun hc => (nomatch hc), fun heq => ?_⟩
      have := congrArg List.length heq
      simp only [List.length_take, List.length_drop, u64Bytes_length] at this
      omega
  · next h =>
      have hlen : ((bytes.drop offset).take 8).length = 8 := by simp; omega
      have hlt := beValue_lt ((bytes.drop offset).take 8)
      rw [hlen] at hlt
      have hfold := UInt64.foldl_shiftLeft_or ((bytes.drop offset).take 8) 0
        (by rw [hlen]; simpa using hlt)
      simp only [UInt64.toNat_zero, Nat.zero_mul, Nat.zero_add] at hfold
      rw [Except.ok.injEq, ← UInt64.toNat_inj, hfold, ← beValue_u64Bytes]
      exact ⟨beValue_inj (by rw [hlen, u64Bytes_length]), congrArg beValue⟩

end AsmProto
