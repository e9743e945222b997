import AsmProto.Common

set_option autoImplicit false

/-! # KLV framing

`klv.cpp`: a frame is a 16-byte universal label, a length on four bytes (`0x83` and three big-endian
bytes, the fixed long form) and the value. `Klv.encode` and `Klv.decode` are two functions written
separately in the source; `Klv.decode_eq_ok_iff` says that each accepts exactly what the other
produces, which every wire-format law above this layer rests on. -/

namespace AsmProto

structure KlvPacket where
  ul : Ul
  length : UInt32 := 0
  value : ByteBuffer := []
deriving DecidableEq

namespace Klv

def encodeBerLength (length : UInt32) : Except StdException ByteBuffer :=
  if length > 0x00ffffff then
    .error (.asmError "KLV length exceeds fixed 3-byte BER payload")
  else
    .ok [0x83, (length >>> 16 &&& 0xff).toUInt8, (length >>> 8 &&& 0xff).toUInt8,
      (length &&& 0xff).toUInt8]

/-- The decoded length and the number of bytes it took. -/
def decodeBerLength (bytes : List UInt8) : Except StdException (UInt32 × ℕ) :=
  if h : bytes.length < 4 then
    .error (.asmError "missing BER length")
  else if bytes[0] ≠ 0x83 then
    .error (.asmError "invalid fixed BER length header")
  else
    .ok (bytes[1].toUInt32 <<< 16 ||| bytes[2].toUInt32 <<< 8 ||| bytes[3].toUInt32, 4)

def encode (packet : KlvPacket) : Except StdException ByteBuffer :=
  if packet.value.length ≠ packet.length.toNat then
    .error (.asmError "KLV packet length/value mismatch")
  else do
    let encodedLength ← encodeBerLength packet.length
    .ok (packet.ul.val ++ encodedLength ++ packet.value)

def decode (bytes : List UInt8) : Except StdException KlvPacket :=
  if h : bytes.length < 17 then
    .error (.asmError "KLV packet too short")
  else do
    let ul : Ul := ⟨bytes.take 16, by simp; omega⟩
    let (length, consumed) ← decodeBerLength (bytes.drop 16)
    let valueOffset := 16 + consumed
    if bytes.length ≠ valueOffset + length.toNat then
      .error (.asmError "KLV value length mismatch")
    else
      .ok { ul := ul, length := length, value := bytes.drop valueOffset }

/-! ## The length field -/

/-- The largest value a three-byte length can announce. -/
def maxLength : ℕ := 0x00ffffff

/-- The four bytes of a length field. -/
def berBytes (length : UInt32) : ByteBuffer := 0x83 :: bigEndian 3 length.toNat

@[simp] theorem berBytes_length (length : UInt32) : (berBytes length).length = 4 := by
  simp [berBytes]

theorem encodeBerLength_of_le {length : UInt32} (h : length.toNat ≤ maxLength) :
    encodeBerLength length = .ok (berBytes length) := by
  have hle : ¬ length > 0x00ffffff := by
    rw [gt_iff_lt, UInt32.lt_iff_toNat_lt, Nat.not_lt]
    exact h
  rw [encodeBerLength, if_neg hle, UInt32.toUInt8_shiftRight_and _ 16 (by decide),
    UInt32.toUInt8_shiftRight_and _ 8 (by decide), UInt32.toUInt8_and_mask]
  simp [berBytes, bigEndian]

theorem encodeBerLength_of_gt {length : UInt32} (h : maxLength < length.toNat) :
    encodeBerLength length
      = .error (.asmError "KLV length exceeds fixed 3-byte BER payload") := by
  have hgt : length > 0x00ffffff := by
    rw [gt_iff_lt, UInt32.lt_iff_toNat_lt]
    exact h
  rw [encodeBerLength, if_pos hgt]

theorem encodeBerLength_eq_ok_iff {length : UInt32} {out : ByteBuffer} :
    encodeBerLength length = .ok out ↔ length.toNat ≤ maxLength ∧ out = berBytes length := by
  by_cases h : length.toNat ≤ maxLength
  · rw [encodeBerLength_of_le h, Except.ok.injEq]
    exact ⟨fun heq => ⟨h, heq.symm⟩, fun heq => heq.2.symm⟩
  · rw [encodeBerLength_of_gt (by omega)]
    exact ⟨fun hc => (nomatch hc), fun hc => absurd hc.1 h⟩

theorem decodeBerLength_eq_ok_iff {bytes : List UInt8} {length : UInt32} {consumed : ℕ} :
    decodeBerLength bytes = .ok (length, consumed) ↔
      consumed = 4 ∧ length.toNat ≤ maxLength ∧ bytes.take 4 = berBytes length := by
  match bytes with
  | [] | [_] | [_, _] | [_, _, _] =>
      refine ⟨fun hc => (nomatch hc), fun hc => ?_⟩
      have := congrArg List.length hc.2.2
      simp at this
  | b0 :: b1 :: b2 :: b3 :: rest =>
      have htake : (b0 :: b1 :: b2 :: b3 :: rest).take 4 = [b0, b1, b2, b3] := rfl
      have hword : (b1.toUInt32 <<< 16 ||| b2.toUInt32 <<< 8 ||| b3.toUInt32).toNat
          = beValue [b1, b2, b3] := by
        rw [← or_shiftLeft_three]
        simp only [UInt32.toNat_or, UInt32.toNat_shiftLeft, UInt8.toNat_toUInt32,
          UInt32.reduceToNat, Nat.reduceMod]
        rw [shiftLeft_byte_mod b1 (by decide), shiftLeft_byte_mod b2 (by decide)]
      have hlt : beValue [b1, b2, b3] < 256 ^ 3 := beValue_lt [b1, b2, b3]
      rw [htake, berBytes]
      simp only [decodeBerLength, List.length_cons]
      rw [dif_neg (by omega)]
      simp only [List.getElem_cons_zero, List.getElem_cons_succ]
      by_cases h0 : b0 = 0x83
      · rw [if_neg (by simpa using h0)]
        simp only [Except.ok.injEq, Prod.mk.injEq, List.cons.injEq, h0, true_and]
        constructor
        · intro hsame
          rcases hsame with ⟨rfl, rfl⟩
          refine ⟨rfl, ?_, ?_⟩
          · rw [hword, maxLength]; omega
          · rw [hword]; exact (bigEndian_beValue [b1, b2, b3]).symm
        · intro hsame
          rcases hsame with ⟨rfl, hle, hbytes⟩
          refine ⟨UInt32.toNat_inj.1 ?_, rfl⟩
          rw [hword, hbytes, beValue_bigEndian (by rw [maxLength] at hle; omega)]
      · rw [if_pos h0]
        refine ⟨fun hc => (nomatch hc), fun hc => ?_⟩
        simp only [List.cons.injEq] at hc
        exact absurd hc.2.2.1 h0

/-! ## Frames -/

/-- **What a frame is.** `encode` accepts a packet exactly when the announced length is the value's
    and fits three bytes. -/
theorem encode_eq_ok_iff {packet : KlvPacket} {bytes : ByteBuffer} :
    encode packet = .ok bytes ↔
      packet.value.length = packet.length.toNat ∧ packet.length.toNat ≤ maxLength ∧
        bytes = packet.ul.val ++ berBytes packet.length ++ packet.value := by
  unfold encode
  split
  · next h => exact ⟨fun hc => (nomatch hc), fun hc => absurd hc.1 h⟩
  · next h =>
      rw [Except.bind_eq_ok_iff]
      simp only [encodeBerLength_eq_ok_iff, Except.ok.injEq]
      constructor
      · intro hparts
        rcases hparts with ⟨out, ⟨hle, rfl⟩, rfl⟩
        exact ⟨not_not.1 h, hle, rfl⟩
      · intro hparts
        rcases hparts with ⟨-, hle, rfl⟩
        exact ⟨_, ⟨hle, rfl⟩, rfl⟩

/-- **`Klv::decode` is the inverse of `Klv::encode`, on exactly its image.** -/
theorem decode_eq_ok_iff {bytes : List UInt8} {packet : KlvPacket} :
    decode bytes = .ok packet ↔ encode packet = .ok bytes := by
  rw [encode_eq_ok_iff]
  unfold decode
  split
  · next h =>
      refine ⟨fun hc => (nomatch hc), ?_⟩
      intro hframe
      rcases hframe with ⟨-, -, rfl⟩
      have := packet.ul.property
      simp only [List.length_append, berBytes_length] at h
      omega
  · next h =>
      rw [Except.bind_eq_ok_iff]
      simp only [Prod.exists]
      constructor
      · -- the three parts that were cut out make up the bytes
        intro hparts
        rcases hparts with ⟨length, consumed, hber, hrest⟩
        obtain ⟨rfl, hle, htake⟩ := decodeBerLength_eq_ok_iff.1 hber
        simp only [ne_eq, ite_not] at hrest
        split at hrest
        · next hlen =>
            simp only [Except.ok.injEq] at hrest
            subst hrest
            refine ⟨by simp; omega, hle, ?_⟩
            simp only [← htake]
            rw [List.append_assoc, ← List.drop_drop, List.take_append_drop, List.take_append_drop]
        · exact absurd hrest (by simp)
      · intro hframe
        rcases hframe with ⟨hval, hle, rfl⟩
        have hul := packet.ul.property
        have hdrop : (packet.ul.val ++ berBytes packet.length ++ packet.value).drop 16
            = berBytes packet.length ++ packet.value := by
          rw [List.append_assoc, List.drop_left' hul]
        have hdrop20 : (packet.ul.val ++ berBytes packet.length ++ packet.value).drop 20
            = packet.value := List.drop_left' (by simp [hul])
        refine ⟨packet.length, 4, decodeBerLength_eq_ok_iff.2 ⟨rfl, hle, ?_⟩, ?_⟩
        · rw [hdrop, List.take_left' (berBytes_length _)]
        · have hlen : ¬ (packet.ul.val ++ berBytes packet.length ++ packet.value).length
              ≠ 16 + 4 + packet.length.toNat := by
            simp only [List.length_append, berBytes_length, hul, hval, ne_eq, not_not]
          simp only [hdrop20, if_neg hlen]
          congr 1
          have htake16 : (packet.ul.val ++ berBytes packet.length ++ packet.value).take 16
              = packet.ul.val := by
            rw [List.append_assoc, List.take_left' hul]
          obtain ⟨ul, length, value⟩ := packet
          simp only [KlvPacket.mk.injEq, and_true]
          exact Subtype.ext htake16

theorem berBytes_injective {m n : UInt32} (hm : m.toNat ≤ maxLength) (hn : n.toNat ≤ maxLength)
    (h : berBytes m = berBytes n) : m = n := by
  rw [maxLength] at hm hn
  have hvalue := congrArg beValue (List.cons.inj h).2
  rw [beValue_bigEndian (by omega), beValue_bigEndian (by omega)] at hvalue
  exact UInt32.toNat_inj.1 hvalue

/-- A frame is accepted whole or not at all: no proper prefix of a frame is a frame. -/
theorem not_returns_decode_of_initial {frame bytes : List UInt8} {packet : KlvPacket}
    (hframe : decode frame = .ok packet) (hinitial : bytes <+: frame) (hne : bytes ≠ frame) :
    ¬ (decode bytes).Returns := by
  intro hreturns
  rcases hreturns with ⟨other, hother⟩
  obtain ⟨hval, hle, rfl⟩ := encode_eq_ok_iff.1 (decode_eq_ok_iff.1 hframe)
  obtain ⟨hval', hle', rfl⟩ := encode_eq_ok_iff.1 (decode_eq_ok_iff.1 hother)
  obtain ⟨rest, hrest⟩ := hinitial
  simp only [List.append_assoc] at hrest
  obtain ⟨hul, hrest⟩ := List.append_inj hrest (by rw [packet.ul.property, other.ul.property])
  obtain ⟨hber, hrest⟩ := List.append_inj hrest (by simp)
  have hlength : other.length = packet.length := berBytes_injective hle' hle hber
  obtain ⟨hvalue, -⟩ := List.append_inj (hrest.trans (List.append_nil _).symm)
    (by rw [hval, hval', hlength])
  exact hne (by rw [hul, hber, hvalue])

end Klv

end AsmProto
