import AsmProto.Common

set_option autoImplicit false

/-! # QuerySPB

`query_spb.cpp`. `QuerySpbStatus` is an enumeration over `std::uint8_t` that
`QuerySpbPayloadCodec::decode_response` fills by a cast, so any byte is a value of it; it is its byte
here, with the three named constants. -/

namespace AsmProto

structure QuerySpbStatus where
  value : UInt8
deriving Repr, DecidableEq

namespace QuerySpbStatus

def notPlaying : QuerySpbStatus := ⟨0x00⟩

def playing : QuerySpbStatus := ⟨0x01⟩

def securityAlert : QuerySpbStatus := ⟨0x02⟩

def toText (status : QuerySpbStatus) : StdString :=
  if status = notPlaying then ascii "not_playing"
  else if status = playing then ascii "playing"
  else if status = securityAlert then ascii "security_alert"
  else ascii "unknown"

end QuerySpbStatus

structure QuerySpbResponsePayload where
  protocolVersion : UInt8 := 0x01
  status : QuerySpbStatus := .notPlaying
deriving Repr, DecidableEq

/-- `QuerySpbStatusProvider`; `StaticQuerySpbStatusProvider` returns the status it was built with. -/
structure QuerySpbStatusProvider where
  currentStatus : QuerySpbStatus

namespace QuerySpbPayloadCodec

def encodeResponse (payload : QuerySpbResponsePayload) : ByteBuffer :=
  [payload.protocolVersion, payload.status.value]

def decodeResponse (bytes : List UInt8) : Except StdException QuerySpbResponsePayload :=
  match bytes with
  | [protocolVersion, status] => .ok { protocolVersion := protocolVersion, status := ⟨status⟩ }
  | _ => .error (.asmError "QuerySPB response payload must be 2 bytes")

/-- The decoder accepts exactly what the encoder writes. -/
theorem decodeResponse_eq_ok_iff {bytes : List UInt8} {payload : QuerySpbResponsePayload} :
    decodeResponse bytes = .ok payload ↔ bytes = encodeResponse payload := by
  unfold decodeResponse encodeResponse
  constructor
  · intro h
    split at h
    · simp only [Except.ok.injEq] at h
      subst h
      rfl
    · exact absurd h (by simp)
  · rintro rfl
    rfl

end QuerySpbPayloadCodec

end AsmProto
