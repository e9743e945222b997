import AsmProto.Codec

set_option autoImplicit false

/-! # The wire format

The compositions of `Codec` and `Klv` the two ends run: a request or response to the bytes of its
frame and back. `decodeRequestFrame` and `decodeResponseFrame` accept exactly what the encoders
produce, byte for byte. -/

namespace AsmProto

/-- `Klv::encode(Codec::encode_request(request))`. -/
def encodeRequestFrame (request : StandardRequest) : Except StdException ByteBuffer := do
  let packet ← Codec.encodeRequest request
  Klv.encode packet

/-- `Codec::decode_request(Klv::decode(bytes))`. -/
def decodeRequestFrame (bytes : List UInt8) : Except StdException StandardRequest := do
  let packet ← Klv.decode bytes
  Codec.decodeRequest packet

/-- `Klv::encode(Codec::encode_response(response))`. -/
def encodeResponseFrame (response : StandardResponse) : Except StdException ByteBuffer := do
  let packet ← Codec.encodeResponse response
  Klv.encode packet

/-- `Codec::decode_response(Klv::decode(bytes))`. -/
def decodeResponseFrame (bytes : List UInt8) : Except StdException StandardResponse := do
  let packet ← Klv.decode bytes
  Codec.decodeResponse packet

/-! ## Frames of a given value

`static_cast<std::uint32_t>(packet.value.size())` wraps for values of 2³² bytes and more. The
size comparison of `Klv::encode` then refuses the packet, so the limit is `Klv.maxLength` for every
value, wrapped or not. -/

/-- The bytes of a frame with label `ul` and value `value`. -/
def frameBytes (ul : Ul) (value : ByteBuffer) : ByteBuffer :=
  ul.val ++ Klv.berBytes (UInt32.ofNat value.length) ++ value

@[simp] theorem frameBytes_length (ul : Ul) (value : ByteBuffer) :
    (frameBytes ul value).length = 20 + value.length := by
  simp [frameBytes, ul.property]
  omega

theorem Klv.encode_castLength_eq_ok_iff {ul : Ul} {value bytes : ByteBuffer} :
    Klv.encode { ul := ul, length := UInt32.ofNat value.length, value := value } = .ok bytes ↔
      value.length ≤ Klv.maxLength ∧ bytes = frameBytes ul value := by
  rw [Klv.encode_eq_ok_iff]
  simp only [UInt32.toNat_ofNat', Klv.maxLength, frameBytes]
  constructor
  · intro hparts
    rcases hparts with ⟨hcast, hle, hbytes⟩
    exact ⟨by omega, hbytes⟩
  · intro hparts
    rcases hparts with ⟨hle, hbytes⟩
    exact ⟨by omega, by omega, hbytes⟩

/-- A frame is decoded to its own label and value, whatever follows from them. -/
theorem Klv.decode_frameBytes {ul : Ul} {value : ByteBuffer} (h : value.length ≤ Klv.maxLength) :
    Klv.decode (frameBytes ul value)
      = .ok { ul := ul, length := UInt32.ofNat value.length, value := value } :=
  Klv.decode_eq_ok_iff.2 (Klv.encode_castLength_eq_ok_iff.2 ⟨h, rfl⟩)

/-- Every accepted frame is `frameBytes` of the packet decoded from it. -/
theorem Klv.eq_frameBytes_of_decode {bytes : List UInt8} {packet : KlvPacket}
    (h : Klv.decode bytes = .ok packet) :
    packet.length = UInt32.ofNat packet.value.length ∧ packet.value.length ≤ Klv.maxLength ∧
      bytes = frameBytes packet.ul packet.value := by
  obtain ⟨hval, hle, hbytes⟩ := Klv.encode_eq_ok_iff.1 (Klv.decode_eq_ok_iff.1 h)
  have hlength : packet.length = UInt32.ofNat packet.value.length := by
    rw [hval, UInt32.ofNat_toNat]
  exact ⟨hlength, by omega, by rw [frameBytes, ← hlength, hbytes]⟩

/-! ## Request frames -/

/-- The value of a request packet. -/
def requestValue (request : StandardRequest) : ByteBuffer :=
  u32Bytes request.requestId ++ request.payload

@[simp] theorem requestValue_length (request : StandardRequest) :
    (requestValue request).length = 4 + request.payload.length := by
  simp [requestValue]

theorem encodeRequestFrame_eq_ok_iff {request : StandardRequest} {bytes : ByteBuffer} :
    encodeRequestFrame request = .ok bytes ↔
      ∃ ul, Codec.ulFor request.command false = .ok ul ∧
        (requestValue request).length ≤ Klv.maxLength ∧
        bytes = frameBytes ul (requestValue request) := by
  unfold encodeRequestFrame
  rw [Except.bind_eq_ok_iff]
  constructor
  · intro hparts
    rcases hparts with ⟨⟨ul, length, value⟩, hpacket, hbytes⟩
    obtain ⟨hul, hvalue, hlength⟩ := Codec.encodeRequest_eq_ok_iff.1 hpacket
    simp only at hul hvalue hlength
    subst hlength hvalue
    exact ⟨ul, hul, Klv.encode_castLength_eq_ok_iff.1 hbytes⟩
  · intro hparts
    rcases hparts with ⟨ul, hul, hbytes⟩
    exact ⟨_, Codec.encodeRequest_eq_ok_iff.2 ⟨hul, rfl, rfl⟩,
      Klv.encode_castLength_eq_ok_iff.2 hbytes⟩

/-- **Request frames decode to what was encoded, and re-encode to themselves.** -/
theorem decodeRequestFrame_eq_ok_iff {bytes : List UInt8} {request : StandardRequest} :
    decodeRequestFrame bytes = .ok request ↔ encodeRequestFrame request = .ok bytes := by
  rw [encodeRequestFrame_eq_ok_iff]
  unfold decodeRequestFrame
  rw [Except.bind_eq_ok_iff]
  constructor
  · intro hparts
    rcases hparts with ⟨packet, hpacket, hrequest⟩
    obtain ⟨-, hle, hbytes⟩ := Klv.eq_frameBytes_of_decode hpacket
    obtain ⟨hul, hvalue⟩ := Codec.decodeRequest_eq_ok_iff.1 hrequest
    rw [hvalue] at hle hbytes
    exact ⟨packet.ul, hul, hle, hbytes⟩
  · intro hparts
    rcases hparts with ⟨ul, hul, hle, rfl⟩
    exact ⟨_, Klv.decode_frameBytes hle, Codec.decodeRequest_eq_ok_iff.2 ⟨hul, rfl⟩⟩

theorem length_of_decodeRequestFrame {requestBytes : ByteBuffer} {request : StandardRequest}
    (h : decodeRequestFrame requestBytes = .ok request) :
    requestBytes.length = 24 + request.payload.length := by
  obtain ⟨ul, -, -, rfl⟩ := encodeRequestFrame_eq_ok_iff.1 (decodeRequestFrame_eq_ok_iff.1 h)
  rw [frameBytes_length, requestValue_length]
  omega

theorem returns_encodeRequestFrame_iff (request : StandardRequest) :
    (encodeRequestFrame request).Returns ↔
      request.command ≠ .badRequest ∧ 4 + request.payload.length ≤ Klv.maxLength := by
  rw [← Codec.returns_ulFor_false_iff, ← requestValue_length]
  simp only [Except.Returns, encodeRequestFrame_eq_ok_iff]
  constructor
  · intro hreturns
    rcases hreturns with ⟨_, ul, hul, hle, -⟩
    exact ⟨⟨ul, hul⟩, hle⟩
  · intro hparts
    rcases hparts with ⟨⟨ul, hul⟩, hle⟩
    exact ⟨_, ul, hul, hle, rfl⟩

/-- A request frame carries a request label, so it is never a response frame. -/
theorem not_returns_decodeResponseFrame {bytes : List UInt8} {request : StandardRequest}
    (h : decodeRequestFrame bytes = .ok request) : ¬ (decodeResponseFrame bytes).Returns := by
  intro hreturns
  rcases hreturns with ⟨response, hresponse⟩
  obtain ⟨packet, hpacket, hreq⟩ := Except.bind_eq_ok_iff.1 h
  obtain ⟨packet', hpacket', hresp⟩ := Except.bind_eq_ok_iff.1 hresponse
  rw [hpacket] at hpacket'
  obtain rfl := Except.ok.inj hpacket'
  have hrequestUl := Codec.describeUl_eq_ok_iff.2 (Codec.decodeRequest_eq_ok_iff.1 hreq).1
  have hresponseUl := Codec.describeUl_eq_ok_iff.2 (Codec.decodeResponse_eq_ok_iff.1 hresp).2.1
  rw [hrequestUl] at hresponseUl
  simp at hresponseUl

/-- **The request wire format is a bijection.** Encoding throws exactly for `BadRequest` and for
    values over the three-byte length; every other request is decoded from its frame unchanged, and
    every accepted byte string is the frame of the request decoded from it and of no response. -/
theorem request_frames_bijective :
    (∀ request : StandardRequest,
      (¬ (encodeRequestFrame request).Returns ↔
        request.command = .badRequest ∨ 0xFFFFFF < 4 + request.payload.length) ∧
      ∀ bytes, encodeRequestFrame request = .ok bytes → decodeRequestFrame bytes = .ok request) ∧
    ∀ (bytes : List UInt8) (request : StandardRequest), decodeRequestFrame bytes = .ok request →
      encodeRequestFrame request = .ok bytes ∧ ¬ (decodeResponseFrame bytes).Returns := by
  refine ⟨fun request => ⟨?_, fun bytes => decodeRequestFrame_eq_ok_iff.2⟩,
    fun bytes request h => ⟨decodeRequestFrame_eq_ok_iff.1 h, not_returns_decodeResponseFrame h⟩⟩
  rw [returns_encodeRequestFrame_iff, not_and_or, not_not, Nat.not_le]
  rfl

/-- A `GetTime` request with one byte of payload makes the round trip. -/
theorem request_frames_bijective_getTime :
    decodeRequestFrame (frameBytes (makeUl 0x02 0x10) [0, 0, 0, 1, 7])
        = .ok { command := .getTime, requestId := 1, payload := [7] } ∧
      encodeRequestFrame { command := .getTime, requestId := 1, payload := [7] }
        = .ok (frameBytes (makeUl 0x02 0x10) [0, 0, 0, 1, 7]) :=
  have h : decodeRequestFrame (frameBytes (makeUl 0x02 0x10) [0, 0, 0, 1, 7])
      = .ok { command := .getTime, requestId := 1, payload := [7] } :=
    (request_frames_bijective.1 _).2 _ (by decide)
  ⟨h, (request_frames_bijective.2 _ _ h).1⟩

/-! ## Response frames -/

/-- The value of a response packet. -/
def responseValue (response : StandardResponse) : ByteBuffer :=
  Codec.responseHead response ++ response.payload ++ [response.responseCode.toByte]

theorem encodeResponseFrame_eq_ok_iff {response : StandardResponse} {bytes : ByteBuffer}
    (hwell : Codec.WellIdentified response) :
    encodeResponseFrame response = .ok bytes ↔
      ∃ ul, Codec.ulFor response.command true = .ok ul ∧
        (responseValue response).length ≤ Klv.maxLength ∧
        bytes = frameBytes ul (responseValue response) := by
  unfold encodeResponseFrame
  rw [Except.bind_eq_ok_iff]
  constructor
  · intro hparts
    rcases hparts with ⟨⟨ul, length, value⟩, hpacket, hbytes⟩
    obtain ⟨hul, hvalue, hlength⟩ := (Codec.encodeResponse_eq_ok_iff hwell).1 hpacket
    simp only at hul hvalue hlength
    subst hlength hvalue
    exact ⟨ul, hul, Klv.encode_castLength_eq_ok_iff.1 hbytes⟩
  · intro hparts
    rcases hparts with ⟨ul, hul, hbytes⟩
    exact ⟨_, (Codec.encodeResponse_eq_ok_iff hwell).2 ⟨hul, rfl, rfl⟩,
      Klv.encode_castLength_eq_ok_iff.2 hbytes⟩

/-- **Response frames decode to what was encoded, and re-encode to themselves.** -/
theorem decodeResponseFrame_eq_ok_iff {bytes : List UInt8} {response : StandardResponse} :
    decodeResponseFrame bytes = .ok response ↔
      Codec.WellIdentified response ∧ encodeResponseFrame response = .ok bytes := by
  unfold decodeResponseFrame
  rw [Except.bind_eq_ok_iff]
  constructor
  · intro hparts
    rcases hparts with ⟨packet, hpacket, hresponse⟩
    obtain ⟨-, hle, hbytes⟩ := Klv.eq_frameBytes_of_decode hpacket
    obtain ⟨hwell, hul, hvalue⟩ := Codec.decodeResponse_eq_ok_iff.1 hresponse
    rw [hvalue] at hle hbytes
    exact ⟨hwell, (encodeResponseFrame_eq_ok_iff hwell).2 ⟨packet.ul, hul, hle, hbytes⟩⟩
  · intro hparts
    rcases hparts with ⟨hwell, hbytes⟩
    obtain ⟨ul, hul, hle, rfl⟩ := (encodeResponseFrame_eq_ok_iff hwell).1 hbytes
    exact ⟨_, Klv.decode_frameBytes hle, Codec.decodeResponse_eq_ok_iff.2 ⟨hwell, hul, rfl⟩⟩

/-- A well-identified response is encoded exactly when its value fits the three-byte length. -/
theorem returns_encodeResponseFrame_iff {response : StandardResponse}
    (hwell : Codec.WellIdentified response) :
    (encodeResponseFrame response).Returns ↔ (responseValue response).length ≤ Klv.maxLength := by
  obtain ⟨ul, hul⟩ := Codec.returns_ulFor_true response.command
  simp only [Except.Returns, encodeResponseFrame_eq_ok_iff hwell]
  constructor
  · intro hreturns
    rcases hreturns with ⟨_, _, -, hle, -⟩
    exact hle
  · intro hle
    exact ⟨_, ul, hul, hle, rfl⟩

theorem responseValue_length {response : StandardResponse} (hwell : Codec.WellIdentified response) :
    (responseValue response).length
      = (if response.command = .badRequest then 1 else 5) + response.payload.length := by
  obtain ⟨command, requestId, payload, responseCode⟩ := response
  simp only [Codec.WellIdentified] at hwell
  cases requestId with
  | none =>
      rw [if_pos (hwell.1 rfl)]
      simp [responseValue, Codec.responseHead]
      omega
  | some requestId =>
      rw [if_neg fun hc => by simpa using hwell.2 hc]
      simp [responseValue, Codec.responseHead]
      omega

/-- **The response wire format is a bijection.** A response that has a request id exactly when its
    command has one is encoded unless its value is over the three-byte length, and is then decoded
    from its frame unchanged, whatever its payload; every accepted byte string is the frame of the
    response decoded from it. -/
theorem response_frames_bijective :
    (∀ response : StandardResponse, (response.requestId = none ↔ response.command = .badRequest) →
      (¬ (encodeResponseFrame response).Returns ↔
        0xFFFFFF < (if response.command = .badRequest then 1 else 5) + response.payload.length) ∧
      ∀ bytes, encodeResponseFrame response = .ok bytes →
        decodeResponseFrame bytes = .ok response) ∧
    ∀ (bytes : List UInt8) (response : StandardResponse), decodeResponseFrame bytes = .ok response →
      encodeResponseFrame response = .ok bytes := by
  refine ⟨fun response hwell => ⟨?_, fun bytes hbytes => ?_⟩, fun bytes response h => ?_⟩
  · rw [returns_encodeResponseFrame_iff hwell, responseValue_length hwell, Nat.not_le]
    rfl
  · exact decodeResponseFrame_eq_ok_iff.2 ⟨hwell, hbytes⟩
  · exact (decodeResponseFrame_eq_ok_iff.1 h).2

/-- A `BadRequest` that carries a whole frame makes the round trip. -/
theorem response_frames_bijective_nested :
    decodeResponseFrame (frameBytes (makeUl 0x01 0x01)
        (frameBytes (makeUl 0x02 0x10) [0, 0, 0, 1] ++ [2]))
      = .ok { command := .badRequest, requestId := none,
              payload := frameBytes (makeUl 0x02 0x10) [0, 0, 0, 1], responseCode := .invalid } :=
  (response_frames_bijective.1
    { command := .badRequest, requestId := none,
      payload := frameBytes (makeUl 0x02 0x10) [0, 0, 0, 1], responseCode := .invalid }
    (by decide)).2 _ (by decide)

end AsmProto
