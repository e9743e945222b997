import AsmProto.Klv

set_option autoImplicit false

/-! # Requests and responses as KLV packets

`codec.cpp`: the table of command labels, and the translation between packets and
`StandardRequest` / `StandardResponse`. A request value is the request id followed by the payload; a
response value ends in the response code, and starts with the request id unless the command is
`BadRequest`, which has none and carries the request copy instead.

As for `Klv`, each decoder is characterised by what its encoder produces
(`decodeRequest_eq_ok_iff`, `decodeResponse_eq_ok_iff`), so the wire laws need no further unfolding
of either. -/

namespace AsmProto

structure CommandDescriptor where
  command : Command
  response : Bool
deriving Repr, DecidableEq

structure UlMapEntry where
  command : Command
  response : Bool
  ul : Ul

def makeUl (byte12 byte13 : UInt8) : Ul :=
  ⟨[0x06, 0x0e, 0x2b, 0x34, 0x02, 0x05, 0x01, 0x01,
    0x02, 0x07, 0x01, byte12, byte13, 0x00, 0x00, 0x00], rfl⟩

def kUlMap : List UlMapEntry := [
  ⟨.badRequest, true, makeUl 0x01 0x01⟩,
  ⟨.getTime, false, makeUl 0x02 0x10⟩,
  ⟨.getTime, true, makeUl 0x02 0x11⟩,
  ⟨.getEventList, false, makeUl 0x02 0x12⟩,
  ⟨.getEventList, true, makeUl 0x02 0x13⟩,
  ⟨.getEventId, false, makeUl 0x02 0x14⟩,
  ⟨.getEventId, true, makeUl 0x02 0x15⟩,
  ⟨.querySpb, false, makeUl 0x02 0x16⟩,
  ⟨.querySpb, true, makeUl 0x02 0x17⟩,
  ⟨.leKeyLoad, false, makeUl 0x03 0x20⟩,
  ⟨.leKeyLoad, true, makeUl 0x03 0x21⟩,
  ⟨.leKeyQueryId, false, makeUl 0x03 0x22⟩,
  ⟨.leKeyQueryId, true, makeUl 0x03 0x23⟩,
  ⟨.leKeyQueryAll, false, makeUl 0x03 0x24⟩,
  ⟨.leKeyQueryAll, true, makeUl 0x03 0x25⟩,
  ⟨.leKeyPurgeId, false, makeUl 0x03 0x26⟩,
  ⟨.leKeyPurgeId, true, makeUl 0x03 0x27⟩,
  ⟨.leKeyPurgeAll, false, makeUl 0x03 0x28⟩,
  ⟨.leKeyPurgeAll, true, makeUl 0x03 0x29⟩]

def lookupEntry (command : Command) (response : Bool) : Except StdException UlMapEntry :=
  match kUlMap.find? (fun entry => entry.command = command ∧ entry.response = response) with
  | some entry => .ok entry
  | none => .error (.asmError "missing UL mapping")

def decodeResponseCode (value : UInt8) : Except StdException GeneralResponse :=
  match value with
  | 0x00 => .ok .successful
  | 0x01 => .ok .failed
  | 0x02 => .ok .invalid
  | 0x03 => .ok .busy
  | _ => .error (.asmError "invalid general response code")

namespace Codec

def describeUl (ul : Ul) : Except StdException CommandDescriptor :=
  match kUlMap.find? (fun entry => entry.ul = ul) with
  | some entry => .ok { command := entry.command, response := entry.response }
  | none => .error (.asmError "unknown ASM UL")

def ulFor (command : Command) (response : Bool) : Except StdException Ul := do
  let entry ← lookupEntry command response
  .ok entry.ul

def encodeRequest (request : StandardRequest) : Except StdException KlvPacket := do
  let ul ← ulFor request.command false
  let value := appendBeU32 [] request.requestId ++ request.payload
  .ok { ul := ul, value := value, length := UInt32.ofNat value.length }

def decodeRequest (packet : KlvPacket) : Except StdException StandardRequest := do
  let descriptor ← describeUl packet.ul
  if descriptor.response then
    .error (.asmError "request packet expected")
  else if packet.value.length < 4 then
    .error (.asmError "request payload too short for request id")
  else
    let requestId ← decodeBeU32 packet.value 0
    .ok { command := descriptor.command, requestId := requestId, payload := packet.value.drop 4 }

/-- The `if` of `encode_response`: the value's first bytes, before the payload is appended. -/
def encodeResponseId (response : StandardResponse) : Except StdException ByteBuffer :=
  if response.command ≠ .badRequest then
    match response.requestId with
    | none => .error (.asmError "response request id missing")
    | some requestId => .ok (appendBeU32 [] requestId)
  else .ok []

def encodeResponse (response : StandardResponse) : Except StdException KlvPacket := do
  let ul ← ulFor response.command true
  let head ← encodeResponseId response
  let value := head ++ response.payload ++ [response.responseCode.toByte]
  .ok { ul := ul, value := value, length := UInt32.ofNat value.length }

def decodeResponse (packet : KlvPacket) : Except StdException StandardResponse := do
  let descriptor ← describeUl packet.ul
  if ¬ descriptor.response then
    .error (.asmError "response packet expected")
  else if h : packet.value = [] then
    .error (.asmError "response payload too short")
  else
    let responseCode ← decodeResponseCode (packet.value.getLast h)
    if descriptor.command = .badRequest then
      .ok { command := descriptor.command, responseCode := responseCode,
            payload := packet.value.dropLast }
    else if packet.value.length < 5 then
      .error (.asmError "response payload too short for request id")
    else
      let requestId ← decodeBeU32 packet.value 0
      .ok { command := descriptor.command, responseCode := responseCode, requestId := some requestId,
            payload := (packet.value.drop 4).dropLast }

/-! ## The label table -/

theorem kUlMap_describe : ∀ entry ∈ kUlMap,
    describeUl entry.ul = .ok { command := entry.command, response := entry.response } := by
  decide

theorem kUlMap_ulFor : ∀ entry ∈ kUlMap, ulFor entry.command entry.response = .ok entry.ul := by
  decide

/-- **The table is a bijection** between its labels and its (command, direction) pairs: looking a
    label up and looking its pair up are inverse. -/
theorem describeUl_eq_ok_iff {ul : Ul} {command : Command} {response : Bool} :
    describeUl ul = .ok { command := command, response := response } ↔
      ulFor command response = .ok ul := by
  constructor
  · intro h
    unfold describeUl at h
    split at h
    · next entry hfind =>
        have hul : entry.ul = ul := by simpa using List.find?_some hfind
        have hfor := kUlMap_ulFor entry (List.mem_of_find?_eq_some hfind)
        simp only [Except.ok.injEq, CommandDescriptor.mk.injEq] at h
        rw [← h.1, ← h.2, hfor, hul]
    · exact absurd h (by simp)
  · intro h
    unfold ulFor lookupEntry at h
    split at h
    · next entry hfind =>
        have hpair : entry.command = command ∧ entry.response = response := by
          simpa using List.find?_some hfind
        have hdesc := kUlMap_describe entry (List.mem_of_find?_eq_some hfind)
        simp only [Except.ok_bind, Except.ok.injEq] at h
        rw [← h, hdesc, hpair.1, hpair.2]
    · exact absurd h (by simp)

/-- Every command but `BadRequest` has a request label. -/
theorem returns_ulFor_false_iff {command : Command} :
    (ulFor command false).Returns ↔ command ≠ .badRequest := by
  cases command <;> simp [Except.Returns, ulFor, lookupEntry, kUlMap]

/-- Every command has a response label. -/
theorem returns_ulFor_true (command : Command) : (ulFor command true).Returns := by
  cases command <;> simp [Except.Returns, ulFor, lookupEntry, kUlMap]

/-- The response label of a command is its request label with the thirteenth byte one higher. -/
theorem ulFor_true_eq {command : Command} {ul : Ul} (h : ulFor command false = .ok ul) :
    ∃ ul', ulFor command true = .ok ul' ∧ ul'.val = ul.val.modify 12 (· + 1) := by
  cases command <;> simp [ulFor, lookupEntry, kUlMap] at h ⊢ <;> subst h <;> rfl

theorem decodeResponseCode_eq_ok_iff {byte : UInt8} {code : GeneralResponse} :
    decodeResponseCode byte = .ok code ↔ byte = code.toByte := by
  constructor
  · intro h
    unfold decodeResponseCode at h
    split at h <;> simp only [Except.ok.injEq, reduceCtorEq] at h <;> subst h <;> rfl
  · rintro rfl
    cases code <;> rfl

/-! ## Requests -/

theorem encodeRequest_eq_ok_iff {request : StandardRequest} {packet : KlvPacket} :
    encodeRequest request = .ok packet ↔
      ulFor request.command false = .ok packet.ul ∧
        packet.value = u32Bytes request.requestId ++ request.payload ∧
        packet.length = UInt32.ofNat packet.value.length := by
  unfold encodeRequest
  simp only [Except.bind_eq_ok_iff, Except.ok.injEq, appendBeU32_eq, List.nil_append]
  constructor
  · intro hparts
    rcases hparts with ⟨ul, hul, rfl⟩
    exact ⟨hul, rfl, rfl⟩
  · intro hparts
    rcases hparts with ⟨hul, hvalue, hlength⟩
    refine ⟨packet.ul, hul, ?_⟩
    obtain ⟨ul, length, value⟩ := packet
    simp only at hvalue hlength
    rw [← hvalue, hlength]

/-- **What `decode_request` accepts**: a request label, and a value that starts with the request
    id. -/
theorem decodeRequest_eq_ok_iff {packet : KlvPacket} {request : StandardRequest} :
    decodeRequest packet = .ok request ↔
      ulFor request.command false = .ok packet.ul ∧
        packet.value = u32Bytes request.requestId ++ request.payload := by
  unfold decodeRequest
  simp only [Except.bind_eq_ok_iff]
  constructor
  · intro hparts
    rcases hparts with ⟨⟨command, response⟩, hdesc, h⟩
    split at h
    · exact absurd h (by simp)
    · next hresp =>
        split at h
        · exact absurd h (by simp)
        · next hlen =>
            obtain ⟨requestId, hid, hreq⟩ := Except.bind_eq_ok_iff.1 h
            simp only [Except.ok.injEq] at hreq
            subst hreq
            simp only [Bool.not_eq_true] at hresp
            subst hresp
            rw [decodeBeU32_eq_ok_iff, List.drop_zero] at hid
            exact ⟨describeUl_eq_ok_iff.1 hdesc, by rw [← hid, List.take_append_drop]⟩
  · intro hparts
    rcases hparts with ⟨hul, hvalue⟩
    refine ⟨_, describeUl_eq_ok_iff.2 hul, ?_⟩
    have hlen : ¬ packet.value.length < 4 := by rw [hvalue]; simp
    have hid : decodeBeU32 packet.value 0 = .ok request.requestId := by
      rw [decodeBeU32_eq_ok_iff, List.drop_zero, hvalue, List.take_left' (u32Bytes_length _)]
    simp only [Bool.false_eq_true, if_false, if_neg hlen, hid, Except.ok_bind]
    rw [hvalue, List.drop_left' (u32Bytes_length _)]

/-! ## Responses -/

/-- The bytes of a response value before the payload. -/
def responseHead (response : StandardResponse) : ByteBuffer :=
  match response.requestId with
  | some requestId => u32Bytes requestId
  | none => []

/-- The request id is there exactly when the command has one. -/
def WellIdentified (response : StandardResponse) : Prop :=
  response.requestId = none ↔ response.command = .badRequest

theorem encodeResponseId_of_wellIdentified {response : StandardResponse}
    (hwell : WellIdentified response) :
    encodeResponseId response = .ok (responseHead response) := by
  obtain ⟨command, requestId, payload, responseCode⟩ := response
  simp only [WellIdentified] at hwell
  unfold encodeResponseId responseHead
  cases requestId with
  | none => simp [hwell.1 rfl]
  | some requestId =>
      have hcmd : command ≠ .badRequest := fun hc => by simpa using hwell.2 hc
      simp [hcmd, appendBeU32_eq]

theorem encodeResponse_eq_ok_iff {response : StandardResponse} {packet : KlvPacket}
    (hwell : WellIdentified response) :
    encodeResponse response = .ok packet ↔
      ulFor response.command true = .ok packet.ul ∧
        packet.value = responseHead response ++ response.payload ++ [response.responseCode.toByte] ∧
        packet.length = UInt32.ofNat packet.value.length := by
  unfold encodeResponse
  simp only [encodeResponseId_of_wellIdentified hwell, Except.bind_eq_ok_iff, Except.ok.injEq]
  constructor
  · intro hparts
    rcases hparts with ⟨ul, hul, _, rfl, rfl⟩
    exact ⟨hul, rfl, rfl⟩
  · intro hparts
    rcases hparts with ⟨hul, hvalue, hlength⟩
    refine ⟨packet.ul, hul, _, rfl, ?_⟩
    obtain ⟨ul, length, value⟩ := packet
    simp only at hvalue hlength
    rw [← hvalue, hlength]

/-- What a decoded response says about its packet. -/
theorem value_of_decodeResponse {packet : KlvPacket} {response : StandardResponse}
    (h : decodeResponse packet = .ok response) :
    WellIdentified response ∧ ulFor response.command true = .ok packet.ul ∧
      packet.value = responseHead response ++ response.payload ++ [response.responseCode.toByte] := by
  unfold decodeResponse at h
  obtain ⟨⟨command, isResponse⟩, hdesc, h⟩ := Except.bind_eq_ok_iff.1 h
  simp only at h
  split at h
  · exact absurd h (by simp)
  · next hresp =>
      have hresp' : isResponse = true := by simpa using hresp
      subst hresp'
      have hul := describeUl_eq_ok_iff.1 hdesc
      split at h
      · exact absurd h (by simp)
      · next hne =>
          obtain ⟨code, hcode, h⟩ := Except.bind_eq_ok_iff.1 h
          have hlast := decodeResponseCode_eq_ok_iff.1 hcode
          split at h
          · next hbad =>
              simp only [Except.ok.injEq] at h
              subst h
              refine ⟨by simp [WellIdentified, hbad], hul, ?_⟩
              simp only [responseHead, List.nil_append]
              rw [← hlast, List.dropLast_append_getLast]
          · next hbad =>
              split at h
              · exact absurd h (by simp)
              · next hlen =>
                  obtain ⟨requestId, hid, h⟩ := Except.bind_eq_ok_iff.1 h
                  simp only [Except.ok.injEq] at h
                  subst h
                  refine ⟨by simp [WellIdentified, hbad], hul, ?_⟩
                  rw [decodeBeU32_eq_ok_iff, List.drop_zero] at hid
                  -- the last byte is the code also of what follows the id
                  have hne4 : packet.value.drop 4 ≠ [] := by
                    intro hnil
                    have := congrArg List.length hnil
                    simp only [List.length_drop, List.length_nil] at this
                    omega
                  have hlast4 : packet.value.getLast hne = (packet.value.drop 4).getLast hne4 :=
                    (List.getLast_drop hne4).symm
                  simp only [responseHead]
                  rw [← hlast, hlast4, List.append_assoc, List.dropLast_append_getLast, ← hid,
                    List.take_append_drop]

/-- A packet of this form is decoded. -/
theorem decodeResponse_of_value {packet : KlvPacket} {response : StandardResponse}
    (hwell : WellIdentified response) (hul : ulFor response.command true = .ok packet.ul)
    (hvalue : packet.value
      = responseHead response ++ response.payload ++ [response.responseCode.toByte]) :
    decodeResponse packet = .ok response := by
  unfold decodeResponse
  rw [Except.bind_eq_ok_iff]
  refine ⟨_, describeUl_eq_ok_iff.2 hul, ?_⟩
  -- the code is the last byte, behind the id and the payload
  have hne : packet.value ≠ [] := by rw [hvalue]; simp
  have hlast : packet.value.getLast hne = response.responseCode.toByte := by simp [hvalue]
  have hcode : decodeResponseCode (packet.value.getLast hne) = .ok response.responseCode :=
    decodeResponseCode_eq_ok_iff.2 hlast
  have hdropLast : packet.value.dropLast = responseHead response ++ response.payload := by
    simp [hvalue]
  simp only [not_true_eq_false, if_false, dif_neg hne, hcode, Except.ok_bind]
  obtain ⟨command, requestId, payload, responseCode⟩ := response
  simp only [WellIdentified] at hwell
  cases requestId with
  | none =>
      have hcmd : command = .badRequest := hwell.1 rfl
      simp only [hcmd, if_true]
      rw [hdropLast]
      simp [responseHead]
  | some requestId =>
      have hcmd : command ≠ .badRequest := fun hc => by simpa using hwell.2 hc
      simp only [responseHead] at hvalue hdropLast
      have hlen : ¬ packet.value.length < 5 := by rw [hvalue]; simp; omega
      have hid : decodeBeU32 packet.value 0 = .ok requestId := by
        rw [decodeBeU32_eq_ok_iff, List.drop_zero, hvalue, List.append_assoc,
          List.take_left' (u32Bytes_length _)]
      simp only [hcmd, if_false, if_neg hlen, hid, Except.ok_bind]
      rw [hvalue, List.append_assoc, List.drop_left' (u32Bytes_length _), List.dropLast_concat]

/-- **What `decode_response` accepts**: a response label, and a value made of the request id (unless
    `BadRequest`), a payload and one of the four response codes. -/
theorem decodeResponse_eq_ok_iff {packet : KlvPacket} {response : StandardResponse} :
    decodeResponse packet = .ok response ↔
      WellIdentified response ∧ ulFor response.command true = .ok packet.ul ∧
        packet.value
          = responseHead response ++ response.payload ++ [response.responseCode.toByte] :=
  ⟨value_of_decodeResponse, fun ⟨hwell, hul, hvalue⟩ => decodeResponse_of_value hwell hul hvalue⟩

end Codec

end AsmProto
