import AsmProto.TlsStream
import AsmProto.Wire

set_option autoImplicit false

/-! # The TLS client

`TlsClient::send_request`: one request out, one response in. -/

namespace AsmProto

structure ClientExchangeResult where
  response : StandardResponse
  peerThumbprint : StdString
deriving DecidableEq

namespace TlsClient

/-- The bytes of one read, decoded. -/
def readResponse : EStateM Fault TlsStream StandardResponse := do
  let responseBytes ← readOneMessage
  let packet ← throwing (Klv.decode responseBytes)
  throwing (Codec.decodeResponse packet)

/-- `handshake` is the outcome of everything before the first write: the context, the connection,
    `SSL_connect`, and the checks on the peer's certificate. -/
def sendRequest (handshake : Except Fault PeerIdentity) (request : StandardRequest) :
    EStateM Fault TlsStream ClientExchangeResult := do
  let peer ← EStateM.liftExcept handshake
  let encoded ← throwing (encodeRequestFrame request)
  writeAll encoded
  let response ← readResponse
  return { response := response, peerThumbprint := peer.sha256Thumbprint }

/-- The client decodes the first 4096 bytes of what is pending. -/
theorem run_readResponse {stream : TlsStream} {frame : ByteBuffer}
    {rest : List (Except SslFailure ByteBuffer)} (h : stream.incoming = .ok frame :: rest)
    (hne : frame ≠ []) :
    ∃ stream', readResponse.run stream = match decodeResponseFrame (frame.take 4096) with
      | .ok response => .ok response stream'
      | .error ex => .error (.exception ex) stream' := by
  refine ⟨{ stream with incoming :=
    if frame.length ≤ 4096 then rest else .ok (frame.drop 4096) :: rest }, ?_⟩
  unfold readResponse decodeResponseFrame
  rw [EStateM.run_bind, run_readOneMessage h hne]
  simp only [EStateM.run_bind]
  cases Klv.decode (frame.take 4096) with
  | error ex => rfl
  | ok packet =>
      simp only [run_throwing_ok, Except.ok_bind]
      cases Codec.decodeResponse packet <;> rfl

/-- **A pending frame is read back as its response exactly when it fits the buffer of one read.** -/
theorem readResponse_returns_iff {response : StandardResponse} {frame : ByteBuffer}
    (hframe : decodeResponseFrame frame = .ok response) :
    (∃ stream', readResponse.run { incoming := [.ok frame] } = .ok response stream') ↔
      frame.length ≤ 4096 := by
  obtain ⟨packet, hpacket, -⟩ := Except.bind_eq_ok_iff.1 hframe
  have hne : frame ≠ [] := by
    obtain ⟨-, -, hbytes⟩ := Klv.eq_frameBytes_of_decode hpacket
    intro hnil
    have hlen := congrArg List.length (hnil.symm.trans hbytes)
    rw [frameBytes_length, List.length_nil] at hlen
    omega
  obtain ⟨stream', hrun⟩ := @run_readResponse { incoming := [.ok frame] } _ _ rfl hne
  rw [hrun]
  by_cases hlen : frame.length ≤ 4096
  · rw [List.take_of_length_le hlen, hframe]
    exact iff_of_true ⟨stream', rfl⟩ hlen
  · -- what is left of a longer frame is refused for its length
    have hcut : frame.take 4096 ≠ frame := by
      intro heq
      have := congrArg List.length heq
      rw [List.length_take] at this
      omega
    obtain ⟨ex, hex⟩ := Except.not_returns_iff.1
      (Klv.not_returns_decode_of_initial hpacket (List.take_prefix 4096 frame) hcut)
    rw [decodeResponseFrame, hex, Except.error_bind]
    exact iff_of_false (by simp) hlen

end TlsClient

end AsmProto
