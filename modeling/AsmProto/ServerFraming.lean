import AsmProto.ServerReply

set_option autoImplicit false

/-! # How the server cuts messages out of the stream

`read_one_message` takes what the first `SSL_read` returns for a whole message, and nothing puts
pieces together by the length field of the frame. So a request reaches the service exactly when its
frame arrives in one piece. -/

namespace AsmProto

open TlsServer

/-- In this session the service was called with exactly this request and the complete frame of it;
    at most, its reply could then not be sent. -/
def PassesRequest {σ : Type} (session : Session σ) (peer : PeerIdentity) (request : StandardRequest)
    (frame : ByteBuffer) : Prop :=
  ∃ failures, session.calls = .handleRequest request frame peer :: failures ∧
    ∀ call ∈ failures, ∃ reason, call = .handleDecodeFailure frame reason

variable {σ : Type} {service : AsmService σ} {peer : PeerIdentity} {now : UInt64} {observer : Bool}
  {session : Session σ} {request : StandardRequest} {frame : ByteBuffer}

/-- A frame that arrives in one piece is passed on with its request. -/
theorem passesRequest_of_whole {rest : List (Except SslFailure ByteBuffer)}
    (hframe : encodeRequestFrame request = .ok frame) (hlen : frame.length ≤ 4096)
    (hincoming : session.stream.incoming = .ok frame :: rest) (hcalls : session.calls = []) :
    PassesRequest ((serveClient service (.ok peer) now observer).run session).state peer request
      frame := by
  have hdecode := decodeRequestFrame_eq_ok_iff.2 hframe
  have hne : frame ≠ [] := by
    obtain ⟨ul, -, -, rfl⟩ := encodeRequestFrame_eq_ok_iff.1 hframe
    intro hnil
    simpa using congrArg List.length hnil
  obtain ⟨failures, hrun, hfailures⟩ :=
    @calls_serveClient σ service now peer session _ _ hincoming hne observer
  rw [List.take_of_length_le hlen] at hrun hfailures
  rw [hcalls, triedCalls, hdecode] at hrun
  exact ⟨failures, hrun, hfailures⟩

/-- A proper prefix of a frame is refused: the service is told of a decode failure and nothing else. -/
theorem calls_of_cut {chunk : ByteBuffer} {rest : List (Except SslFailure ByteBuffer)}
    (hframe : encodeRequestFrame request = .ok frame) (hinitial : chunk <+: frame)
    (hcut : chunk ≠ frame) (hne : chunk ≠ []) (hlen : chunk.length ≤ 4096)
    (hincoming : session.stream.incoming = .ok chunk :: rest) (hcalls : session.calls = []) :
    ∀ call ∈ ((serveClient service (.ok peer) now observer).run session).state.calls,
      ∃ reason, call = .handleDecodeFailure chunk reason := by
  obtain ⟨failures, hrun, hfailures⟩ :=
    @calls_serveClient σ service now peer session _ _ hincoming hne observer
  rw [List.take_of_length_le hlen] at hrun hfailures
  obtain ⟨packet, hpacket, -⟩ := Except.bind_eq_ok_iff.1 (decodeRequestFrame_eq_ok_iff.2 hframe)
  obtain ⟨ex, hex⟩ := Except.not_returns_iff.1
    (Klv.not_returns_decode_of_initial hpacket hinitial hcut)
  have htried : triedCalls peer chunk = [] := by
    rw [triedCalls, decodeRequestFrame, hex, Except.error_bind]
  rw [hcalls, htried, List.nil_append, List.nil_append] at hrun
  rw [hrun]
  exact hfailures

theorem not_passesRequest_of_cut {chunk : ByteBuffer} {rest : List (Except SslFailure ByteBuffer)}
    (hframe : encodeRequestFrame request = .ok frame) (hinitial : chunk <+: frame)
    (hcut : chunk ≠ frame) (hne : chunk ≠ []) (hlen : chunk.length ≤ 4096)
    (hincoming : session.stream.incoming = .ok chunk :: rest) (hcalls : session.calls = []) :
    ¬ PassesRequest ((serveClient service (.ok peer) now observer).run session).state peer request
      frame := by
  intro hpasses
  rcases hpasses with ⟨failures, heq, -⟩
  obtain ⟨reason, hcall⟩ := calls_of_cut hframe hinitial hcut hne hlen hincoming hcalls
    (.handleRequest request frame peer) (by rw [heq]; simp)
  simp at hcall

/-- **A request is passed to the service exactly when one read returns its whole frame**, however the
    frame is split into reads of at most 4096 bytes. -/
theorem serveClient_passes_request_iff {σ : Type} (service : AsmService σ) (peer : PeerIdentity)
    (now : UInt64) (observer : Bool) (session : Session σ) (request : StandardRequest)
    (frame : ByteBuffer) (chunks : List ByteBuffer) (hframe : encodeRequestFrame request = .ok frame)
    (hchunks : chunks.flatten = frame)
    (hsizes : ∀ chunk ∈ chunks, chunk ≠ [] ∧ chunk.length ≤ 4096)
    (hincoming : session.stream.incoming = chunks.map .ok) (hcalls : session.calls = []) :
    PassesRequest ((serveClient service (.ok peer) now observer).run session).state peer request frame
      ↔ chunks = [frame] := by
  match chunks with
  | [] =>
      obtain ⟨ul, -, -, hbytes⟩ := encodeRequestFrame_eq_ok_iff.1 hframe
      have hlen := congrArg List.length (hchunks.trans hbytes)
      rw [frameBytes_length, List.flatten_nil, List.length_nil] at hlen
      omega
  | chunk :: rest =>
      obtain ⟨hne, hlen⟩ := hsizes chunk (by simp)
      have hinitial : chunk <+: frame := ⟨rest.flatten, by rw [← hchunks, List.flatten_cons]⟩
      by_cases hwhole : chunk = frame
      · -- nothing is left for further reads, and none of them is empty
        have hrest : rest = [] := by
          rw [List.flatten_cons, hwhole] at hchunks
          have hnil := List.flatten_eq_nil_iff.1 (List.append_right_eq_self.1 hchunks)
          match rest with
          | [] => rfl
          | next :: others =>
              exact absurd (hnil next (by simp)) (hsizes next (by simp)).1
        subst hrest
        rw [hwhole] at hincoming hlen ⊢
        exact iff_of_true (passesRequest_of_whole hframe hlen hincoming hcalls) rfl
      · refine iff_of_false
          (not_passesRequest_of_cut hframe hinitial hwhole hne hlen hincoming hcalls) ?_
        intro heq
        exact hwhole (List.cons.inj heq).1

/-- Sixteen keys fill 544 bytes, more than one 512-byte record. -/
def sixteenKeyLoad : StandardRequest where
  command := .leKeyLoad
  requestId := 1
  payload := LeKeyPayloadCodec.encodeLoadRequest
    ((List.range 16).map fun i => blankKey (UInt32.ofNat i))

def sixteenKeyFrame : ByteBuffer := frameBytes (makeUl 0x03 0x20) (requestValue sixteenKeyLoad)

theorem length_sixteenKeyLoad : (requestValue sixteenKeyLoad).length = 524 := by
  rw [requestValue_length, sixteenKeyLoad, LeKeyPayloadCodec.encodeLoadRequest_eq, batchBytes_length]
  rfl

theorem length_sixteenKeyFrame : sixteenKeyFrame.length = 544 := by
  rw [sixteenKeyFrame, frameBytes_length, length_sixteenKeyLoad]

theorem encode_sixteenKeyLoad : encodeRequestFrame sixteenKeyLoad = .ok sixteenKeyFrame :=
  encodeRequestFrame_eq_ok_iff.2
    ⟨makeUl 0x03 0x20, rfl, by rw [length_sixteenKeyLoad]; decide, rfl⟩

/-- In one piece it is passed, over a store that holds another key. -/
theorem serveClient_passes_load :
    PassesRequest
      ((serveClient (AsmService.ofEvents []) (.ok ⟨[], [], [0x61]⟩) 0 true).run
        { store := { keys := [blankKey 16] }, stream := { incoming := [.ok sixteenKeyFrame] } }).state
      ⟨[], [], [0x61]⟩ sixteenKeyLoad sixteenKeyFrame := by
  refine (serveClient_passes_request_iff (AsmService.ofEvents []) ⟨[], [], [0x61]⟩ 0 true
    { store := { keys := [blankKey 16] }, stream := { incoming := [.ok sixteenKeyFrame] } }
    sixteenKeyLoad sixteenKeyFrame [sixteenKeyFrame] encode_sixteenKeyLoad (by simp) ?_ rfl rfl).2 rfl
  intro chunk hchunk
  rw [List.mem_singleton.1 hchunk]
  refine ⟨fun hnil => ?_, ?_⟩
  · have hlen := length_sixteenKeyFrame
    rw [hnil] at hlen
    cases hlen
  · rw [length_sixteenKeyFrame]
    decide

/-- In 512-byte records it is not passed to the service. -/
theorem sixteenKeyLoad_in_records_not_passed :
    encodeRequestFrame sixteenKeyLoad = .ok sixteenKeyFrame ∧
    ¬ PassesRequest
      ((serveClient (AsmService.ofEvents []) (.ok ⟨[], [], []⟩) 0 false).run
        { store := {},
          stream := { incoming := [.ok (sixteenKeyFrame.take 512), .ok (sixteenKeyFrame.drop 512)] }
        }).state
      ⟨[], [], []⟩ sixteenKeyLoad sixteenKeyFrame := by
  have htake : (sixteenKeyFrame.take 512).length = 512 := by
    rw [List.length_take, length_sixteenKeyFrame]
    rfl
  refine ⟨encode_sixteenKeyLoad,
    not_passesRequest_of_cut encode_sixteenKeyLoad (List.take_prefix _ _) ?_ ?_ ?_ rfl rfl⟩
  · intro heq
    rw [heq, length_sixteenKeyFrame] at htake
    exact absurd htake (by decide)
  · intro heq
    rw [heq] at htake
    exact absurd htake (by decide)
  · rw [htake]
    decide

end AsmProto
