import AsmProto.Jsonl
import AsmProto.RequestLayout
import AsmProto.TlsClient

set_option autoImplicit false

/-! # The initiator

`asm_initiator.cpp`: the request `main` builds from its arguments, and what it prints of the response.
The switch over the response decodes the payload by command alone, whatever the response code. -/

namespace AsmProto

namespace Initiator

def parseCommand (value : StdString) : Except StdException Command :=
  if value = ascii "get-time" then .ok .getTime
  else if value = ascii "query-spb" then .ok .querySpb
  else if value = ascii "get-event-list" then .ok .getEventList
  else if value = ascii "get-event-id" then .ok .getEventId
  else if value = ascii "le-key-load" then .ok .leKeyLoad
  else if value = ascii "le-key-query-id" then .ok .leKeyQueryId
  else if value = ascii "le-key-query-all" then .ok .leKeyQueryAll
  else if value = ascii "le-key-purge-id" then .ok .leKeyPurgeId
  else if value = ascii "le-key-purge-all" then .ok .leKeyPurgeAll
  else .error (.runtimeError "unsupported command")

def parseKeyHex (hex : StdString) : Except StdException (FixedBytes 16) :=
  keyFromHex (.runtimeError "LE key hex must be 32 characters") hex

/-- `command_argc`; `BadRequest` is response-only. -/
def commandArgc : Command → Option ℕ
  | .getTime => some 0
  | .querySpb => some 0
  | .leKeyQueryAll => some 0
  | .leKeyPurgeAll => some 0
  | .getEventId => some 1
  | .leKeyQueryId => some 1
  | .leKeyPurgeId => some 1
  | .getEventList => some 2
  | .leKeyLoad => some 4
  | .badRequest => none

/-- `static_cast<std::uint32_t>(std::stoul(argument))`. -/
def parseU32 (argument : StdString) : Except StdException UInt32 := do
  let value ← stoul argument 10
  .ok value.toUInt32

/-- The payload for the arguments that follow the command. -/
def requestPayload (command : Command) (arguments : List StdString) : Except StdException ByteBuffer :=
  match command with
  | .getEventList => do
      let timeStart ← parseU32 (arguments.getD 0 [])
      let timeStop ← parseU32 (arguments.getD 1 [])
      .ok (GetEventListPayloadCodec.encodeRequest { timeStart := timeStart, timeStop := timeStop })
  | .getEventId => do
      let eventId ← parseU32 (arguments.getD 0 [])
      .ok (GetEventIdPayloadCodec.encodeRequest eventId)
  | .leKeyLoad => do
      let keyId ← parseU32 (arguments.getD 0 [])
      let key ← parseKeyHex (arguments.getD 1 [])
      let expireTime ← parseU32 (arguments.getD 2 [])
      let attributeData ← stoull (arguments.getD 3 []) 10
      .ok (LeKeyPayloadCodec.encodeLoadRequest
        [{ keyId := keyId, key := key, expireTime := expireTime, attributeData := attributeData }])
  | .leKeyQueryId => do
      let keyId ← parseU32 (arguments.getD 0 [])
      .ok (LeKeyPayloadCodec.encodeQueryIdRequest keyId)
  | .leKeyPurgeId => do
      let keyId ← parseU32 (arguments.getD 0 [])
      .ok (LeKeyPayloadCodec.encodePurgeIdRequest keyId)
  | _ => .ok []

/-- The request `main` builds; `none` when it prints its usage and returns 1. -/
def buildRequest (argv : List StdString) : Except StdException (Option StandardRequest) :=
  if argv.length < 6 then .ok none
  else do
    let command ← parseCommand (argv.getD 2 [])
    match commandArgc command with
    | none => .ok none
    | some argc =>
        -- program, host and command before the arguments, three files behind them
        if argv.length ≠ 3 + argc + 3 then .ok none
        else do
          let payload ← requestPayload command (argv.drop 3)
          .ok (some { command := command, requestId := 1, payload := payload })

/-- **When `main` builds a request**, and which. -/
theorem buildRequest_eq_some_iff {argv : List StdString} {request : StandardRequest} :
    buildRequest argv = .ok (some request) ↔
      ∃ command argc payload, parseCommand (argv.getD 2 []) = .ok command ∧
        commandArgc command = some argc ∧ argv.length = 3 + argc + 3 ∧
        requestPayload command (argv.drop 3) = .ok payload ∧
        request = { command := command, requestId := 1, payload := payload } := by
  unfold buildRequest
  refine ⟨fun h => ?_, fun h => ?_⟩
  · split at h
    · exact absurd h (by simp)
    · obtain ⟨command, hparse, h⟩ := Except.bind_eq_ok_iff.1 h
      split at h
      · exact absurd h (by simp)
      · next argc hargc =>
          split at h
          · exact absurd h (by simp)
          · next hlen =>
              obtain ⟨payload, hpayload, h⟩ := Except.bind_eq_ok_iff.1 h
              rw [Except.ok.injEq, Option.some.injEq] at h
              exact ⟨command, argc, payload, hparse, hargc, not_not.1 hlen, hpayload, h.symm⟩
  · obtain ⟨command, argc, payload, hparse, hargc, hlen, hpayload, rfl⟩ := h
    rw [if_neg (by omega), hparse, Except.ok_bind]
    simp only [hargc, if_neg (not_not.2 hlen), hpayload, Except.ok_bind]

/-! ## Printing the response -/

/-- `std::cout <<`; what was printed stays when a later decoder throws. -/
def print (text : StdString) : EStateM StdException StdString Unit := modify (· ++ text)

/-- Ids separated by commas. -/
def idsText (ids : List UInt32) : StdString :=
  (ascii ",").intercalate (ids.map fun id => Numeral.print 10 id.toNat)

def flagText (flag : Bool) : StdString := if flag then ascii "true" else ascii "false"

/-- The `switch` over the command of the response. -/
def printPayload (response : StandardResponse) : EStateM StdException StdString Unit :=
  match response.command with
  | .getTime => do
      -- the one field whose name is inserted before its value is decoded
      print (ascii " epoch=")
      let epoch ← EStateM.liftExcept (decodeBeU64 response.payload 0)
      print (Numeral.print 10 epoch.toNat)
  | .querySpb => do
      let payload ← EStateM.liftExcept (QuerySpbPayloadCodec.decodeResponse response.payload)
      print (ascii " protocol_ver=" ++ Numeral.print 10 payload.protocolVersion.toNat
        ++ ascii " status=" ++ payload.status.toText)
  | .getEventList => do
      let eventIds ← EStateM.liftExcept (GetEventListPayloadCodec.decodeResponse response.payload)
      print (ascii " event_count=" ++ Numeral.print 10 eventIds.length ++ ascii " event_ids="
        ++ idsText eventIds)
  | .getEventId => do
      let xml ← EStateM.liftExcept (GetEventIdPayloadCodec.decodeResponse response.payload)
      print (ascii " xml=" ++ xml)
  | .leKeyLoad => do
      let overflow ← EStateM.liftExcept (LeKeyPayloadCodec.decodeLoadResponse response.payload)
      print (ascii " overflow=" ++ flagText overflow)
  | .leKeyQueryId => do
      let keyPresent ← EStateM.liftExcept (LeKeyPayloadCodec.decodeQueryIdResponse response.payload)
      print (ascii " key_present=" ++ flagText keyPresent)
  | .leKeyQueryAll => do
      let keyIds ← EStateM.liftExcept (LeKeyPayloadCodec.decodeQueryAllResponse response.payload)
      print (ascii " key_count=" ++ Numeral.print 10 keyIds.length ++ ascii " key_ids="
        ++ idsText keyIds)
  | .leKeyPurgeId => do
      let noKeyId ← EStateM.liftExcept (LeKeyPayloadCodec.decodePurgeIdResponse response.payload)
      print (ascii " no_key_id=" ++ flagText noKeyId)
  | .badRequest => print (ascii " request_copy_hex=" ++ bytesToHex response.payload)
  | .leKeyPurgeAll => return ()

def printResult (result : ClientExchangeResult) : EStateM StdException StdString Unit := do
  print (ascii "peer=" ++ result.peerThumbprint ++ ascii " command=" ++ result.response.command.toText
    ++ ascii " response=" ++ result.response.responseCode.toText)
  match result.response.requestId with
  | some requestId => print (ascii " request_id=" ++ Numeral.print 10 requestId.toNat)
  | none => pure ()
  printPayload result.response
  print (ascii "\n")

/-! ## What can throw -/

/-- The decoder for the command of the response accepts its payload. -/
def PayloadDecodes (response : StandardResponse) : Prop :=
  match response.command with
  | .getTime => (decodeBeU64 response.payload 0).Returns
  | .querySpb => (QuerySpbPayloadCodec.decodeResponse response.payload).Returns
  | .getEventList => (GetEventListPayloadCodec.decodeResponse response.payload).Returns
  | .getEventId => (GetEventIdPayloadCodec.decodeResponse response.payload).Returns
  | .leKeyLoad => (LeKeyPayloadCodec.decodeLoadResponse response.payload).Returns
  | .leKeyQueryId => (LeKeyPayloadCodec.decodeQueryIdResponse response.payload).Returns
  | .leKeyQueryAll => (LeKeyPayloadCodec.decodeQueryAllResponse response.payload).Returns
  | .leKeyPurgeId => (LeKeyPayloadCodec.decodePurgeIdResponse response.payload).Returns
  | .badRequest => True
  | .leKeyPurgeAll => True

@[simp] theorem run_print (text out : StdString) : (print text).run out = .ok () (out ++ text) := rfl

/-- Decoding and printing throws exactly when the decoder does. -/
theorem threw_decode_print_iff {α : Type} {decoded : Except StdException α} {text : α → StdString}
    {out : StdString} :
    (((do
      let value ← EStateM.liftExcept decoded
      print (text value)) : EStateM StdException StdString Unit).run out).Threw ↔ ¬ decoded.Returns := by
  rw [EStateM.run_bind]
  cases decoded with
  | ok value => exact iff_of_false (EStateM.Result.threw_ok _ _) (not_not.2 ⟨value, rfl⟩)
  | error ex => exact iff_of_true trivial (fun ⟨_, h⟩ => nomatch h)

theorem threw_printPayload_iff {response : StandardResponse} {out : StdString} :
    ((printPayload response).run out).Threw ↔ ¬ PayloadDecodes response := by
  unfold printPayload PayloadDecodes
  cases response.command with
  | badRequest => exact iff_of_false (EStateM.Result.threw_ok _ _) (not_not.2 trivial)
  | leKeyPurgeAll => exact iff_of_false (EStateM.Result.threw_ok _ _) (not_not.2 trivial)
  | getTime =>
      simp only [EStateM.run_bind, run_print]
      exact threw_decode_print_iff
  | querySpb => exact threw_decode_print_iff
  | getEventList => exact threw_decode_print_iff
  | getEventId => exact threw_decode_print_iff
  | leKeyLoad => exact threw_decode_print_iff
  | leKeyQueryId => exact threw_decode_print_iff
  | leKeyQueryAll => exact threw_decode_print_iff
  | leKeyPurgeId => exact threw_decode_print_iff

/-- A time without its bytes is announced before it is missed. -/
example : ((printPayload { command := .getTime, requestId := some 1, payload := []
                           responseCode := .successful }).run []).state = ascii " epoch=" := rfl

/-- **The initiator fails on a response exactly when its payload decoder does.** -/
theorem threw_printResult_iff {result : ClientExchangeResult} {out : StdString} :
    ((printResult result).run out).Threw ↔ ¬ PayloadDecodes result.response := by
  unfold printResult
  have hrest : ∀ out : StdString,
      (((do
        printPayload result.response
        print (ascii "\n")) : EStateM StdException StdString Unit).run out).Threw
        ↔ ¬ PayloadDecodes result.response := by
    intro out
    rw [← @threw_printPayload_iff _ out, EStateM.run_bind]
    cases (printPayload result.response).run out with
    | ok value out' => exact Iff.rfl
    | error ex out' => exact Iff.rfl
  simp only [EStateM.run_bind, run_print]
  cases result.response.requestId with
  | some requestId => exact hrest _
  | none => exact hrest _

end Initiator

end AsmProto
