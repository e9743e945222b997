import AsmProto.Initiator

set_option autoImplicit false

/-! # Orders

An order is a command line of the initiator without its spelling: a command with the values of its
arguments. Every request `main` builds is the request of an order, and every order can be typed. -/

namespace AsmProto

/-- What an operator can ask of the responder. -/
inductive Order where
  | getTime
  | querySpb
  | eventList (timeStart timeStop : UInt32)
  | event (eventId : UInt32)
  | load (key : LeKeyRecord)
  | query (keyId : UInt32)
  | queryAll
  | purge (keyId : UInt32)
  | purgeAll
deriving DecidableEq

namespace Order

open Initiator

def command : Order → Command
  | .getTime => .getTime
  | .querySpb => .querySpb
  | .eventList _ _ => .getEventList
  | .event _ => .getEventId
  | .load _ => .leKeyLoad
  | .query _ => .leKeyQueryId
  | .queryAll => .leKeyQueryAll
  | .purge _ => .leKeyPurgeId
  | .purgeAll => .leKeyPurgeAll

def payload : Order → ByteBuffer
  | .eventList timeStart timeStop =>
      GetEventListPayloadCodec.encodeRequest { timeStart := timeStart, timeStop := timeStop }
  | .event eventId => GetEventIdPayloadCodec.encodeRequest eventId
  | .load key => LeKeyPayloadCodec.encodeLoadRequest [key]
  | .query keyId => LeKeyPayloadCodec.encodeQueryIdRequest keyId
  | .purge keyId => LeKeyPayloadCodec.encodePurgeIdRequest keyId
  | .getTime => []
  | .querySpb => []
  | .queryAll => []
  | .purgeAll => []

def request (order : Order) : StandardRequest :=
  { command := order.command, requestId := 1, payload := order.payload }

/-- The command on the command line. -/
def name : Order → String
  | .getTime => "get-time"
  | .querySpb => "query-spb"
  | .eventList _ _ => "get-event-list"
  | .event _ => "get-event-id"
  | .load _ => "le-key-load"
  | .query _ => "le-key-query-id"
  | .queryAll => "le-key-query-all"
  | .purge _ => "le-key-purge-id"
  | .purgeAll => "le-key-purge-all"

def numeral (number : ℕ) : StdString := Numeral.print 10 number

/-- The arguments of the command on the command line. -/
def arguments : Order → List StdString
  | .eventList timeStart timeStop => [numeral timeStart.toNat, numeral timeStop.toNat]
  | .event eventId => [numeral eventId.toNat]
  | .load key => [numeral key.keyId.toNat, bytesToHex key.key.val, numeral key.expireTime.toNat,
      numeral key.attributeData.toNat]
  | .query keyId => [numeral keyId.toNat]
  | .purge keyId => [numeral keyId.toNat]
  | .getTime => []
  | .querySpb => []
  | .queryAll => []
  | .purgeAll => []

/-- A command line for an order. -/
def argv (order : Order) (program host certificate privateKey caCertificate : StdString) :
    List StdString :=
  program :: host :: ascii order.name :: (order.arguments ++ [certificate, privateKey, caCertificate])

theorem parseCommand_name (order : Order) : parseCommand (ascii order.name) = .ok order.command := by
  have heventList : parseCommand (ascii "get-event-list") = .ok .getEventList := rfl
  have hevent : parseCommand (ascii "get-event-id") = .ok .getEventId := rfl
  have hload : parseCommand (ascii "le-key-load") = .ok .leKeyLoad := rfl
  have hquery : parseCommand (ascii "le-key-query-id") = .ok .leKeyQueryId := rfl
  have hpurge : parseCommand (ascii "le-key-purge-id") = .ok .leKeyPurgeId := rfl
  cases order with
  | getTime => rfl
  | querySpb => rfl
  | queryAll => rfl
  | purgeAll => rfl
  | eventList timeStart timeStop => exact heventList
  | event eventId => exact hevent
  | load key => exact hload
  | query keyId => exact hquery
  | purge keyId => exact hpurge

theorem commandArgc_command (order : Order) :
    commandArgc order.command = some order.arguments.length := by
  cases order <;> rfl

theorem parseU32_numeral (number : UInt32) : parseU32 (numeral number.toNat) = .ok number := by
  rw [parseU32, numeral, stoul_print_u32, Except.ok_bind]
  congr 1
  exact UInt32.toNat_inj.1 (by simp)

theorem requestPayload_arguments (order : Order) (files : List StdString) :
    requestPayload order.command (order.arguments ++ files) = .ok order.payload := by
  cases order with
  | getTime => rfl
  | querySpb => rfl
  | queryAll => rfl
  | purgeAll => rfl
  | eventList timeStart timeStop =>
      have hstart := parseU32_numeral timeStart
      have hstop := parseU32_numeral timeStop
      simp only [command, arguments, payload, requestPayload, List.cons_append, List.nil_append,
        List.getD_cons_zero, List.getD_cons_succ, hstart, hstop, Except.ok_bind]
  | event eventId =>
      have hid := parseU32_numeral eventId
      simp only [command, arguments, payload, requestPayload, List.cons_append, List.nil_append,
        List.getD_cons_zero, hid, Except.ok_bind]
  | query keyId =>
      have hid := parseU32_numeral keyId
      simp only [command, arguments, payload, requestPayload, List.cons_append, List.nil_append,
        List.getD_cons_zero, hid, Except.ok_bind]
  | purge keyId =>
      have hid := parseU32_numeral keyId
      simp only [command, arguments, payload, requestPayload, List.cons_append, List.nil_append,
        List.getD_cons_zero, hid, Except.ok_bind]
  | load key =>
      have hid := parseU32_numeral key.keyId
      have hkey : parseKeyHex (bytesToHex key.key.val) = .ok key.key := keyFromHex_bytesToHex _ key.key
      have htime := parseU32_numeral key.expireTime
      have hdata : stoull (numeral key.attributeData.toNat) 10 = .ok key.attributeData :=
        stoull_print_u64 key.attributeData
      simp only [command, arguments, payload, requestPayload, List.cons_append, List.nil_append,
        List.getD_cons_zero, List.getD_cons_succ, hid, hkey, htime, hdata, Except.ok_bind]

/-- **Every order can be typed**, in the notation of the README. -/
theorem buildRequest_argv (order : Order)
    (program host certificate privateKey caCertificate : StdString) :
    buildRequest (order.argv program host certificate privateKey caCertificate)
      = .ok (some order.request) := by
  refine buildRequest_eq_some_iff.2 ⟨order.command, order.arguments.length, order.payload,
    order.parseCommand_name, order.commandArgc_command, ?_, order.requestPayload_arguments _, rfl⟩
  simp only [argv, List.length_cons, List.length_append, List.length_nil]
  omega

/-- **Every request that is built is that of an order**, however it was typed. -/
theorem exists_order {argv : List StdString} {request : StandardRequest}
    (h : buildRequest argv = .ok (some request)) : ∃ order : Order, request = order.request := by
  obtain ⟨command, argc, payload, hparse, hargc, -, hpayload, rfl⟩ := buildRequest_eq_some_iff.1 h
  cases command with
  | badRequest => cases hargc
  | getTime => exact ⟨.getTime, by obtain rfl := Except.ok.inj hpayload; rfl⟩
  | querySpb => exact ⟨.querySpb, by obtain rfl := Except.ok.inj hpayload; rfl⟩
  | leKeyQueryAll => exact ⟨.queryAll, by obtain rfl := Except.ok.inj hpayload; rfl⟩
  | leKeyPurgeAll => exact ⟨.purgeAll, by obtain rfl := Except.ok.inj hpayload; rfl⟩
  | getEventList =>
      obtain ⟨timeStart, -, hpayload⟩ := Except.bind_eq_ok_iff.1 hpayload
      obtain ⟨timeStop, -, hpayload⟩ := Except.bind_eq_ok_iff.1 hpayload
      obtain rfl := Except.ok.inj hpayload
      exact ⟨.eventList timeStart timeStop, rfl⟩
  | getEventId =>
      obtain ⟨eventId, -, hpayload⟩ := Except.bind_eq_ok_iff.1 hpayload
      obtain rfl := Except.ok.inj hpayload
      exact ⟨.event eventId, rfl⟩
  | leKeyLoad =>
      obtain ⟨keyId, -, hpayload⟩ := Except.bind_eq_ok_iff.1 hpayload
      obtain ⟨key, -, hpayload⟩ := Except.bind_eq_ok_iff.1 hpayload
      obtain ⟨expireTime, -, hpayload⟩ := Except.bind_eq_ok_iff.1 hpayload
      obtain ⟨attributeData, -, hpayload⟩ := Except.bind_eq_ok_iff.1 hpayload
      obtain rfl := Except.ok.inj hpayload
      exact ⟨.load _, rfl⟩
  | leKeyQueryId =>
      obtain ⟨keyId, -, hpayload⟩ := Except.bind_eq_ok_iff.1 hpayload
      obtain rfl := Except.ok.inj hpayload
      exact ⟨.query keyId, rfl⟩
  | leKeyPurgeId =>
      obtain ⟨keyId, -, hpayload⟩ := Except.bind_eq_ok_iff.1 hpayload
      obtain rfl := Except.ok.inj hpayload
      exact ⟨.purge keyId, rfl⟩

end Order

end AsmProto
