import AsmProto.EventFile
import AsmProto.Initiator

set_option autoImplicit false

/-! # What the initiator makes of its arguments

`main` hands every number to `std::stoul` or `std::stoull`, which convert the digits they find after
blanks and a sign and look at nothing behind them, and casts ids and times to 32 bits. Here is which
texts are sent as the number they are, and which as another. -/

namespace AsmProto

open Numeral

namespace Initiator

/-! ## The numbers on a command line -/

/-- The arguments `main` converts to a number. -/
inductive NumericArgument where
  | timeStart
  | timeStop
  | eventId
  | loadKeyId
  | expireTime
  | attributeData
  | queryKeyId
  | purgeKeyId
deriving Repr, DecidableEq

namespace NumericArgument

/-- The command that takes the argument, and its name on the command line. -/
def command : NumericArgument → Command
  | timeStart => .getEventList
  | timeStop => .getEventList
  | eventId => .getEventId
  | loadKeyId => .leKeyLoad
  | expireTime => .leKeyLoad
  | attributeData => .leKeyLoad
  | queryKeyId => .leKeyQueryId
  | purgeKeyId => .leKeyPurgeId

/-- Its place behind the command. -/
def index : NumericArgument → ℕ
  | timeStart => 0
  | timeStop => 1
  | eventId => 0
  | loadKeyId => 0
  | expireTime => 2
  | attributeData => 3
  | queryKeyId => 0
  | purgeKeyId => 0

/-- How many bytes its field takes in the payload. -/
def width : NumericArgument → ℕ
  | attributeData => 8
  | _ => 4

/-- Where the field starts; a load has a batch header before its record, and the key after the id. -/
def offset : NumericArgument → ℕ
  | timeStart => 0
  | timeStop => 4
  | eventId => 0
  | loadKeyId => 8
  | expireTime => 28
  | attributeData => 32
  | queryKeyId => 0
  | purgeKeyId => 0

end NumericArgument

/-- An unsigned decimal numeral, and nothing else, for a field of so many bytes. -/
structure NumeralFits (width : ℕ) (text : StdString) : Prop where
  nonempty : text ≠ []
  digits : ∀ c ∈ text, isDigit 10 c = true
  fits : value 10 text < 2 ^ (8 * width)

/-- The text is sent as the number it is, or no request with it is built. -/
def SendsTyped (argument : NumericArgument) (text : StdString) : Prop :=
  ∀ argv request, buildRequest argv = .ok (some request) → request.command = argument.command →
    argv[3 + argument.index]? = some text →
    NumeralFits argument.width text ∧
      (request.payload.drop argument.offset).take argument.width
        = bigEndian argument.width (value 10 text)

/-- There are digits behind the blanks and the sign, and they are not too many for 64 bits; but the
    text is more than these digits, or their number too large for the field. -/
structure Misread (width : ℕ) (text : StdString) : Prop where
  nonempty : scannedDigits 10 text ≠ []
  converts : value 10 (scannedDigits 10 text) < 2 ^ 64
  differs : scannedDigits 10 text ≠ text ∨ 2 ^ (8 * width) ≤ value 10 (scannedDigits 10 text)

theorem width_le (argument : NumericArgument) : 8 * argument.width ≤ 64 := by
  cases argument <;> decide

/-- A text that converts and is not misread is a numeral that fits, and the other way round. -/
theorem numeralFits_iff {width : ℕ} {text : StdString} (hwidth : 8 * width ≤ 64) :
    NumeralFits width text ↔
      (scannedDigits 10 text ≠ [] ∧ value 10 (scannedDigits 10 text) < 2 ^ 64) ∧
        ¬ Misread width text := by
  refine ⟨fun h => ?_, fun h => ?_⟩
  · have hlt : value 10 text < 2 ^ 64 := h.fits.trans_le (Nat.pow_le_pow_right (by decide) hwidth)
    have hself := scannedDigits_of_digits h.digits
    refine ⟨by rw [hself]; exact ⟨h.nonempty, hlt⟩, fun hmisread => ?_⟩
    rcases hmisread.differs with hmore | hlarge
    · exact hmore hself
    · rw [hself] at hlarge
      exact absurd h.fits (by omega)
  · obtain ⟨⟨hne, hlt⟩, hmisread⟩ := h
    have hself : scannedDigits 10 text = text := by
      by_contra hmore
      exact hmisread ⟨hne, hlt, Or.inl hmore⟩
    have hfits : value 10 (scannedDigits 10 text) < 2 ^ (8 * width) := by
      by_contra hlarge
      exact hmisread ⟨hne, hlt, Or.inr (by omega)⟩
    rw [hself] at hne hfits
    exact ⟨hne, scannedDigits_eq_self_iff.1 hself, hfits⟩

/-! ## From the text to the payload -/

/-- The bytes between two parts of a payload. -/
theorem take_drop_between {before field after : ByteBuffer} {offset width : ℕ}
    (hoffset : before.length = offset) (hwidth : field.length = width) :
    ((before ++ (field ++ after)).drop offset).take width = field := by
  rw [List.drop_left' hoffset, List.take_left' hwidth]

theorem u32Bytes_toUInt32 (number : UInt64) :
    u32Bytes number.toUInt32 = bigEndian 4 (number.toNat % 2 ^ 32) := by
  rw [u32Bytes, UInt64.toNat_toUInt32]

theorem parseU32_eq_ok_iff {text : StdString} {field : UInt32} :
    parseU32 text = .ok field ↔ ∃ number, stoul text 10 = .ok number ∧ number.toUInt32 = field := by
  simp only [parseU32, Except.bind_eq_ok_iff, Except.ok.injEq]

/-- The payload of a load, field by field. -/
theorem encodeLoadRequest_singleton (key : LeKeyRecord) :
    ∃ header : ByteBuffer, header.length = 8 ∧ LeKeyPayloadCodec.encodeLoadRequest [key]
      = header ++ (u32Bytes key.keyId
        ++ (key.key.val ++ (u32Bytes key.expireTime ++ u64Bytes key.attributeData))) := by
  rw [LeKeyPayloadCodec.encodeLoadRequest_eq]
  exact ⟨u32Bytes 1 ++ u32Bytes 32, by simp, by simp [batchBytes, recordItem, recordBytes]⟩

/-- The payload of one id. -/
theorem field_of_idPayload {text : StdString} {payload : ByteBuffer}
    (h : (do
      let id ← parseU32 text
      .ok (appendBeU32 [] id) : Except StdException ByteBuffer) = .ok payload) :
    ∃ number, stoul text 10 = .ok number ∧
      (payload.drop 0).take 4 = bigEndian 4 (number.toNat % 2 ^ 32) := by
  simp only [Except.bind_eq_ok_iff, parseU32_eq_ok_iff, Except.ok.injEq] at h
  obtain ⟨_, ⟨number, hnumber, rfl⟩, rfl⟩ := h
  refine ⟨number, hnumber, ?_⟩
  rw [appendBeU32_eq, List.nil_append, List.drop_zero, List.take_of_length_le (by simp),
    u32Bytes_toUInt32]

/-- The payload of a window. -/
theorem parts_of_requestPayload_window {arguments : List StdString} {payload : ByteBuffer}
    (h : requestPayload .getEventList arguments = .ok payload) :
    ∃ timeStart timeStop : UInt64, stoul (arguments.getD 0 []) 10 = .ok timeStart ∧
      stoul (arguments.getD 1 []) 10 = .ok timeStop ∧
      payload = u32Bytes timeStart.toUInt32 ++ u32Bytes timeStop.toUInt32 := by
  simp only [requestPayload, Except.bind_eq_ok_iff, parseU32_eq_ok_iff, Except.ok.injEq] at h
  obtain ⟨_, ⟨timeStart, hstart, rfl⟩, _, ⟨timeStop, hstop, rfl⟩, rfl⟩ := h
  refine ⟨timeStart, timeStop, hstart, hstop, ?_⟩
  rw [GetEventListPayloadCodec.encodeRequest, appendBeU32_eq, appendBeU32_eq, List.nil_append]

/-- The payload of a load. -/
theorem parts_of_requestPayload_load {arguments : List StdString} {payload : ByteBuffer}
    (h : requestPayload .leKeyLoad arguments = .ok payload) :
    ∃ (keyId expireTime attributeData : UInt64) (header key : ByteBuffer),
      stoul (arguments.getD 0 []) 10 = .ok keyId ∧
      stoul (arguments.getD 2 []) 10 = .ok expireTime ∧
      stoull (arguments.getD 3 []) 10 = .ok attributeData ∧ header.length = 8 ∧ key.length = 16 ∧
      payload = header ++ (u32Bytes keyId.toUInt32
        ++ (key ++ (u32Bytes expireTime.toUInt32 ++ u64Bytes attributeData))) := by
  simp only [requestPayload, Except.bind_eq_ok_iff, parseU32_eq_ok_iff, Except.ok.injEq] at h
  obtain ⟨_, ⟨keyId, hkeyId, rfl⟩, key, -, _, ⟨expireTime, hexpire, rfl⟩, attributeData, hattribute,
    rfl⟩ := h
  obtain ⟨header, hheader, hpayload⟩ := encodeLoadRequest_singleton
    { keyId := keyId.toUInt32, key := key, expireTime := expireTime.toUInt32,
      attributeData := attributeData }
  exact ⟨keyId, expireTime, attributeData, header, key.val, hkeyId, hexpire, hattribute, hheader,
    key.property, hpayload⟩

/-- **What a payload holds of an argument**: the number that was converted, modulo the width of its
    field. -/
theorem field_of_requestPayload {argument : NumericArgument} {arguments : List StdString}
    {payload : ByteBuffer} (h : requestPayload argument.command arguments = .ok payload) :
    ∃ name number, stoUnsigned name (arguments.getD argument.index []) 10 = .ok number ∧
      (payload.drop argument.offset).take argument.width
        = bigEndian argument.width (number.toNat % 2 ^ (8 * argument.width)) := by
  cases argument with
  | eventId =>
      obtain ⟨number, hnumber, hfield⟩ := field_of_idPayload h
      exact ⟨_, number, hnumber, hfield⟩
  | queryKeyId =>
      obtain ⟨number, hnumber, hfield⟩ := field_of_idPayload h
      exact ⟨_, number, hnumber, hfield⟩
  | purgeKeyId =>
      obtain ⟨number, hnumber, hfield⟩ := field_of_idPayload h
      exact ⟨_, number, hnumber, hfield⟩
  | timeStart =>
      obtain ⟨timeStart, timeStop, hstart, -, rfl⟩ := parts_of_requestPayload_window h
      refine ⟨_, timeStart, hstart, ?_⟩
      rw [u32Bytes_toUInt32]
      exact List.take_left' (bigEndian_length 4 _)
  | timeStop =>
      obtain ⟨timeStart, timeStop, -, hstop, rfl⟩ := parts_of_requestPayload_window h
      refine ⟨_, timeStop, hstop, ?_⟩
      rw [u32Bytes_toUInt32 timeStop, ← List.append_nil (bigEndian _ _)]
      exact take_drop_between (u32Bytes_length _) (bigEndian_length 4 _)
  | loadKeyId =>
      obtain ⟨keyId, _, _, header, key, hkeyId, -, -, hheader, -, rfl⟩ :=
        parts_of_requestPayload_load h
      refine ⟨_, keyId, hkeyId, ?_⟩
      rw [u32Bytes_toUInt32]
      exact take_drop_between hheader (bigEndian_length 4 _)
  | expireTime =>
      obtain ⟨keyId, expireTime, _, header, key, -, hexpire, -, hheader, hkey, rfl⟩ :=
        parts_of_requestPayload_load h
      refine ⟨_, expireTime, hexpire, ?_⟩
      rw [u32Bytes_toUInt32 expireTime, ← List.append_assoc, ← List.append_assoc]
      exact take_drop_between (by simp [hheader, hkey, NumericArgument.offset]) (bigEndian_length 4 _)
  | attributeData =>
      obtain ⟨keyId, expireTime, attributeData, header, key, -, -, hattribute, hheader, hkey, rfl⟩ :=
        parts_of_requestPayload_load h
      refine ⟨_, attributeData, hattribute, ?_⟩
      have hnumber : attributeData.toNat % 2 ^ 64 = attributeData.toNat :=
        Nat.mod_eq_of_lt attributeData.toNat_lt
      show _ = bigEndian 8 (attributeData.toNat % 2 ^ 64)
      rw [hnumber, ← List.append_assoc, ← List.append_assoc, ← List.append_assoc,
        ← List.append_nil (u64Bytes _)]
      exact take_drop_between (by simp [hheader, hkey, NumericArgument.offset]) (bigEndian_length 8 _)

/-- An argument that is built into a request was converted. -/
theorem field_of_buildRequest {argument : NumericArgument} {argv : List StdString}
    {request : StandardRequest} {text : StdString} (h : buildRequest argv = .ok (some request))
    (hcommand : request.command = argument.command) (htext : argv[3 + argument.index]? = some text) :
    ∃ name number, stoUnsigned name text 10 = .ok number ∧
      (request.payload.drop argument.offset).take argument.width
        = bigEndian argument.width (number.toNat % 2 ^ (8 * argument.width)) := by
  obtain ⟨command, argc, payload, -, -, -, hpayload, rfl⟩ := buildRequest_eq_some_iff.1 h
  obtain rfl : command = argument.command := hcommand
  have hget : (argv.drop 3).getD argument.index [] = text := by
    rw [List.getD_eq_getElem?_getD, List.getElem?_drop, htext, Option.getD_some]
  rw [← hget]
  exact field_of_requestPayload hpayload

/-- The command line of a command, as the README writes it. -/
def commandLine (name : String) (arguments : List StdString) : List StdString :=
  ascii "asm_initiator" :: ascii "127.0.0.1" :: ascii name
    :: (arguments ++ [ascii "cert.pem", ascii "key.pem", ascii "ca.pem"])

theorem buildRequest_commandLine {name : String} {command : Command} {arguments : List StdString}
    {payload : ByteBuffer} (hname : parseCommand (ascii name) = .ok command)
    (hargc : commandArgc command = some arguments.length)
    (hpayload : requestPayload command
      (arguments ++ [ascii "cert.pem", ascii "key.pem", ascii "ca.pem"]) = .ok payload) :
    buildRequest (commandLine name arguments)
      = .ok (some { command := command, requestId := 1, payload := payload }) := by
  have hlen : (commandLine name arguments).length = 3 + arguments.length + 3 := by
    simp [commandLine]
    omega
  have hcommand : (commandLine name arguments).getD 2 [] = ascii name := rfl
  have hdrop : (commandLine name arguments).drop 3
      = arguments ++ [ascii "cert.pem", ascii "key.pem", ascii "ca.pem"] := rfl
  refine buildRequest_eq_some_iff.2 ⟨command, _, payload, ?_, hargc, hlen, ?_, rfl⟩
  · rw [hcommand, hname]
  · rw [hdrop, hpayload]

/-- A command line with the text in its place, whose payload can be built. -/
theorem exists_of_commandLine {argument : NumericArgument} {text : StdString} (name : String)
    (arguments : List StdString) (hname : parseCommand (ascii name) = .ok argument.command)
    (hargc : commandArgc argument.command = some arguments.length)
    (htext : arguments[argument.index]? = some text)
    (hreturns : (requestPayload argument.command
      (arguments ++ [ascii "cert.pem", ascii "key.pem", ascii "ca.pem"])).Returns) :
    ∃ argv request, buildRequest argv = .ok (some request) ∧ request.command = argument.command ∧
      argv[3 + argument.index]? = some text := by
  obtain ⟨payload, hpayload⟩ := hreturns
  refine ⟨commandLine name arguments, _, buildRequest_commandLine hname hargc hpayload, rfl, ?_⟩
  obtain ⟨hlt, -⟩ := List.getElem?_eq_some_iff.1 htext
  rw [← htext, ← List.getElem?_drop]
  exact List.getElem?_append_left hlt

/-- A load builds its payload when its three numbers convert. -/
theorem returns_requestPayload_load {keyId expireTime attributeData : StdString} {id time : UInt32}
    {data : UInt64} (hid : parseU32 keyId = .ok id) (htime : parseU32 expireTime = .ok time)
    (hdata : stoull attributeData 10 = .ok data) (files : List StdString) :
    (requestPayload .leKeyLoad ([keyId, bytesToHex (FixedBytes.zero 16).val, expireTime,
      attributeData] ++ files)).Returns := by
  have hkey := keyFromHex_bytesToHex (.runtimeError "LE key hex must be 32 characters") (.zero 16)
  exact ⟨_, Except.bind_eq_ok_iff.2 ⟨_, hid, Except.bind_eq_ok_iff.2 ⟨_, hkey,
    Except.bind_eq_ok_iff.2 ⟨_, htime, Except.bind_eq_ok_iff.2 ⟨_, hdata, rfl⟩⟩⟩⟩⟩

/-- A text that converts is built into some request, whatever it stands for. -/
theorem exists_buildRequest (argument : NumericArgument) {text : StdString}
    (h : scannedDigits 10 text ≠ [] ∧ value 10 (scannedDigits 10 text) < 2 ^ 64) :
    ∃ argv request, buildRequest argv = .ok (some request) ∧ request.command = argument.command ∧
      argv[3 + argument.index]? = some text := by
  -- the other arguments of its command are 0
  have hzero : parseU32 (ascii "0") = .ok 0 := rfl
  have hzeroWide : stoull (ascii "0") 10 = .ok 0 := rfl
  obtain ⟨wide, hwide⟩ := (@returns_stoUnsigned_iff "stoull" text 10).2 h
  obtain ⟨number, hscan⟩ := (@returns_stoUnsigned_iff "stoul" text 10).2 h
  have hnumber : parseU32 text = .ok number.toUInt32 := parseU32_eq_ok_iff.2 ⟨number, hscan, rfl⟩
  have hid : ∀ encode : UInt32 → ByteBuffer,
      (do
        let id ← parseU32 text
        .ok (encode id) : Except StdException ByteBuffer).Returns :=
    fun encode => ⟨_, Except.bind_eq_ok_iff.2 ⟨_, hnumber, rfl⟩⟩
  cases argument with
  | timeStart =>
      exact exists_of_commandLine "get-event-list" [text, ascii "0"] rfl rfl rfl
        ⟨_, Except.bind_eq_ok_iff.2 ⟨_, hnumber, Except.bind_eq_ok_iff.2 ⟨_, hzero, rfl⟩⟩⟩
  | timeStop =>
      exact exists_of_commandLine "get-event-list" [ascii "0", text] rfl rfl rfl
        ⟨_, Except.bind_eq_ok_iff.2 ⟨_, hzero, Except.bind_eq_ok_iff.2 ⟨_, hnumber, rfl⟩⟩⟩
  | eventId => exact exists_of_commandLine "get-event-id" [text] rfl rfl rfl (hid _)
  | queryKeyId => exact exists_of_commandLine "le-key-query-id" [text] rfl rfl rfl (hid _)
  | purgeKeyId => exact exists_of_commandLine "le-key-purge-id" [text] rfl rfl rfl (hid _)
  | loadKeyId =>
      exact exists_of_commandLine "le-key-load" [_, _, _, _] rfl rfl rfl
        (returns_requestPayload_load hnumber hzero hzeroWide _)
  | expireTime =>
      exact exists_of_commandLine "le-key-load" [_, _, _, _] rfl rfl rfl
        (returns_requestPayload_load hzero hnumber hzeroWide _)
  | attributeData =>
      exact exists_of_commandLine "le-key-load" [_, _, _, _] rfl rfl rfl
        (returns_requestPayload_load hzero hzero hwide _)

/-- **When a number is sent as it was typed.** -/
theorem sendsTyped_iff {argument : NumericArgument} {text : StdString} :
    SendsTyped argument text ↔ ¬ Misread argument.width text := by
  have hwidth := width_le argument
  refine ⟨fun hsends hmisread => ?_, fun hmisread argv request hbuilt hcommand htext => ?_⟩
  · obtain ⟨argv, request, hbuilt, hcommand, htext⟩ :=
      exists_buildRequest argument ⟨hmisread.nonempty, hmisread.converts⟩
    exact ((numeralFits_iff hwidth).1 (hsends argv request hbuilt hcommand htext).1).2 hmisread
  · obtain ⟨name, number, hnumber, hfield⟩ := field_of_buildRequest hbuilt hcommand htext
    have hfits := (numeralFits_iff hwidth).2
      ⟨returns_stoUnsigned_iff.1 ⟨number, hnumber⟩, hmisread⟩
    obtain ⟨hlt, rfl⟩ := (stoUnsigned_digits_eq_ok_iff hfits.nonempty hfits.digits).1 hnumber
    rw [UInt64.toNat_ofNat', Nat.mod_eq_of_lt hlt, Nat.mod_eq_of_lt hfits.fits] at hfield
    exact ⟨hfits, hfield⟩

/-! ## The key -/

/-- The text is taken for a key exactly when it is 32 hexadecimal digits, and then for its own key. -/
structure KeyTyped (text : StdString) : Prop where
  accepted : (parseKeyHex text).Returns ↔ text.length = 32 ∧ ∀ c ∈ text, isDigit 16 c = true
  hex : ∀ key, parseKeyHex text = .ok key → bytesToHex key.val = text.map toLower

/-- 32 characters, not all of them hexadecimal digits, each pair of which converts: it starts with a
    digit, or is a blank or a sign and then a digit. -/
structure LaxKey (text : StdString) : Prop where
  length : text.length = 32
  notDigits : ∃ c ∈ text, isDigit 16 c = false
  converts : ∀ i < 16, ∃ a b, (text.drop (i * 2)).take 2 = [a, b] ∧
    (isDigit 16 a = true ∨ (isSpace a = true ∨ a = 45 ∨ a = 43) ∧ isDigit 16 b = true)

/-- Two characters never overflow. -/
theorem returns_stoul_pair_iff {text : StdString} (hlen : text.length = 32) {i : ℕ} (hi : i < 16) :
    (stoul ((text.drop (i * 2)).take 2) 16).Returns ↔
      ∃ a b, (text.drop (i * 2)).take 2 = [a, b] ∧
        (isDigit 16 a = true ∨ (isSpace a = true ∨ a = 45 ∨ a = 43) ∧ isDigit 16 b = true) := by
  obtain ⟨a, b, hpair⟩ := List.length_eq_two.1
    (show ((text.drop (i * 2)).take 2).length = 2 by simp; omega)
  rw [stoul, returns_stoUnsigned_iff, hpair, scannedDigits_pair_ne_nil_iff]
  have hsmall : value 16 (scannedDigits 16 [a, b]) < 2 ^ 64 :=
    (value_scannedDigits_lt (show 0 < 16 by decide) [a, b]).trans (show 16 ^ 2 < 2 ^ 64 by decide)
  rw [and_iff_left hsmall]
  refine ⟨fun h => ⟨a, b, rfl, h⟩, fun h => ?_⟩
  obtain ⟨_, _, heq, h⟩ := h
  obtain ⟨rfl, rfl⟩ := List.cons_eq_cons.1 heq |>.imp_right fun htail => (List.cons.inj htail).1
  exact h

/-- Printing the value of a hexadecimal digit gives it back in lower case. -/
theorem digitChar_charDigit {c : UInt8} (h : isDigit 16 c = true) :
    digitChar ((charDigit c).getD 0) = toLower c := by
  have hlt := digit_lt h
  have hc := c.toNat_lt
  apply UInt8.toNat_inj.1
  unfold isDigit charDigit at h
  unfold charDigit at hlt ⊢
  unfold digitChar toLower
  simp only [UInt8.le_iff_toNat_le, UInt8.reduceToNat] at h hlt ⊢
  by_cases hdecimal : 48 ≤ c.toNat ∧ c.toNat ≤ 57
  · have hd : c.toNat - 48 < 10 := by omega
    have hupper : ¬ (65 ≤ c.toNat ∧ c.toNat ≤ 90) := by omega
    simp only [if_pos hdecimal, Option.getD_some, if_pos hd, if_neg hupper, UInt8.toNat_ofNat']
    omega
  · by_cases hlower : 97 ≤ c.toNat ∧ c.toNat ≤ 122
    · have hd : ¬ c.toNat - 87 < 10 := by omega
      have hupper : ¬ (65 ≤ c.toNat ∧ c.toNat ≤ 90) := by omega
      simp only [if_neg hdecimal, if_pos hlower, Option.getD_some, if_neg hd, if_neg hupper,
        UInt8.toNat_ofNat'] at hlt ⊢
      omega
    · by_cases hupper : 65 ≤ c.toNat ∧ c.toNat ≤ 90
      · have hd : ¬ c.toNat - 55 < 10 := by omega
        simp only [if_neg hdecimal, if_neg hlower, if_pos hupper, Option.getD_some, if_neg hd,
          UInt8.toNat_ofNat', UInt8.toNat_add, UInt8.reduceToNat] at hlt ⊢
        omega
      · simp [hdecimal, hlower, hupper] at h

/-- A byte is printed as the two digits it was read from. -/
theorem printPadded_value_pair {a b : UInt8} (ha : isDigit 16 a = true) (hb : isDigit 16 b = true) :
    printPadded 16 2 (value 16 [a, b]) = [toLower a, toLower b] := by
  have hhigh := digit_lt ha
  have hlow := digit_lt hb
  have hvalue : value 16 [a, b] = (charDigit a).getD 0 * 16 + (charDigit b).getD 0 := by
    simp [value]
  have hbyte : value 16 [a, b] = (UInt8.ofNat (value 16 [a, b])).toNat := by
    rw [UInt8.toNat_ofNat', Nat.mod_eq_of_lt (by omega)]
  have hdiv : value 16 [a, b] / 16 = (charDigit a).getD 0 := by omega
  have hmod : value 16 [a, b] % 16 = (charDigit b).getD 0 := by omega
  rw [hbyte, printPadded_byte, ← hbyte, hdiv, hmod, digitChar_charDigit ha, digitChar_charDigit hb]

/-- A text of even length is its pairs. -/
theorem flatMap_pairs {α : Type} {n : ℕ} {text : List α} (h : text.length = 2 * n) :
    ((List.range n).flatMap fun i => (text.drop (i * 2)).take 2) = text := by
  induction n generalizing text with
  | zero => rw [List.length_eq_zero_iff.1 h, List.range_zero, List.flatMap_nil]
  | succ n ih =>
      match text with
      | [] => simp at h
      | [a] =>
          rw [List.length_singleton] at h
          omega
      | a :: b :: rest =>
          have hrest : ((List.range n).flatMap fun i => (rest.drop (i * 2)).take 2) = rest :=
            ih (by simp only [List.length_cons] at h; omega)
          rw [List.range_succ_eq_map, List.flatMap_cons, List.flatMap_map]
          simp only [Nat.succ_eq_add_one, Nat.add_mul, Nat.one_mul, List.drop_succ_cons]
          rw [hrest]
          rfl

/-- The key that 32 digits stand for prints as these digits in lower case. -/
theorem bytesToHex_hexBytes {text : StdString} (hlen : text.length = 32)
    (hdigits : ∀ c ∈ text, isDigit 16 c = true) : bytesToHex (hexBytes text).val = text.map toLower := by
  have hpair : ∀ i ∈ List.range 16,
      printPadded 16 2 (UInt8.ofNat (value 16 ((text.drop (i * 2)).take 2))).toNat
        = ((text.drop (i * 2)).take 2).map toLower := by
    intro i hi
    have hlt := List.mem_range.1 hi
    obtain ⟨a, b, hab⟩ := List.length_eq_two.1
      (show ((text.drop (i * 2)).take 2).length = 2 by simp; omega)
    have hmem : ∀ c ∈ [a, b], isDigit 16 c = true := by
      intro c hc
      rw [← hab] at hc
      exact hdigits c (List.mem_of_mem_drop (List.mem_of_mem_take hc))
    have hsmall : value 16 [a, b] < 2 ^ 8 := value_lt hmem
    rw [hab, UInt8.toNat_ofNat', Nat.mod_eq_of_lt hsmall,
      printPadded_value_pair (hmem a (by simp)) (hmem b (by simp))]
    rfl
  rw [bytesToHex, hexBytes, List.flatMap_map, List.flatMap_congr hpair, ← List.map_flatMap,
    flatMap_pairs hlen]

/-- **When a text is taken for the key it is.** -/
theorem keyTyped_iff {text : StdString} : KeyTyped text ↔ ¬ LaxKey text := by
  have hreturns : (parseKeyHex text).Returns ↔ text.length = 32 ∧ ∀ i < 16, ∃ a b,
      (text.drop (i * 2)).take 2 = [a, b] ∧
        (isDigit 16 a = true ∨ (isSpace a = true ∨ a = 45 ∨ a = 43) ∧ isDigit 16 b = true) := by
    rw [parseKeyHex, returns_keyFromHex_iff]
    exact and_congr_right fun hlen => forall₂_congr fun i hi => returns_stoul_pair_iff hlen hi
  refine ⟨fun htyped hlax => ?_, fun hnot => ?_⟩
  · obtain ⟨c, hc, hdigit⟩ := hlax.notDigits
    have hall := (htyped.accepted.1 (hreturns.2 ⟨hlax.length, hlax.converts⟩)).2
    rw [hall c hc] at hdigit
    exact absurd hdigit (by simp)
  · have hdigits : (parseKeyHex text).Returns → ∀ c ∈ text, isDigit 16 c = true := by
      intro hparse
      obtain ⟨hlen, hconverts⟩ := hreturns.1 hparse
      intro c hc
      by_contra hdigit
      exact hnot ⟨hlen, ⟨c, hc, Bool.eq_false_iff.2 hdigit⟩, hconverts⟩
    refine ⟨⟨fun hparse => ⟨(hreturns.1 hparse).1, hdigits hparse⟩, fun h => ?_⟩, fun key hkey => ?_⟩
    · exact ⟨_, keyFromHex_of_digits h.1 h.2⟩
    · have hall := hdigits ⟨key, hkey⟩
      have hlen := (hreturns.1 ⟨key, hkey⟩).1
      obtain rfl := Except.ok.inj ((keyFromHex_of_digits hlen hall).symm.trans hkey)
      exact bytesToHex_hexBytes hlen hall

/-- **What the initiator sends of what was typed.** For every text given for a number: whatever request
    is built with it, the text is an unsigned decimal numeral for the width of its field and the payload
    holds that number, if and only if it is not misread. For every text given as the key: it is taken
    for a key exactly when it is 32 hexadecimal digits, and then for its own key, if and only if it is
    no lax key. -/
theorem initiator_sends_typed_iff (argument : NumericArgument) (text : StdString) :
    (SendsTyped argument text ↔ ¬ Misread argument.width text) ∧ (KeyTyped text ↔ ¬ LaxKey text) :=
  ⟨sendsTyped_iff, keyTyped_iff⟩

/-- Sixteen times a sign and a digit. -/
def signedKey : StdString := (List.replicate 16 (ascii "-1")).flatten

/-- Purging key 4294967303 purges key 7, and a key of signs loads a key of ones. -/
theorem purge_hits_another_key :
    buildRequest (commandLine "le-key-purge-id" [ascii "4294967303"])
        = .ok (some { command := .leKeyPurgeId, requestId := 1,
                      payload := LeKeyPayloadCodec.encodePurgeIdRequest 7 }) ∧
    ¬ SendsTyped .purgeKeyId (ascii "4294967303") ∧
    parseKeyHex signedKey = .ok ⟨List.replicate 16 0xff, rfl⟩ ∧ ¬ KeyTyped signedKey := by
  refine ⟨by decide, ?_, by decide, ?_⟩
  · rw [sendsTyped_iff, not_not]
    exact ⟨by decide, by decide, Or.inr (by decide)⟩
  · intro htyped
    have hhex := htyped.hex ⟨List.replicate 16 0xff, rfl⟩ (by decide)
    exact absurd hhex (by decide)

end Initiator

end AsmProto
