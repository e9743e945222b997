import AsmProto.Common
import AsmProto.Lib.ClassPattern
import AsmProto.Lib.Lines
import AsmProto.Lib.Numeral

set_option autoImplicit false

/-! # Numerals and JSONL files

`std::stoul` and its relatives for a 64-bit `unsigned long`, the two hexadecimal key parsers, and the
loop with which both file-backed stores read their JSONL file: line by line, empty lines skipped, the
first bad line reported with its number. -/

namespace AsmProto

/-- `std::stoul` and `std::stoull`, which differ in the name they report. A minus sign negates
    modulo 2⁶⁴. -/
def stoUnsigned (name : String) (text : StdString) (base : ℕ) : Except StdException UInt64 :=
  match Numeral.scanUnsigned base text with
  | none => .error (.invalidArgument name)
  | some (negative, magnitude) =>
      if magnitude < 2 ^ 64 then
        .ok (if negative then -UInt64.ofNat magnitude else UInt64.ofNat magnitude)
      else .error (.outOfRange name)

def stoul (text : StdString) (base : ℕ) : Except StdException UInt64 := stoUnsigned "stoul" text base

def stoull (text : StdString) (base : ℕ) : Except StdException UInt64 :=
  stoUnsigned "stoull" text base

theorem stoUnsigned_of_scan {name : String} {text : StdString} {base magnitude : ℕ}
    (hscan : Numeral.scanUnsigned base text = some (false, magnitude)) (h : magnitude < 2 ^ 64) :
    stoUnsigned name text base = .ok (UInt64.ofNat magnitude) := by
  simp only [stoUnsigned, hscan]
  rw [if_pos h]
  rfl

/-- **What the conversions do with digits only**: the value, or out of range. -/
theorem stoUnsigned_of_digits {name : String} {text : StdString} {base : ℕ} (hne : text ≠ [])
    (hdigits : ∀ c ∈ text, Numeral.isDigit base c = true) :
    stoUnsigned name text base =
      if Numeral.value base text < 2 ^ 64 then .ok (UInt64.ofNat (Numeral.value base text))
      else .error (.outOfRange name) := by
  rw [stoUnsigned, Numeral.scanUnsigned_of_digits hne hdigits]
  rfl

theorem stoUnsigned_digits_eq_ok_iff {name : String} {text : StdString} {base : ℕ} {value : UInt64}
    (hne : text ≠ []) (hdigits : ∀ c ∈ text, Numeral.isDigit base c = true) :
    stoUnsigned name text base = .ok value ↔
      Numeral.value base text < 2 ^ 64 ∧ value = UInt64.ofNat (Numeral.value base text) := by
  rw [stoUnsigned_of_digits hne hdigits]
  split
  · next hlt => rw [Except.ok.injEq, and_iff_right hlt, eq_comm]
  · next hge => exact iff_of_false (by simp) (fun h => hge h.1)

/-- **When a text converts at all.** -/
theorem returns_stoUnsigned_iff {name : String} {text : StdString} {base : ℕ} :
    (stoUnsigned name text base).Returns ↔
      Numeral.scannedDigits base text ≠ [] ∧
        Numeral.value base (Numeral.scannedDigits base text) < 2 ^ 64 := by
  obtain ⟨negative, hscan⟩ := Numeral.scanUnsigned_eq base text
  rw [stoUnsigned, hscan]
  by_cases hnil : Numeral.scannedDigits base text = []
  · rw [if_pos hnil]
    exact iff_of_false (by simp [Except.Returns]) fun h => h.1 hnil
  · rw [if_neg hnil]
    by_cases hlt : Numeral.value base (Numeral.scannedDigits base text) < 2 ^ 64
    · exact iff_of_true ⟨_, if_pos hlt⟩ ⟨hnil, hlt⟩
    · refine iff_of_false ?_ fun h => hlt h.2
      simp only [if_neg hlt]
      simp [Except.Returns]

theorem stoul_print_u32 (value : UInt32) :
    stoul (Numeral.print 10 value.toNat) 10 = .ok (UInt64.ofNat value.toNat) :=
  stoUnsigned_of_scan (Numeral.scanUnsigned_print (by decide) (by decide) _)
    (value.toNat_lt.trans (by decide))

theorem stoull_print_u64 (value : UInt64) :
    stoull (Numeral.print 10 value.toNat) 10 = .ok value := by
  rw [stoull, stoUnsigned_of_scan (Numeral.scanUnsigned_print (by decide) (by decide) _)
    value.toNat_lt, UInt64.ofNat_toNat]

/-! ## Keys in hexadecimal -/

/-- `std::hex` with fill `0` and width 2 for each byte. -/
def bytesToHex (bytes : List UInt8) : StdString :=
  bytes.flatMap fun byte => Numeral.printPadded 16 2 byte.toNat

def FixedBytes.set {n : ℕ} (array : FixedBytes n) (i : ℕ) (byte : UInt8) : FixedBytes n :=
  ⟨array.val.set i byte, by rw [List.length_set, array.property]⟩

/-- The common body of `hex_to_key` and the initiator's `parse_key_hex`, which differ in what they
    throw on a wrong length. -/
def keyFromHex (wrongLength : StdException) (hex : StdString) : Except StdException (FixedBytes 16) :=
  if hex.length ≠ 32 then .error wrongLength
  else
    (List.range 16).foldlM
      (fun (key : FixedBytes 16) i => do
        let pair := (hex.drop (i * 2)).take 2
        let byte ← stoul pair 16
        .ok (key.set i byte.toUInt8))
      (FixedBytes.zero 16)

def hexToKey (hex : StdString) : Except StdException (FixedBytes 16) :=
  keyFromHex (.asmError "LE key hex string must be 32 characters") hex

theorem bytesToHex_cons (byte : UInt8) (bytes : List UInt8) :
    bytesToHex (byte :: bytes)
      = Numeral.digitChar (byte.toNat / 16) :: Numeral.digitChar (byte.toNat % 16)
        :: bytesToHex bytes := by
  rw [bytesToHex, List.flatMap_cons, Numeral.printPadded_byte]
  rfl

theorem bytesToHex_length (bytes : List UInt8) : (bytesToHex bytes).length = 2 * bytes.length := by
  induction bytes with
  | nil => rfl
  | cons byte bytes ih =>
      rw [bytesToHex_cons, List.length_cons, List.length_cons, ih, List.length_cons]
      ring

theorem isDigit_of_mem_bytesToHex {bytes : List UInt8} {c : UInt8} (h : c ∈ bytesToHex bytes) :
    ∃ d < 16, c = Numeral.digitChar d := by
  induction bytes with
  | nil => simp [bytesToHex] at h
  | cons byte bytes ih =>
      have hbyte : byte.toNat < 256 := byte.toNat_lt
      rw [bytesToHex_cons, List.mem_cons, List.mem_cons] at h
      rcases h with rfl | rfl | h
      · exact ⟨byte.toNat / 16, by omega, rfl⟩
      · exact ⟨byte.toNat % 16, by omega, rfl⟩
      · exact ih h

/-- The `i`-th pair of digits is the `i`-th byte. -/
theorem stoul_pair_bytesToHex (bytes : List UInt8) (i : ℕ) (h : i < bytes.length) :
    stoul (((bytesToHex bytes).drop (i * 2)).take 2) 16 = .ok (UInt64.ofNat bytes[i].toNat) := by
  induction bytes generalizing i with
  | nil => simp at h
  | cons byte bytes ih =>
      cases i with
      | zero =>
          rw [bytesToHex_cons]
          exact stoUnsigned_of_scan (Numeral.scanUnsigned_byte byte)
            (byte.toNat_lt.trans (by decide))
      | succ i =>
          have := ih i (by simpa using h)
          rw [bytesToHex_cons, show (i + 1) * 2 = i * 2 + 2 by ring]
          exact this

/-- The bytes a hexadecimal key stands for, two digits each. -/
def hexBytes (hex : StdString) : FixedBytes 16 :=
  ⟨(List.range 16).map fun i => UInt8.ofNat (Numeral.value 16 ((hex.drop (i * 2)).take 2)), by simp⟩

/-- When every pair converts, the loop puts the bytes together. -/
theorem keyFromHex_of_pairs {wrongLength : StdException} {hex : StdString} (hlen : hex.length = 32)
    {bytes : ℕ → UInt64} (hpair : ∀ i < 16, stoul ((hex.drop (i * 2)).take 2) 16 = .ok (bytes i)) :
    keyFromHex wrongLength hex
      = .ok ⟨(List.range 16).map fun i => (bytes i).toUInt8, by simp⟩ := by
  -- after `n` turns the first `n` bytes are converted and the others still zero
  have hloop : ∀ n ≤ 16, ∃ out : FixedBytes 16, (List.range n).foldlM
      (fun (out : FixedBytes 16) i => do
        let pair := (hex.drop (i * 2)).take 2
        let byte ← stoul pair 16
        .ok (out.set i byte.toUInt8))
      (FixedBytes.zero 16) = (.ok out : Except StdException (FixedBytes 16)) ∧
      out.val = (List.range n).map (fun i => (bytes i).toUInt8) ++ List.replicate (16 - n) 0 := by
    intro n
    induction n with
    | zero => exact fun _ => ⟨FixedBytes.zero 16, rfl, rfl⟩
    | succ n ih =>
        intro hn
        obtain ⟨out, hout, hval⟩ := ih (by omega)
        refine ⟨out.set n (bytes n).toUInt8, ?_, ?_⟩
        · rw [List.range_succ, List.foldlM_append, hout, Except.ok_bind, List.foldlM_cons]
          simp only [hpair n (by omega), Except.ok_bind, List.foldlM_nil]
          rfl
        · have htail : List.replicate (16 - n) (0 : UInt8)
              = 0 :: List.replicate (16 - (n + 1)) 0 := by
            rw [show 16 - n = (16 - (n + 1)) + 1 by omega, List.replicate_succ]
          show out.val.set n (bytes n).toUInt8 = _
          rw [hval, htail, List.set_append_right _ _ (by simp), List.length_map, List.length_range,
            Nat.sub_self, List.set_cons_zero, List.range_succ, List.map_append, List.append_assoc]
          rfl
  obtain ⟨out, hout, hval⟩ := hloop 16 (le_refl _)
  rw [keyFromHex, if_neg (by simp [hlen])]
  refine hout.trans ?_
  congr 1
  apply Subtype.ext
  rw [hval]
  simp

/-- **When a text is taken for a key**: it has 32 characters and each pair of them converts. -/
theorem returns_keyFromHex_iff {wrongLength : StdException} {hex : StdString} :
    (keyFromHex wrongLength hex).Returns ↔
      hex.length = 32 ∧ ∀ i < 16, (stoul ((hex.drop (i * 2)).take 2) 16).Returns := by
  refine ⟨fun hreturns => ?_, fun h => ?_⟩
  · by_cases hlen : hex.length = 32
    · refine ⟨hlen, fun i hi => ?_⟩
      rw [keyFromHex, if_neg (by simp [hlen])] at hreturns
      obtain ⟨_, key, hturn⟩ := Except.returns_turn_of_foldlM hreturns (List.mem_range.2 hi)
      obtain ⟨byte, hbyte, -⟩ := Except.bind_eq_ok_iff.1 hturn
      exact ⟨byte, hbyte⟩
    · obtain ⟨key, hkey⟩ := hreturns
      rw [keyFromHex, if_pos hlen] at hkey
      exact absurd hkey (by simp)
  · have hpair : ∀ i : ℕ, ∃ byte, i < 16 → stoul ((hex.drop (i * 2)).take 2) 16 = .ok byte := by
      intro i
      by_cases hi : i < 16
      · obtain ⟨byte, hbyte⟩ := h.2 i hi
        exact ⟨byte, fun _ => hbyte⟩
      · exact ⟨0, fun hlt => absurd hlt hi⟩
    choose bytes hbytes using hpair
    exact ⟨_, keyFromHex_of_pairs h.1 fun i hi => hbytes i hi⟩

/-- A key of 32 hexadecimal digits, in either letter case. -/
theorem keyFromHex_of_digits {wrongLength : StdException} {hex : StdString} (hlen : hex.length = 32)
    (hdigits : ∀ c ∈ hex, Numeral.isDigit 16 c = true) :
    keyFromHex wrongLength hex = .ok (hexBytes hex) := by
  have hpair : ∀ i < 16, stoul ((hex.drop (i * 2)).take 2) 16
      = .ok (UInt64.ofNat (Numeral.value 16 ((hex.drop (i * 2)).take 2))) := by
    intro i hi
    have htwo : ((hex.drop (i * 2)).take 2).length = 2 := by simp; omega
    have hdig : ∀ c ∈ (hex.drop (i * 2)).take 2, Numeral.isDigit 16 c = true := fun c hc =>
      hdigits c (List.mem_of_mem_drop (List.mem_of_mem_take hc))
    have hlt := Numeral.value_lt hdig
    rw [htwo] at hlt
    refine (stoUnsigned_digits_eq_ok_iff (fun hnil => ?_) hdig).2 ⟨by omega, rfl⟩
    rw [hnil] at htwo
    exact absurd htwo (by decide)
  have hbyte : ∀ n : ℕ, (UInt64.ofNat n).toUInt8 = UInt8.ofNat n := fun n => by simp
  rw [keyFromHex_of_pairs hlen hpair, hexBytes]
  simp only [hbyte]

theorem keyFromHex_bytesToHex (wrongLength : StdException) (key : FixedBytes 16) :
    keyFromHex wrongLength (bytesToHex key.val) = .ok key := by
  have hlen : (bytesToHex key.val).length = 32 := by rw [bytesToHex_length, key.property]
  have hpair : ∀ i < 16, stoul (((bytesToHex key.val).drop (i * 2)).take 2) 16
      = .ok (UInt64.ofNat ((key.val[i]?).getD 0).toNat) := by
    intro i hi
    have hlt : i < key.val.length := by rw [key.property]; exact hi
    rw [stoul_pair_bytesToHex key.val i hlt, List.getElem?_eq_getElem hlt, Option.getD_some]
  rw [keyFromHex_of_pairs hlen hpair]
  congr 1
  apply Subtype.ext
  apply List.ext_getElem
  · simp [key.property]
  · intro i hi hi'
    have hlt : i < key.val.length := hi'
    simp [List.getElem?_eq_getElem hlt]

/-! ## Reading a JSONL file -/

/-- Blanks and digits have no character in common, so a number stands apart from the blanks around
    it. -/
theorem separated_blanks_digits {c : UInt8} {ps : List (ClassPattern.Piece UInt8)}
    (hspace : Numeral.isSpace c = false) (hdigit : Numeral.isDigit 10 c = false)
    (h : ClassPattern.Separated ps) :
    ClassPattern.Separated (.many Numeral.isSpace :: .captureMany1 (Numeral.isDigit 10)
      :: .many Numeral.isSpace :: .char c :: ps) := by
  have hdigits : ∀ a, Numeral.isDigit 10 a = true → Numeral.isSpace a = false :=
    fun a ha => (Numeral.isDigit_ne ha).1
  have hblanks : ∀ a, Numeral.isSpace a = true → Numeral.isDigit 10 a = false := by
    intro a ha
    by_contra hmem
    rw [Bool.not_eq_false] at hmem
    rw [hdigits a hmem] at ha
    exact absurd ha (by simp)
  exact ClassPattern.separated_cons_cons (by simp [ClassPattern.Piece.captureMany1]) hblanks
    (ClassPattern.separated_repeat_many_char hdigits hdigit hspace h)

section ReadJsonl

variable {α : Type} (what : String) (parseLine : StdString → Except StdException α)

/-- The loop of the file constructors; `lineNumber` lines have been read before. -/
def readJsonlLines : ℕ → List StdString → Except StdException (List α)
  | _, [] => .ok []
  | lineNumber, line :: lines =>
      if line = [] then readJsonlLines (lineNumber + 1) lines
      else match parseLine line with
        | .ok record => do
            let records ← readJsonlLines (lineNumber + 1) lines
            .ok (record :: records)
        | .error ex =>
            .error (.asmError (what ++ toString (lineNumber + 1) ++ ": " ++ ex.what))

/-- `\n`, at which `std::getline` ends a line. -/
def newline : UInt8 := 0x0a

def readJsonl (content : StdString) : Except StdException (List α) :=
  readJsonlLines what parseLine 0 (Lines.getLines newline content)

variable {what parseLine}

/-- Lines that were printed from records read back as these records. -/
theorem readJsonlLines_map_append {print : α → StdString}
    (hprint : ∀ a, print a ≠ [] ∧ parseLine (print a) = .ok a) (records : List α)
    (lines : List StdString) (lineNumber : ℕ) :
    readJsonlLines what parseLine lineNumber (records.map print ++ lines)
      = (do
        let rest ← readJsonlLines what parseLine (lineNumber + records.length) lines
        .ok (records ++ rest)) := by
  induction records generalizing lineNumber with
  | nil =>
      cases h : readJsonlLines what parseLine lineNumber lines with
      | error ex => simp [h]
      | ok rest => simp [h]
  | cons record records ih =>
      rw [List.map_cons, List.cons_append, readJsonlLines, if_neg (hprint record).1,
        (hprint record).2, ih, show lineNumber + 1 + records.length
          = lineNumber + (record :: records).length by simp; omega]
      cases readJsonlLines what parseLine (lineNumber + (record :: records).length) lines with
      | error ex => rfl
      | ok rest => rfl

theorem readJsonlLines_map {print : α → StdString}
    (hprint : ∀ a, print a ≠ [] ∧ parseLine (print a) = .ok a) (records : List α)
    (lineNumber : ℕ) :
    readJsonlLines what parseLine lineNumber (records.map print) = .ok records := by
  have := @readJsonlLines_map_append α what parseLine print hprint records [] lineNumber
  rwa [List.append_nil, readJsonlLines, Except.ok_bind, List.append_nil] at this

/-- **What the loop accepts**: every line that is not empty parses. -/
theorem readJsonlLines_eq_ok_iff {lines : List StdString} {lineNumber : ℕ} {records : List α} :
    readJsonlLines what parseLine lineNumber lines = .ok records ↔
      List.Forall₂ (fun line record => parseLine line = .ok record)
        (lines.filter fun line => line ≠ []) records := by
  induction lines generalizing lineNumber records with
  | nil =>
      rw [readJsonlLines, Except.ok.injEq]
      exact ⟨fun h => h ▸ List.Forall₂.nil, fun h => (List.forall₂_nil_left_iff.1 h).symm⟩
  | cons line lines ih =>
      rw [readJsonlLines]
      by_cases hline : line = []
      · rw [if_pos hline, ih, List.filter_cons_of_neg (by simpa using hline)]
      · rw [if_neg hline, List.filter_cons_of_pos (by simpa using hline), List.forall₂_cons_left_iff]
        cases hparse : parseLine line with
        | error ex => simp
        | ok record =>
            simp only [Except.bind_eq_ok_iff, ih, Except.ok.injEq]
            constructor
            · intro hparts
              rcases hparts with ⟨rest, hrest, rfl⟩
              exact ⟨record, rest, rfl, hrest, rfl⟩
            · intro hparts
              rcases hparts with ⟨_, rest, rfl, hrest, rfl⟩
              exact ⟨rest, hrest, rfl⟩

end ReadJsonl

end AsmProto
