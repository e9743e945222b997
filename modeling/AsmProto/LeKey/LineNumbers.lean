import AsmProto.LeKey.Jsonl

set_option autoImplicit false

/-! # The numbers on a key line

`parse_jsonl_line` converts every numeral through a 64-bit type, which throws beyond it, and casts two
of the three results to 32 bits, which does not. -/

namespace AsmProto

open ClassPattern Numeral

theorem captures_leKeyPattern : leKeyPattern.filter Piece.capture =
    [Piece.captureMany1 (isDigit 10), Piece.captureExactly (isDigit 16) 32,
      Piece.captureMany1 (isDigit 10), Piece.captureMany1 (isDigit 10)] := rfl

/-- What the four groups of a line look like. -/
theorem digits_of_matches {line : StdString} {keyId key expireTime attributeData : StdString}
    (h : Matches leKeyPattern line [keyId, key, expireTime, attributeData]) :
    (keyId ≠ [] ∧ ∀ c ∈ keyId, isDigit 10 c = true) ∧
    (key.length = 32 ∧ ∀ c ∈ key, isDigit 16 c = true) ∧
    (expireTime ≠ [] ∧ ∀ c ∈ expireTime, isDigit 10 c = true) ∧
    (attributeData ≠ [] ∧ ∀ c ∈ attributeData, isDigit 10 c = true) := by
  have hmany : ∀ {segment : StdString}, (Piece.captureMany1 (isDigit 10)).Fits segment →
      segment ≠ [] ∧ ∀ c ∈ segment, isDigit 10 c = true := fun hfits =>
    ⟨List.length_pos_iff.1 hfits.2.1, hfits.1⟩
  have hfits := h.forall₂_fits
  rw [captures_leKeyPattern] at hfits
  simp only [List.forall₂_cons, List.forall₂_nil_left_iff, and_true] at hfits
  obtain ⟨hkeyId, hkey, hexpireTime, hattributeData⟩ := hfits
  exact ⟨hmany hkeyId, ⟨le_antisymm (hkey.2.2 32 rfl) hkey.2.1, hkey.1⟩, hmany hexpireTime,
    hmany hattributeData⟩

/-- **What `parse_jsonl_line` accepts**: a line of the pattern whose numerals fit 64 bits. -/
theorem parseJsonlLine_eq_ok_iff {line : StdString} {record : LeKeyRecord} :
    parseJsonlLine line = .ok record ↔
      ∃ keyId key expireTime attributeData,
        Matches leKeyPattern line [keyId, key, expireTime, attributeData] ∧
        value 10 keyId < 2 ^ 64 ∧ value 10 expireTime < 2 ^ 64 ∧ value 10 attributeData < 2 ^ 64 ∧
        record = { keyId := UInt32.ofNat (value 10 keyId), key := hexBytes key,
                   expireTime := UInt32.ofNat (value 10 expireTime),
                   attributeData := UInt64.ofNat (value 10 attributeData) } := by
  -- the conversions of the four groups, one after the other
  have hconvert : ∀ {keyId key expireTime attributeData : StdString},
      Matches leKeyPattern line [keyId, key, expireTime, attributeData] →
      ((do
        let keyId ← stoul keyId 10
        let key ← hexToKey key
        let expireTime ← stoul expireTime 10
        let attributeData ← stoull attributeData 10
        .ok { keyId := keyId.toUInt32, key := key, expireTime := expireTime.toUInt32,
              attributeData := attributeData } : Except StdException LeKeyRecord) = .ok record ↔
        value 10 keyId < 2 ^ 64 ∧ value 10 expireTime < 2 ^ 64 ∧ value 10 attributeData < 2 ^ 64 ∧
        record = { keyId := UInt32.ofNat (value 10 keyId), key := hexBytes key,
                   expireTime := UInt32.ofNat (value 10 expireTime),
                   attributeData := UInt64.ofNat (value 10 attributeData) }) := by
    intro keyId key expireTime attributeData hmatch
    obtain ⟨hkeyId, hkey, hexpireTime, hattributeData⟩ := digits_of_matches hmatch
    rw [hexToKey, keyFromHex_of_digits hkey.1 hkey.2]
    simp only [Except.bind_eq_ok_iff, stoul, stoull,
      stoUnsigned_digits_eq_ok_iff hkeyId.1 hkeyId.2,
      stoUnsigned_digits_eq_ok_iff hexpireTime.1 hexpireTime.2,
      stoUnsigned_digits_eq_ok_iff hattributeData.1 hattributeData.2, Except.ok.injEq]
    constructor
    · intro hparts
      rcases hparts with ⟨_, ⟨hid, rfl⟩, _, rfl, _, ⟨hexpire, rfl⟩, _, ⟨hattribute, rfl⟩, rfl⟩
      exact ⟨hid, hexpire, hattribute, by simp⟩
    · intro hparts
      rcases hparts with ⟨hid, hexpire, hattribute, rfl⟩
      exact ⟨_, ⟨hid, rfl⟩, _, rfl, _, ⟨hexpire, rfl⟩, _, ⟨hattribute, rfl⟩, by simp⟩
  unfold parseJsonlLine
  constructor
  · intro hparse
    split at hparse
    · next keyId key expireTime attributeData hmatch =>
        have hsplit := (fullMatch_eq_some_iff separated_leKeyPattern).1 hmatch
        exact ⟨keyId, key, expireTime, attributeData, hsplit, (hconvert hsplit).1 hparse⟩
    · simp at hparse
  · intro hparts
    rcases hparts with ⟨keyId, key, expireTime, attributeData, hsplit, hrecord⟩
    rw [(fullMatch_eq_some_iff separated_leKeyPattern).2 hsplit]
    exact (hconvert hsplit).2 hrecord

/-- The record is the one that is written on the line, number by number. -/
def RecordsLine (line : StdString) (record : LeKeyRecord) : Prop :=
  ∃ keyId key expireTime attributeData,
    Matches leKeyPattern line [keyId, key, expireTime, attributeData] ∧
    value 10 keyId < 2 ^ 32 ∧ record.keyId.toNat = value 10 keyId ∧
    value 10 expireTime < 2 ^ 32 ∧ record.expireTime.toNat = value 10 expireTime ∧
    value 10 attributeData < 2 ^ 64 ∧ record.attributeData.toNat = value 10 attributeData ∧
    record.key.val.length = 16 ∧
    ∀ i (h : i < record.key.val.length), (record.key.val[i]).toNat
      = value 16 ((key.drop (i * 2)).take 2)

/-- A line of the pattern with an id or an expire time of more than 32 and at most 64 bits. -/
def WideLine (line : StdString) : Prop :=
  ∃ keyId key expireTime attributeData,
    Matches leKeyPattern line [keyId, key, expireTime, attributeData] ∧
    value 10 keyId < 2 ^ 64 ∧ value 10 expireTime < 2 ^ 64 ∧ value 10 attributeData < 2 ^ 64 ∧
    (2 ^ 32 ≤ value 10 keyId ∨ 2 ^ 32 ≤ value 10 expireTime)

/-- The number written for the key id. -/
def writtenKeyId (line : StdString) : Option ℕ :=
  match fullMatch leKeyPattern line with
  | some (keyId :: _) => some (value 10 keyId)
  | _ => none

theorem writtenKeyId_of_matches {line : StdString} {keyId key expireTime attributeData : StdString}
    (h : Matches leKeyPattern line [keyId, key, expireTime, attributeData]) :
    writtenKeyId line = some (value 10 keyId) := by
  rw [writtenKeyId, (fullMatch_eq_some_iff separated_leKeyPattern).2 h]

/-- Each byte of the key is a pair of digits. -/
theorem toNat_getElem_hexBytes {key : StdString} (hkey : ∀ c ∈ key, isDigit 16 c = true) {i : ℕ}
    (h : i < (hexBytes key).val.length) :
    ((hexBytes key).val[i]).toNat = value 16 ((key.drop (i * 2)).take 2) := by
  have hlt : value 16 ((key.drop (i * 2)).take 2) < 16 ^ 2 :=
    (value_lt fun c hc => hkey c (List.mem_of_mem_drop (List.mem_of_mem_take hc))).trans_le
      (Nat.pow_le_pow_right (by decide) (List.length_take_le _ _))
  simp only [hexBytes, List.getElem_map, List.getElem_range, UInt8.toNat_ofNat']
  exact Nat.mod_eq_of_lt hlt

/-- An accepted line is recorded as written when its two short numbers fit 32 bits. -/
theorem recordsLine_iff {line : StdString} {record : LeKeyRecord}
    (hparse : parseJsonlLine line = .ok record) : RecordsLine line record ↔ ¬ WideLine line := by
  obtain ⟨keyId, key, expireTime, attributeData, hmatch, hid, hexpire, hattribute, rfl⟩ :=
    parseJsonlLine_eq_ok_iff.1 hparse
  -- the line has one set of groups
  have hone : ∀ {keyId' key' expireTime' attributeData'},
      Matches leKeyPattern line [keyId', key', expireTime', attributeData'] →
      keyId' = keyId ∧ expireTime' = expireTime := by
    intro keyId' key' expireTime' attributeData' hmatch'
    have hsame := ((fullMatch_eq_some_iff separated_leKeyPattern).2 hmatch').symm.trans
      ((fullMatch_eq_some_iff separated_leKeyPattern).2 hmatch)
    simp only [Option.some.injEq, List.cons.injEq] at hsame
    exact ⟨hsame.1, hsame.2.2.1⟩
  constructor
  · intro hrecords hwide
    obtain ⟨_, _, _, _, hmatch', hid', -, hexpire', -⟩ := hrecords
    obtain ⟨_, _, _, _, hmatch'', -, -, -, hlarge⟩ := hwide
    obtain ⟨rfl, rfl⟩ := hone hmatch'
    obtain ⟨rfl, rfl⟩ := hone hmatch''
    omega
  · intro hnarrow
    have hfits : value 10 keyId < 2 ^ 32 ∧ value 10 expireTime < 2 ^ 32 := by
      by_contra hlarge
      exact hnarrow ⟨keyId, key, expireTime, attributeData, hmatch, hid, hexpire, hattribute,
        by omega⟩
    refine ⟨keyId, key, expireTime, attributeData, hmatch, hfits.1, ?_, hfits.2, ?_, hattribute, ?_,
      (hexBytes key).property, ?_⟩
    · rw [UInt32.toNat_ofNat', Nat.mod_eq_of_lt hfits.1]
    · rw [UInt32.toNat_ofNat', Nat.mod_eq_of_lt hfits.2]
    · rw [UInt64.toNat_ofNat', Nat.mod_eq_of_lt hattribute]
    · intro i hi
      exact toNat_getElem_hexBytes (digits_of_matches hmatch).2.1.2 hi

/-- **When the numbers of a key line are exact.** Every record that is accepted from a line is the one
    that is written there if and only if no id and no expire time on it takes more than 32 and at most
    64 bits; between such lines, different written key ids stay different. -/
theorem key_line_numbers_exact_iff (line : StdString) :
    ((∀ record, parseJsonlLine line = .ok record → RecordsLine line record) ↔ ¬ WideLine line) ∧
    ∀ line' record record', parseJsonlLine line = .ok record →
      parseJsonlLine line' = .ok record' → ¬ WideLine line → ¬ WideLine line' →
      record.keyId = record'.keyId → writtenKeyId line = writtenKeyId line' := by
  constructor
  · constructor
    · intro hexact hwide
      obtain ⟨keyId, key, expireTime, attributeData, hmatch, hid, hexpire, hattribute, -⟩ := id hwide
      have hparse := parseJsonlLine_eq_ok_iff.2
        ⟨keyId, key, expireTime, attributeData, hmatch, hid, hexpire, hattribute, rfl⟩
      exact (recordsLine_iff hparse).1 (hexact _ hparse) hwide
    · intro hnarrow record hparse
      exact (recordsLine_iff hparse).2 hnarrow
  · intro line' record record' hparse hparse' hnarrow hnarrow' hkeyId
    obtain ⟨_, _, _, _, hmatch, -, hid, -⟩ := (recordsLine_iff hparse).2 hnarrow
    obtain ⟨_, _, _, _, hmatch', -, hid', -⟩ := (recordsLine_iff hparse').2 hnarrow'
    rw [writtenKeyId_of_matches hmatch, writtenKeyId_of_matches hmatch', ← hid, ← hid', hkeyId]

/-- A line for key id 4294967303. -/
def wideKeyLine : StdString :=
  keyLine (print 10 4294967303) (bytesToHex (FixedBytes.zero 16).val) (print 10 0) (print 10 0)

/-- The line is accepted and stored under id 7. -/
theorem wide_key_id_wraps :
    parseJsonlLine wideKeyLine = .ok (blankKey 7) ∧ writtenKeyId wideKeyLine = some 4294967303 ∧
    ¬ RecordsLine wideKeyLine (blankKey 7) := by
  have hmatch : Matches leKeyPattern wideKeyLine _ := matches_keyLine (digits_print 4294967303)
    (digits_bytesToHex (FixedBytes.zero 16)) (digits_print 0) (digits_print 0)
  have hparse : parseJsonlLine wideKeyLine = .ok (blankKey 7) := by
    refine parseJsonlLine_eq_ok_iff.2 ⟨_, _, _, _, hmatch, ?_, ?_, ?_, ?_⟩
    · rw [value_print_ten]
      decide
    · rw [value_print_ten]
      decide
    · rw [value_print_ten]
      decide
    · rw [value_print_ten, value_print_ten]
      decide
  refine ⟨hparse, ?_, ?_⟩
  · rw [writtenKeyId_of_matches hmatch, value_print_ten]
  · rw [recordsLine_iff hparse, not_not]
    refine ⟨_, _, _, _, hmatch, ?_, ?_, ?_, ?_⟩
    · rw [value_print_ten]
      decide
    · rw [value_print_ten]
      decide
    · rw [value_print_ten]
      decide
    · rw [value_print_ten]
      decide

end AsmProto
