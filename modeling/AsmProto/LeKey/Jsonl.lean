import AsmProto.Jsonl
import AsmProto.LeKey.Store
import AsmProto.Lib.ClassPattern

set_option autoImplicit false

/-! # The LE key store in a JSONL file

`JsonlLeKeyStore` keeps the key vector and, after each change, truncates the file and writes one line
a key. The state carries the file next to the object, so closing and reopening the store is a function
of it. A stream opens or not, and once open takes the whole text or only a part (the source does not
look at the stream again). -/

namespace AsmProto

open ClassPattern Numeral

/-! ## One line a key -/

/-- What `persist` streams for one key, without the `\n`. -/
def jsonlLine (key : LeKeyRecord) : StdString :=
  ascii "\x7b\"key_id\":" ++ (print 10 key.keyId.toNat
    ++ (ascii ",\"key\":\"" ++ (bytesToHex key.key.val
      ++ (ascii "\",\"expire_time\":" ++ (print 10 key.expireTime.toNat
        ++ (ascii ",\"attribute_data\":" ++ (print 10 key.attributeData.toNat
          ++ ascii "\x7d")))))))

/-- `^\s*\{\s*"key_id"\s*:\s*([0-9]+)\s*,\s*"key"\s*:\s*"([0-9A-Fa-f]{32})"\s*,\s*"expire_time"\s*:`
    `\s*([0-9]+)\s*,\s*"attribute_data"\s*:\s*([0-9]+)\s*\}\s*$`; 0x22 is the quotation mark. -/
def leKeyPattern : List (Piece UInt8) :=
  let space := Piece.many isSpace
  let digits := Piece.captureMany1 (isDigit 10)
  space :: Piece.char 0x7b :: space :: Piece.char 0x22 :: (literal (ascii "key_id\"")
    ++ space :: Piece.char 0x3a :: space :: digits :: space :: Piece.char 0x2c
    :: space :: Piece.char 0x22 :: (literal (ascii "key\"")
    ++ space :: Piece.char 0x3a :: space :: Piece.char 0x22
    :: Piece.captureExactly (isDigit 16) 32 :: Piece.char 0x22 :: space :: Piece.char 0x2c
    :: space :: Piece.char 0x22 :: (literal (ascii "expire_time\"")
    ++ space :: Piece.char 0x3a :: space :: digits :: space :: Piece.char 0x2c
    :: space :: Piece.char 0x22 :: (literal (ascii "attribute_data\"")
    ++ space :: Piece.char 0x3a :: space :: digits :: space :: Piece.char 0x7d :: [space]))))

def parseJsonlLine (line : StdString) : Except StdException LeKeyRecord :=
  match fullMatch leKeyPattern line with
  | some [keyId, key, expireTime, attributeData] => do
      let keyId ← stoul keyId 10
      let key ← hexToKey key
      let expireTime ← stoul expireTime 10
      let attributeData ← stoull attributeData 10
      .ok { keyId := keyId.toUInt32, key := key, expireTime := expireTime.toUInt32,
            attributeData := attributeData }
  | _ => .error (.asmError "invalid LEKey JSONL line format")

/-- A run of blanks ends at a character or at a number, so the pattern splits a line in one way. -/
theorem separated_leKeyPattern : Separated leKeyPattern := by
  have hblank : ∀ (c : UInt8) (ps : List (Piece UInt8)), isSpace c = false → Separated ps →
      Separated (Piece.many isSpace :: Piece.char c :: ps) :=
    fun c ps hc h => separated_repeat_char hc h
  have hend : Separated [Piece.many isSpace] := ⟨Or.inr fun _ _ => id, trivial⟩
  unfold leKeyPattern
  refine hblank _ _ (by decide) (hblank _ _ (by decide) (separated_literal.2 ?_))
  refine hblank _ _ (by decide) (separated_blanks_digits (by decide) (by decide) ?_)
  refine hblank _ _ (by decide) (separated_literal.2 ?_)
  refine hblank _ _ (by decide) (hblank _ _ (by decide) (separated_captureExactly.2 ?_))
  refine separated_char.2 (hblank _ _ (by decide) ?_)
  refine hblank _ _ (by decide) (separated_literal.2 ?_)
  refine hblank _ _ (by decide) (separated_blanks_digits (by decide) (by decide) ?_)
  refine hblank _ _ (by decide) (separated_literal.2 ?_)
  exact hblank _ _ (by decide) (separated_blanks_digits (by decide) (by decide) hend)

/-- A line without blanks, with these numerals. -/
def keyLine (keyId key expireTime attributeData : StdString) : StdString :=
  0x7b :: 0x22 :: (ascii "key_id\"" ++ 0x3a :: (keyId ++ 0x2c :: 0x22
    :: (ascii "key\"" ++ 0x3a :: 0x22 :: (key ++ 0x22 :: 0x2c :: 0x22
    :: (ascii "expire_time\"" ++ 0x3a :: (expireTime ++ 0x2c :: 0x22
    :: (ascii "attribute_data\"" ++ 0x3a :: (attributeData ++ [0x7d]))))))))

theorem matches_keyLine {keyId key expireTime attributeData : StdString}
    (hkeyId : keyId ≠ [] ∧ ∀ c ∈ keyId, isDigit 10 c = true)
    (hkey : key.length = 32 ∧ ∀ c ∈ key, isDigit 16 c = true)
    (hexpireTime : expireTime ≠ [] ∧ ∀ c ∈ expireTime, isDigit 10 c = true)
    (hattributeData : attributeData ≠ [] ∧ ∀ c ∈ attributeData, isDigit 10 c = true) :
    Matches leKeyPattern (keyLine keyId key expireTime attributeData)
      [keyId, key, expireTime, attributeData] := by
  -- one line a field
  refine (Matches.literal ?_).char.none.char.none
  refine (Matches.captureMany1 ?_ hkeyId.1 hkeyId.2).none.char.none
  refine (Matches.literal ?_).char.none.char.none
  refine (Matches.captureExactly ?_ hkey.1 hkey.2).char.none.char.none
  refine (Matches.literal (Matches.none ?_)).char.none.char.none.char
  refine (Matches.captureMany1 ?_ hexpireTime.1 hexpireTime.2).none.char
  refine (Matches.literal (Matches.none ?_)).char.none.char.none
  refine (Matches.captureMany1 ?_ hattributeData.1 hattributeData.2).none.char
  exact matches_nil.none.char.none

theorem digits_bytesToHex (key : FixedBytes 16) :
    (bytesToHex key.val).length = 32 ∧ ∀ c ∈ bytesToHex key.val, isDigit 16 c = true := by
  refine ⟨by rw [bytesToHex_length, key.property], ?_⟩
  intro c hc
  obtain ⟨d, hd, rfl⟩ := isDigit_of_mem_bytesToHex hc
  exact isDigit_digitChar (by decide) hd

/-- The printer writes no blanks. -/
theorem matches_jsonlLine (key : LeKeyRecord) :
    Matches leKeyPattern (jsonlLine key)
      [print 10 key.keyId.toNat, bytesToHex key.key.val, print 10 key.expireTime.toNat,
        print 10 key.attributeData.toNat] :=
  matches_keyLine (digits_print _) (digits_bytesToHex _) (digits_print _) (digits_print _)

/-- **A printed line reads back as its record.** -/
theorem parseJsonlLine_jsonlLine (key : LeKeyRecord) :
    parseJsonlLine (jsonlLine key) = .ok key := by
  have hmatch := (fullMatch_eq_some_iff separated_leKeyPattern).2 (matches_jsonlLine key)
  have hcast : ∀ value : UInt32, (UInt64.ofNat value.toNat).toUInt32 = value := by
    intro value
    apply UInt32.toNat_inj.1
    have := value.toNat_lt
    simp
  simp only [parseJsonlLine, hmatch, stoul_print_u32, stoull_print_u64, hexToKey,
    keyFromHex_bytesToHex, Except.ok_bind, hcast]

theorem jsonlLine_injective : Function.Injective jsonlLine := by
  intro key key' h
  have := parseJsonlLine_jsonlLine key
  rw [h, parseJsonlLine_jsonlLine, Except.ok.injEq] at this
  exact this.symm

/-- A line without a closing brace is refused. -/
theorem not_returns_parseJsonlLine {line : StdString} (h : 0x7d ∉ line) :
    ¬ (parseJsonlLine line).Returns := by
  have hnone : fullMatch leKeyPattern line = none := by
    cases hmatch : fullMatch leKeyPattern line with
    | none => rfl
    | some captured =>
        obtain ⟨segments, hsplits, -⟩ := splits_of_fullMatch hmatch
        exact absurd (mem_of_splits (by simp [leKeyPattern]) hsplits) h
  intro hreturns
  rcases hreturns with ⟨key, hkey⟩
  rw [parseJsonlLine, hnone] at hkey
  exact absurd hkey (by simp)

/-- The line up to its closing brace. -/
theorem exists_jsonlLine_eq (key : LeKeyRecord) :
    ∃ start, jsonlLine key = start ++ [0x7d] ∧ 0x7d ∉ start ∧ newline ∉ start := by
  have hdigit : ∀ d < 16, digitChar d ≠ 0x7d ∧ digitChar d ≠ newline := by decide
  have hprint : ∀ n, 0x7d ∉ print 10 n ∧ newline ∉ print 10 n :=
    fun n => ⟨not_mem_print rfl n, not_mem_print rfl n⟩
  have hhex : 0x7d ∉ bytesToHex key.key.val ∧ newline ∉ bytesToHex key.key.val := by
    constructor
    · intro hmem
      obtain ⟨d, hd, hc⟩ := isDigit_of_mem_bytesToHex hmem
      exact (hdigit d hd).1 hc.symm
    · intro hmem
      obtain ⟨d, hd, hc⟩ := isDigit_of_mem_bytesToHex hmem
      exact (hdigit d hd).2 hc.symm
  have hlit : ∀ text ∈ [ascii "\x7b\"key_id\":", ascii ",\"key\":\"", ascii "\",\"expire_time\":",
      ascii ",\"attribute_data\":"], 0x7d ∉ text ∧ newline ∉ text := by decide
  simp only [List.forall_mem_cons, List.not_mem_nil, false_implies, implies_true, and_true] at hlit
  obtain ⟨hlit1, hlit2, hlit3, hlit4⟩ := hlit
  refine ⟨_, by rw [jsonlLine]; simp only [← List.append_assoc]; rfl, ?_, ?_⟩
  · simp only [List.mem_append, not_or, hlit1, hlit2, hlit3, hlit4, hprint, hhex, not_false_eq_true,
      and_self]
  · simp only [List.mem_append, not_or, hlit1, hlit2, hlit3, hlit4, hprint, hhex, not_false_eq_true,
      and_self]

theorem newline_not_mem_jsonlLine (key : LeKeyRecord) : newline ∉ jsonlLine key := by
  obtain ⟨start, hstart, -, hnewline⟩ := exists_jsonlLine_eq key
  rw [hstart, List.mem_append, List.mem_singleton]
  intro hmem
  rcases hmem with h | h
  · exact hnewline h
  · exact absurd h (by decide)

/-- A part of a line that parses is the whole line. -/
theorem eq_jsonlLine_of_initial {key : LeKeyRecord} {torn : StdString} (h : torn <+: jsonlLine key)
    (hparse : (parseJsonlLine torn).Returns) : torn = jsonlLine key := by
  obtain ⟨start, hstart, hbrace, -⟩ := exists_jsonlLine_eq key
  rw [hstart] at h ⊢
  rcases List.prefix_concat_iff.1 h with heq | hinitial
  · exact heq
  · exact absurd hparse (not_returns_parseJsonlLine fun hmem => hbrace (hinitial.subset hmem))

/-! ## The whole file -/

/-- What `persist` streams: a line a key, each ended by `\n`. -/
def jsonlText (keys : List LeKeyRecord) : StdString :=
  (keys.map jsonlLine).flatMap fun line => line ++ [newline]

/-- The read loop of the constructor on the content of the file. -/
def readKeys (content : StdString) : Except StdException (List LeKeyRecord) :=
  readJsonl "failed to parse LEKey JSONL line " parseJsonlLine content

theorem jsonlLine_ne_nil (key : LeKeyRecord) : jsonlLine key ≠ [] := by
  obtain ⟨start, hstart, -⟩ := exists_jsonlLine_eq key
  rw [hstart]
  simp

/-- Reading whole lines and then a rest. -/
theorem readKeys_jsonlText_append (keys : List LeKeyRecord) (rest : StdString) :
    readKeys (jsonlText keys ++ rest) = (do
      let others ← readJsonlLines "failed to parse LEKey JSONL line " parseJsonlLine keys.length
        (Lines.getLines newline rest)
      .ok (keys ++ others)) := by
  have hlines : ∀ line ∈ keys.map jsonlLine, newline ∉ line := by
    intro line hline
    obtain ⟨key, -, rfl⟩ := List.mem_map.1 hline
    exact newline_not_mem_jsonlLine key
  rw [readKeys, readJsonl, jsonlText, Lines.getLines_flatMap newline hlines,
    readJsonlLines_map_append fun key => ⟨jsonlLine_ne_nil key, parseJsonlLine_jsonlLine key⟩,
    Nat.zero_add]

/-- **What `persist` writes, the constructor reads back.** -/
theorem readKeys_jsonlText (keys : List LeKeyRecord) : readKeys (jsonlText keys) = .ok keys := by
  have := readKeys_jsonlText_append keys []
  rw [List.append_nil] at this
  rw [this]
  simp [readJsonlLines]

/-- What a part of a written file is: whole lines, and then perhaps a part of the next one. -/
theorem prefix_jsonlText_cases {keys : List LeKeyRecord} {content : StdString}
    (h : content <+: jsonlText keys) :
    ∃ front torn, front <+: keys ∧ content = jsonlText front ++ torn ∧
      (torn = [] ∨ ∃ key, front ++ [key] <+: keys ∧ torn <+: jsonlLine key) := by
  obtain ⟨whole, torn, rfl, hwhole, htorn⟩ := Lines.prefix_flatMap_cases newline h
  obtain ⟨front, hfront, rfl⟩ := List.prefix_map_iff.1 hwhole
  refine ⟨front, torn, hfront, rfl, htorn.imp_right fun hnext => ?_⟩
  obtain ⟨line, hline, hpart⟩ := hnext
  obtain ⟨longer, hlonger, heq⟩ := List.prefix_map_iff.1 hline
  obtain ⟨front', last, rfl, hfront', hlast⟩ := List.map_eq_append_iff.1 heq.symm
  obtain ⟨key, rfl, rfl⟩ := List.map_eq_singleton_iff.1 hlast
  rw [List.map_injective_iff.2 jsonlLine_injective hfront'] at hlonger
  exact ⟨key, hlonger, hpart⟩

/-- A part of a line has no `\n`. -/
theorem newline_not_mem_torn {key : LeKeyRecord} {torn : StdString} (h : torn <+: jsonlLine key) :
    newline ∉ torn := fun hmem => newline_not_mem_jsonlLine key (h.subset hmem)

theorem jsonlText_concat (front : List LeKeyRecord) (key : LeKeyRecord) :
    jsonlText (front ++ [key]) = jsonlText front ++ jsonlLine key ++ [newline] := by
  simp [jsonlText]

/-- The last `\n` may be missing. -/
theorem readKeys_of_append_newline {keys : List LeKeyRecord} {content : StdString}
    (h : jsonlText keys = content ++ [newline]) : readKeys content = .ok keys := by
  rcases List.eq_nil_or_concat' keys with hnil | ⟨front, key, hconcat⟩
  · rw [hnil] at h
    exact absurd h (by simp [jsonlText])
  · subst hconcat
    have hcontent : content = jsonlText front ++ jsonlLine key :=
      List.append_cancel_right (h.symm.trans (jsonlText_concat front key))
    rw [hcontent, readKeys_jsonlText_append,
      Lines.getLines_of_not_mem newline (newline_not_mem_jsonlLine key),
      if_neg (jsonlLine_ne_nil key)]
    have hone := @readJsonlLines_map LeKeyRecord "failed to parse LEKey JSONL line " parseJsonlLine
      jsonlLine (fun key => ⟨jsonlLine_ne_nil key, parseJsonlLine_jsonlLine key⟩) [key] front.length
    rw [List.map_singleton] at hone
    rw [hone, Except.ok_bind]

/-- A text ends inside the line of one of the keys: after its first character and before its closing
    brace. -/
def CutInside (keys : List LeKeyRecord) (content : StdString) : Prop :=
  ∃ front key torn, front ++ [key] <+: keys ∧ content = jsonlText front ++ torn ∧
    torn ≠ [] ∧ torn <+: jsonlLine key ∧ torn ≠ jsonlLine key

/-- A line of which only a part is there is refused. -/
theorem readKeys_of_cutInside {keys : List LeKeyRecord} {content : StdString}
    (h : CutInside keys content) : ∃ text, readKeys content = .error (.asmError text) := by
  obtain ⟨front, key, torn, -, rfl, hne, hpart, hcut⟩ := h
  rw [readKeys_jsonlText_append, Lines.getLines_of_not_mem newline (newline_not_mem_torn hpart),
    if_neg hne, readJsonlLines, if_neg hne]
  cases hparse : parseJsonlLine torn with
  | error ex => exact ⟨_, rfl⟩
  | ok record => exact absurd (eq_jsonlLine_of_initial hpart ⟨record, hparse⟩) hcut

/-- A part of a file that ends elsewhere holds the lines of the first records, but perhaps for the last
    `\n`. -/
theorem readKeys_of_not_cutInside {keys : List LeKeyRecord} {content : StdString}
    (h : content <+: jsonlText keys) (hcut : ¬ CutInside keys content) :
    ∃ front, front <+: keys ∧ readKeys content = .ok front ∧
      (jsonlText front = content ∨ jsonlText front = content ++ [newline]) := by
  obtain ⟨front, torn, hfront, rfl, htorn⟩ := prefix_jsonlText_cases h
  by_cases hne : torn = []
  · rw [hne, List.append_nil]
    exact ⟨front, hfront, readKeys_jsonlText front, Or.inl rfl⟩
  · obtain ⟨key, hkey, hpart⟩ := htorn.resolve_left hne
    have hwhole : torn = jsonlLine key := by
      by_contra hother
      exact hcut ⟨front, key, torn, hkey, rfl, hne, hpart, hother⟩
    rw [hwhole]
    exact ⟨front ++ [key], hkey, readKeys_of_append_newline (jsonlText_concat front key),
      Or.inr (jsonlText_concat front key)⟩

/-- **A file cut off while it was written** reads back as the first records, whose lines it holds but
    perhaps for the last `\n`, or not at all. -/
theorem text_of_readKeys_cut {keys records : List LeKeyRecord} {content : StdString}
    (h : content <+: jsonlText keys) (hread : readKeys content = .ok records) :
    records <+: keys ∧
      (jsonlText records = content ∨ jsonlText records = content ++ [newline]) := by
  have hcut : ¬ CutInside keys content := by
    intro hinside
    obtain ⟨text, hthrow⟩ := readKeys_of_cutInside hinside
    rw [hthrow] at hread
    exact absurd hread (by simp)
  obtain ⟨front, hfront, hok, htext⟩ := readKeys_of_not_cutInside h hcut
  obtain rfl := Except.ok.inj (hok.symm.trans hread)
  exact ⟨hfront, htext⟩

/-- What is left of a text reads back as all of its records exactly when it is all of the text but
    perhaps the last `\n`. -/
theorem readKeys_cut_iff {keys : List LeKeyRecord} {content : StdString}
    (h : content <+: jsonlText keys) :
    readKeys content = .ok keys ↔ (jsonlText keys).length ≤ content.length + 1 := by
  constructor
  · intro hread
    rcases (text_of_readKeys_cut h hread).2 with htext | htext
    · rw [htext]
      omega
    · rw [htext, List.length_append, List.length_singleton]
  · intro hlen
    obtain ⟨rest, hrest⟩ := h
    have hrestLen := congrArg List.length hrest
    rw [List.length_append] at hrestLen
    match rest with
    | [] =>
        rw [List.append_nil] at hrest
        rw [hrest]
        exact readKeys_jsonlText keys
    | [c] =>
        -- every text ends in a separator
        have hlast : c = newline := by
          rcases List.eq_nil_or_concat' keys with hnil | ⟨front, key, hconcat⟩
          · rw [hnil] at hrest
            exact absurd hrest (by simp [jsonlText])
          · rw [hconcat, jsonlText_concat] at hrest
            exact List.singleton_inj.1 (List.append_inj' hrest rfl).2
        rw [hlast] at hrest
        exact readKeys_of_append_newline hrest.symm
    | c :: d :: rest =>
        simp only [List.length_cons] at hrestLen
        omega

end AsmProto
