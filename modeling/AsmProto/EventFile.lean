import AsmProto.EventLog
import AsmProto.Jsonl
import AsmProto.Lib.Calendar
import AsmProto.Lib.ClassPattern

set_option autoImplicit false

/-! # The event log in a JSONL file

The file loader of `event_log.cpp`. A timestamp goes through `std::get_time` and `timegm`; the first
is any reader that keeps to the ranges of its directives (`TimeReader`), of which `getTime` is one.
Ids and instants are cast to 32 bits, and nothing looks at what the casts drop. -/

namespace AsmProto

open ClassPattern Numeral

/-! ## Broken-down time -/

/-- `std::tm`, as far as `timegm` reads it: `year` counts from 1900 and `mon` from January. -/
structure Tm where
  year : ℤ := 0
  mon : ℕ := 0
  mday : ℕ := 0
  hour : ℕ := 0
  min : ℕ := 0
  sec : ℕ := 0
deriving Repr, DecidableEq

/-- What the directives `%Y %m %d %H %M %S` can read. -/
structure Tm.InRange (tm : Tm) : Prop where
  year : -1900 ≤ tm.year ∧ tm.year ≤ 8099
  mon : tm.mon < 12
  mday : 1 ≤ tm.mday ∧ tm.mday ≤ 31
  hour : tm.hour < 24
  min : tm.min < 60
  sec : tm.sec ≤ 60

/-- The day of the year, from 0. -/
def Tm.yday (tm : Tm) : ℤ :=
  (Calendar.monthStarts.getD tm.mon 0 : ℕ)
    + (if Calendar.isLeap (tm.year + 1900).toNat ∧ 1 < tm.mon then 1 else 0) + (tm.mday - 1)

/-- `timegm`, by the formula POSIX gives for the seconds since the Epoch. -/
def timegm (tm : Tm) : ℤ :=
  tm.sec + tm.min * 60 + tm.hour * 3600 + tm.yday * 86400 + (tm.year - 70) * 31536000
    + (tm.year - 69) / 4 * 86400 - (tm.year - 1) / 100 * 86400 + (tm.year + 299) / 400 * 86400

/-- The seconds from 1970-01-01T00:00:00Z to the instant the fields denote. -/
def Tm.instant (tm : Tm) : ℤ :=
  (Calendar.dayNumber (tm.year + 1900).toNat (tm.mon + 1) tm.mday - Calendar.dayNumber 1970 1 1) * 86400
    + tm.hour * 3600 + tm.min * 60 + tm.sec

/-- **`timegm` counts the seconds of the calendar.** -/
theorem timegm_eq_instant {tm : Tm} (h : tm.InRange) : timegm tm = tm.instant := by
  obtain ⟨year, hyear⟩ : ∃ year : ℕ, (year : ℤ) = tm.year + 1900 :=
    ⟨(tm.year + 1900).toNat, Int.toNat_of_nonneg (by have := h.year; omega)⟩
  have hmonth := Calendar.daysBeforeMonth_eq year (show 1 ≤ tm.mon + 1 by omega)
    (show tm.mon + 1 ≤ 12 by have := h.mon; omega)
  have hyears := Calendar.daysBeforeYear_eq year
  have hepoch := Calendar.daysBeforeYear_eq 1970
  have hjanuary := Calendar.daysBeforeMonth_eq 1970 (le_refl 1) (by decide)
  -- one variable for every count
  have hnat : (tm.year + 1900).toNat = year := by omega
  unfold timegm Tm.instant Tm.yday Calendar.dayNumber
  rw [hnat]
  rw [Nat.add_sub_cancel] at hmonth
  simp only [show (2 < tm.mon + 1) = (1 < tm.mon) by rw [eq_iff_iff]; omega] at hmonth
  rw [show Calendar.monthStarts.getD (1 - 1) 0 = 0 from rfl, if_neg (by decide)] at hjanuary
  split at hmonth
  · next hleap =>
      rw [if_pos hleap]
      omega
  · next hleap =>
      rw [if_neg hleap]
      omega

/-- `std::get_time` with the format `%Y-%m-%dT%H:%M:%SZ`, on a fresh `std::tm`: any reader that stores
    only values in range. -/
structure TimeReader where
  read : StdString → Option Tm
  inRange : ∀ {text tm}, read text = some tm → tm.InRange

/-- A directive: the longest run of at most `digits` digits, if its value is in range. -/
def readField (digits lo hi : ℕ) (text : StdString) : Option (ℕ × StdString) :=
  let field := (text.take digits).takeWhile (isDigit 10)
  if field ≠ [] ∧ lo ≤ value 10 field ∧ value 10 field ≤ hi then
    some (value 10 field, text.drop field.length)
  else none

def toLower (c : UInt8) : UInt8 := if 0x41 ≤ c ∧ c ≤ 0x5a then c + 32 else c

/-- A character of the format, in either letter case. -/
def readChar (c : UInt8) : StdString → Option StdString
  | [] => none
  | d :: text => if toLower d = toLower c then some text else none

/-- The extraction skips blanks first and leaves what follows the `Z` unread. -/
def getTime (text : StdString) : Option Tm := do
  let year ← readField 4 0 9999 (text.dropWhile isSpace)
  let text ← readChar 0x2d year.2
  let month ← readField 2 1 12 text
  let text ← readChar 0x2d month.2
  let day ← readField 2 1 31 text
  let text ← readChar 0x54 day.2
  let hour ← readField 2 0 23 text
  let text ← readChar 0x3a hour.2
  let minute ← readField 2 0 59 text
  let text ← readChar 0x3a minute.2
  let second ← readField 2 0 60 text
  let _ ← readChar 0x5a second.2
  some { year := year.1 - 1900, mon := month.1 - 1, mday := day.1, hour := hour.1, min := minute.1,
         sec := second.1 }

theorem readField_bounds {digits lo hi : ℕ} {text : StdString} {field : ℕ × StdString}
    (h : readField digits lo hi text = some field) : lo ≤ field.1 ∧ field.1 ≤ hi := by
  simp only [readField, Option.ite_none_right_eq_some, Option.some.injEq] at h
  obtain ⟨⟨-, hlo, hhi⟩, rfl⟩ := h
  exact ⟨hlo, hhi⟩

theorem inRange_getTime {text : StdString} {tm : Tm} (h : getTime text = some tm) : tm.InRange := by
  simp only [getTime, Option.bind_eq_bind, Option.bind_eq_some_iff, Option.some.injEq] at h
  obtain ⟨year, hyear, _, -, month, hmonth, _, -, day, hday, _, -, hour, hhour, _, -, minute, hminute,
    _, -, second, hsecond, _, -, rfl⟩ := h
  have := readField_bounds hyear
  have := readField_bounds hmonth
  have := readField_bounds hday
  have := readField_bounds hhour
  have := readField_bounds hminute
  have := readField_bounds hsecond
  constructor <;> simp only <;> omega

/-- The reader itself is in range. -/
def TimeReader.getTime : TimeReader := ⟨AsmProto.getTime, inRange_getTime⟩

/-! ## One line an event -/

namespace JsonlEventLogProvider

def parseUtcTimestamp (reader : TimeReader) (text : StdString) : Except StdException UInt32 :=
  match reader.read text with
  | none => .error (.asmError "invalid timestamp format in event log")
  | some tm =>
      let epoch := timegm tm
      if epoch < 0 then .error (.asmError "timestamp conversion failed")
      else .ok (UInt32.ofNat epoch.toNat)

def severityFromString (value : StdString) : Except StdException EventSeverity :=
  if value = ascii "info" then .ok .info
  else if value = ascii "warning" then .ok .warning
  else if value = ascii "error" then .ok .error
  else .error (.asmError "unsupported event severity in JSONL")

/-- Every character but the quotation mark. -/
def notQuote (c : UInt8) : Bool := c ≠ 0x22

/-- `^\s*\{\s*"event_id"\s*:\s*([0-9]+)\s*,\s*"severity"\s*:\s*"([^"]+)"\s*,\s*"timestamp"\s*:`
    `\s*"([^"]+)"\s*,\s*"summary"\s*:\s*"([^"]*)"\s*\}\s*$`; 0x22 is the quotation mark. -/
def eventPattern : List (Piece UInt8) :=
  let space := Piece.many isSpace
  space :: Piece.char 0x7b :: space :: Piece.char 0x22 :: (literal (ascii "event_id\"")
    ++ space :: Piece.char 0x3a :: space :: Piece.captureMany1 (isDigit 10) :: space
    :: Piece.char 0x2c :: space :: Piece.char 0x22 :: (literal (ascii "severity\"")
    ++ space :: Piece.char 0x3a :: space :: Piece.char 0x22 :: Piece.captureMany1 notQuote
    :: Piece.char 0x22 :: space :: Piece.char 0x2c :: space :: Piece.char 0x22
    :: (literal (ascii "timestamp\"")
    ++ space :: Piece.char 0x3a :: space :: Piece.char 0x22 :: Piece.captureMany1 notQuote
    :: Piece.char 0x22 :: space :: Piece.char 0x2c :: space :: Piece.char 0x22
    :: (literal (ascii "summary\"")
    ++ space :: Piece.char 0x3a :: space :: Piece.char 0x22 :: Piece.captureMany notQuote
    :: Piece.char 0x22 :: space :: Piece.char 0x7d :: [space]))))

def parseJsonlLine (reader : TimeReader) (line : StdString) : Except StdException EventRecord :=
  match fullMatch eventPattern line with
  | some [eventId, severity, timestamp, summary] => do
      let eventId ← stoul eventId 10
      let severity ← severityFromString severity
      let timestampEpoch ← parseUtcTimestamp reader timestamp
      .ok { eventId := eventId.toUInt32, severity := severity, timestampEpoch := timestampEpoch,
            timestampText := timestamp, summary := summary }
  | _ => .error (.asmError "invalid event JSONL line format")

/-- The constructor: the records of a file that opens, or `none` for one that does not. -/
def construct (reader : TimeReader) (content : Option StdString) :
    Except StdException (List EventRecord) :=
  match content with
  | none => .error (.asmError "failed to open JSONL event log file")
  | some content =>
      readJsonl "failed to parse event JSONL line " (parseJsonlLine reader) content

/-- A run of blanks ends at a character or at a number, and a quoted text at its quotation mark. -/
theorem separated_eventPattern : Separated eventPattern := by
  have hblank : ∀ (c : UInt8) (ps : List (Piece UInt8)), isSpace c = false → Separated ps →
      Separated (Piece.many isSpace :: Piece.char c :: ps) :=
    fun c ps hc h => separated_repeat_char hc h
  have hquoted : ∀ ps : List (Piece UInt8), Separated ps →
      Separated (Piece.captureMany1 notQuote :: Piece.char 0x22 :: ps) :=
    fun ps h => separated_repeat_char (by decide) h
  have hend : Separated [Piece.many isSpace] := ⟨Or.inr fun _ _ => id, trivial⟩
  unfold eventPattern
  refine hblank _ _ (by decide) (hblank _ _ (by decide) (separated_literal.2 ?_))
  refine hblank _ _ (by decide) (separated_blanks_digits (by decide) (by decide) ?_)
  refine hblank _ _ (by decide) (separated_literal.2 ?_)
  refine hblank _ _ (by decide) (hblank _ _ (by decide) (hquoted _ ?_))
  refine hblank _ _ (by decide) (hblank _ _ (by decide) (separated_literal.2 ?_))
  refine hblank _ _ (by decide) (hblank _ _ (by decide) (hquoted _ ?_))
  refine hblank _ _ (by decide) (hblank _ _ (by decide) (separated_literal.2 ?_))
  refine hblank _ _ (by decide) (hblank _ _ (by decide) ?_)
  exact separated_repeat_char (by decide) (hblank _ _ (by decide) hend)

end JsonlEventLogProvider

end AsmProto
