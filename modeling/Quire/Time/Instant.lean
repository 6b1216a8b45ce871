/-! Points in time and their texts.

An instant is a number of seconds since 1 January 1970 and a number of nanoseconds after them;
the nanoseconds of a leap second go beyond a whole second. The store keeps an instant as its
`timestamp`, a text with three decimal places. -/

/-! ### Days of the Gregorian calendar, and how a date and a time of day are written

Days are counted from 1 January 1970. The calendar is continued without bounds in both
directions; there is a year zero. -/
namespace Quire.Time

structure Date where
  year : Int
  month : Nat
  day : Nat
  deriving DecidableEq, Repr

/-- The date of a day. Years are taken to begin in March, so that a leap day ends one; 400 of
them have 146097 days. -/
def Date.ofDays (days : Int) : Date :=
  let shifted := days + 719468
  let era := shifted / 146097
  let dayOfEra := (shifted % 146097).toNat
  let yearOfEra :=
    (dayOfEra - dayOfEra / 1460 + dayOfEra / 36524 - dayOfEra / 146096) / 365
  let dayOfYear := dayOfEra - (365 * yearOfEra + yearOfEra / 4 - yearOfEra / 100)
  let fromMarch := (5 * dayOfYear + 2) / 153
  let month := if fromMarch < 10 then fromMarch + 3 else fromMarch - 9
  let year : Int := era * 400 + yearOfEra
  ⟨if month ≤ 2 then year + 1 else year, month, dayOfYear - (153 * fromMarch + 2) / 5 + 1⟩

/-- A number with zeros in front up to a width. -/
def padded (width n : Nat) : String :=
  let text := toString n
  "".pushn '0' (width - text.length) ++ text

/-- A year: four digits, or a sign and at least four. -/
def yearText (year : Int) : String :=
  if 0 ≤ year && year ≤ 9999 then padded 4 year.toNat
  else (if year < 0 then "-" else "+") ++ padded 4 year.natAbs

/-- Year, month and day with dashes. -/
def Date.text (d : Date) : String :=
  yearText d.year ++ "-" ++ padded 2 d.month ++ "-" ++ padded 2 d.day

/-- Hours, minutes and seconds of a time of day with colons; `second` counts from midnight, and
`extra` is added to the last part alone. -/
def clockText (second extra : Nat) : String :=
  padded 2 (second / 3600) ++ ":" ++ padded 2 (second / 60 % 60) ++ ":" ++
    padded 2 (second % 60 + extra)

end Quire.Time

/-! ### Instants -/
namespace Quire

structure Instant where
  seconds : Int
  nanos : Nat
  deriving DecidableEq, Repr, Inhabited

/-- A signed length of time in whole seconds. -/
structure Span where
  seconds : Int
  deriving DecidableEq, Repr, Inhabited

namespace Span

/-- The longest span, in seconds: it still fits 64 bits in milliseconds. -/
def limit : Nat := 0x7FFFFFFFFFFFFFFF / 1000

/-- As many seconds as a word says, read as a signed number; none if that is too many. -/
def ofWord? (w : UInt64) : Option Span :=
  let n := w.toNat
  let signed : Int := if n < 0x8000000000000000 then n else (n : Int) - 0x10000000000000000
  if signed.natAbs ≤ limit then some ⟨signed⟩ else none

end Span

namespace Instant

/-- A year that an instant may fall into. -/
def inRange (year : Int) : Bool := -262143 ≤ year && year ≤ 262142

/-- The day of an instant. -/
def date (t : Instant) : Time.Date := .ofDays (t.seconds / 86400)

/-- The seconds since midnight. -/
def secondOfDay (t : Instant) : Nat := (t.seconds % 86400).toNat

/-- The instant with these parts, if there is one. Only the last second of a minute can be a leap
second. -/
def ofUnix? (seconds : Int) (nanos : Nat) : Option Instant :=
  let t : Instant := ⟨seconds, nanos⟩
  if inRange t.date.year &&
      (nanos < 1000000000 || (nanos < 2000000000 && t.secondOfDay % 60 == 59)) then some t
  else none

/-- So many milliseconds after 1 January 1970. -/
def ofMillis (millis : Int) : Instant := ⟨millis / 1000, (millis % 1000).toNat * 1000000⟩

/-- Whole milliseconds since 1 January 1970. -/
def millis (t : Instant) : Int := t.seconds * 1000 + (t.nanos / 1000000 : Nat)

/-- The instant a span later. -/
def after (t : Instant) (span : Span) : Instant := { t with seconds := t.seconds + span.seconds }

/-- Earlier than. -/
def before (t u : Instant) : Bool :=
  t.seconds < u.seconds || (t.seconds == u.seconds && t.nanos < u.nanos)

/-- One second more in a leap second. -/
def leap (t : Instant) : Nat := t.nanos / 1000000000

/-- The text that the store keeps: date, `T`, time of day with milliseconds, `Z`. -/
def timestamp (t : Instant) : String :=
  t.date.text ++ "T" ++ Time.clockText t.secondOfDay t.leap ++ "." ++
    Time.padded 3 (t.nanos % 1000000000 / 1000000) ++ "Z"

/-- The decimal places of a second, as few groups of three as hold it. -/
def fractionText (nanos : Nat) : String :=
  if nanos == 0 then ""
  else if nanos % 1000000 == 0 then "." ++ Time.padded 3 (nanos / 1000000)
  else if nanos % 1000 == 0 then "." ++ Time.padded 6 (nanos / 1000)
  else "." ++ Time.padded 9 nanos

/-- The text in messages. -/
def message (t : Instant) : String :=
  t.date.text ++ " " ++ Time.clockText t.secondOfDay t.leap ++
    fractionText (t.nanos % 1000000000) ++ " UTC"

end Instant
end Quire
