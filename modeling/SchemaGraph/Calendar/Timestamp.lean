import SchemaGraph.Calendar.Date

set_option autoImplicit false

/-! # Timestamps

A local date and time with its offset from UTC, read and written as RFC 3339 says. A second
`60` is allowed at the end of any minute. Fractions are kept to the nanosecond; further digits
are dropped.
-/

namespace SchemaGraph

structure Timestamp where
  date : Date
  hour : Nat
  minute : Nat
  second : Nat
  nanosecond : Nat
  /-- Minutes east of UTC. -/
  offset : Int
  deriving DecidableEq, Repr, Inhabited

namespace Timestamp

/-- The instant: the number of the second, where a second `60` belongs to the second before it,
and the nanoseconds since its start. -/
def instant (t : Timestamp) : Int × Nat :=
  let extra := if t.second == 60 then 1 else 0
  (t.date.dayNumber * 86400 + t.hour * 3600 + t.minute * 60 + (t.second - extra : Nat) -
      t.offset * 60,
    t.nanosecond + extra * 1000000000)

/-- The two timestamps are the same instant. -/
def sameInstant (a b : Timestamp) : Bool := a.instant == b.instant

/-- No fraction, or as few of three, six and nine digits as show all of it. -/
def fractionText (nanosecond : Nat) : List Char :=
  if nanosecond == 0 then []
  else if nanosecond % 1000000 == 0 then '.' :: padded 3 (nanosecond / 1000000)
  else if nanosecond % 1000 == 0 then '.' :: padded 6 (nanosecond / 1000)
  else '.' :: padded 9 nanosecond

def offsetText (offset : Int) : List Char :=
  (if offset < 0 then '-' else '+') ::
    (padded 2 (offset.natAbs / 60) ++ ':' :: padded 2 (offset.natAbs % 60))

def text (t : Timestamp) : String :=
  String.ofList (t.date.text.toList ++ 'T' :: padded 2 t.hour ++ ':' :: padded 2 t.minute ++
    ':' :: padded 2 t.second ++ fractionText t.nanosecond ++ offsetText t.offset)

/-- Read exactly `count` digits. -/
def readFixed? (count : Nat) (text : List Char) : Option (Nat × List Char) :=
  let digits := text.take count
  if digits.length == count && digits.all Ascii.isDigit then
    some (Ascii.decimalValue digits, text.drop count)
  else none

/-- Read one of the given characters. -/
def readOneOf? (chars : List Char) : List Char → Option (List Char)
  | [] => none
  | c :: rest => if chars.contains c then some rest else none

/-- Read a point and digits after it, if there is a point. The value is in nanoseconds. -/
def readFraction? : List Char → Option (Nat × List Char)
  | '.' :: rest =>
    let digits := rest.takeWhile Ascii.isDigit
    if digits.isEmpty then none
    else
      let kept := digits.take 9
      some (Ascii.decimalValue kept * Nat.pow 10 (9 - kept.length), rest.dropWhile Ascii.isDigit)
  | rest => some (0, rest)

/-- Read `Z`, or a sign with hours and minutes. -/
def readOffset? (text : List Char) : Option (Int × List Char) :=
  match text with
  | [] => none
  | c :: rest =>
    if c == 'Z' || c == 'z' then some (0, rest)
    else if c == '+' || c == '-' || c == '\u2212' then do
      let (hours, rest) ← readFixed? 2 rest
      let rest ← readOneOf? [':'] rest
      let (minutes, rest) ← readFixed? 2 rest
      if hours ≤ 23 && minutes ≤ 59 then
        let offset : Int := hours * 60 + minutes
        some (if c == '+' then offset else -offset, rest)
      else none
    else none

/-- Read a timestamp that is the whole text. -/
def read? (text : String) : Option Timestamp := do
  let (year, rest) ← readFixed? 4 text.toList
  let rest ← readOneOf? ['-'] rest
  let (month, rest) ← readFixed? 2 rest
  let rest ← readOneOf? ['-'] rest
  let (day, rest) ← readFixed? 2 rest
  let rest ← readOneOf? ['T', 't', ' '] rest
  let (hour, rest) ← readFixed? 2 rest
  let rest ← readOneOf? [':'] rest
  let (minute, rest) ← readFixed? 2 rest
  let rest ← readOneOf? [':'] rest
  let (second, rest) ← readFixed? 2 rest
  let (nanosecond, rest) ← readFraction? rest
  let (offset, rest) ← readOffset? rest
  let date ← Date.ofNumbers? year month day
  if rest.isEmpty && hour ≤ 23 && minute ≤ 59 && second ≤ 60 then
    some ⟨date, hour, minute, second, nanosecond, offset⟩
  else none

end Timestamp

end SchemaGraph
