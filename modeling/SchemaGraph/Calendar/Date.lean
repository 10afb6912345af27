import SchemaGraph.Text.Basic
import SchemaGraph.Text.Numeral

set_option autoImplicit false

/-! # Dates

Days of the proleptic Gregorian calendar, from year -262143 to year 262142. As text a date is
year, month and day with hyphens between; a year outside 0 to 9999 shows its sign.

Reading is lenient where writing is not: each number may have fewer digits and blanks before
it, and a signed year may have any number of digits.
-/

namespace SchemaGraph

structure Date where
  year : Int
  month : Nat
  day : Nat
  deriving DecidableEq, Repr, Inhabited

/-- Digits with zeros in front up to a width. -/
def padded (width n : Nat) : List Char :=
  let digits := Nat.toDigits 10 n
  List.replicate (width - digits.length) '0' ++ digits

namespace Date

def isLeapYear (year : Int) : Bool :=
  year % 4 == 0 && (year % 100 != 0 || year % 400 == 0)

def daysInMonth (year : Int) (month : Nat) : Nat :=
  if month == 2 then (if isLeapYear year then 29 else 28)
  else if month == 4 || month == 6 || month == 9 || month == 11 then 30
  else 31

/-- The date of these numbers, if there is one. -/
def ofNumbers? (year : Int) (month day : Nat) : Option Date :=
  if -262143 ≤ year && year ≤ 262142 && 1 ≤ month && month ≤ 12 && 1 ≤ day &&
      day ≤ daysInMonth year month then
    some ⟨year, month, day⟩
  else none

/-- The number of days before the first of January of a year, counted from year 0. -/
def daysBeforeYear (year : Int) : Int :=
  365 * year + (year - 1) / 4 - (year - 1) / 100 + (year - 1) / 400

/-- The number of the day, counted from the start of year 0. -/
def dayNumber (date : Date) : Int :=
  daysBeforeYear date.year +
    (List.range (date.month - 1)).foldl (fun days m => days + daysInMonth date.year (m + 1)) 0 +
    date.day

/-- Four digits; outside 0 to 9999 the sign too. -/
def yearText (year : Int) : List Char :=
  if 0 ≤ year && year ≤ 9999 then padded 4 year.toNat
  else (if year < 0 then '-' else '+') :: padded 4 year.natAbs

def text (date : Date) : String :=
  String.ofList (yearText date.year ++ '-' :: padded 2 date.month ++ '-' :: padded 2 date.day)

/-- Read up to `most` digits, at least one, skipping blanks before them. -/
def readNumber? (most : Nat) (text : List Char) : Option (Nat × List Char) :=
  let text := text.dropWhile isBlank
  let digits := (text.take most).takeWhile Ascii.isDigit
  if digits.isEmpty then none
  else some (Ascii.decimalValue digits, text.drop digits.length)

/-- Read a year: up to four digits, or a sign and any number of them. -/
def readYear? (text : List Char) : Option (Int × List Char) :=
  match text.dropWhile isBlank with
  | '-' :: rest => if startsWithDigit rest then
      (readNumber? rest.length rest).map fun (n, rest) => (-(n : Int), rest) else none
  | '+' :: rest => if startsWithDigit rest then
      (readNumber? rest.length rest).map fun (n, rest) => ((n : Int), rest) else none
  | rest => (readNumber? 4 rest).map fun (n, rest) => ((n : Int), rest)
where
  startsWithDigit : List Char → Bool
    | c :: _ => Ascii.isDigit c
    | [] => false

/-- Read a date that is the whole text. -/
def read? (text : String) : Option Date :=
  match readYear? text.toList with
  | some (year, '-' :: rest) =>
    match readNumber? 2 rest with
    | some (month, '-' :: rest) =>
      match readNumber? 2 rest with
      | some (day, []) => ofNumbers? year month day
      | _ => none
    | _ => none
  | _ => none

end Date

end SchemaGraph
