import SigV4.Text.Blank
import SigV4.Text.Decimal
import SigV4.Time.Instant
import SigV4.Error

/-!
Time stamps: the basic form `20150830T123600Z` of a date and time, and its date alone.

A writer uses a fixed count of digits, except that a year beyond four digits or before the
year zero has a sign. A reader is more lenient: blanks may precede any number, a number may be
shorter than written, and a year with a sign may be longer.
-/

namespace SigV4.Instant

/-- A year as it is written. -/
def yearText (year : Int) : List Char :=
  if 0 ≤ year ∧ year ≤ 9999 then Decimal.fixed 4 year.toNat
  else (if year < 0 then '-' else '+') :: Decimal.atLeast 4 year.natAbs

/-- The date of an instant: year, month and day. -/
def dateStamp (t : Instant) : String :=
  String.ofList
    (yearText t.date.year ++ Decimal.fixed 2 t.date.month ++ Decimal.fixed 2 t.date.day)

/-- The whole second of an instant. -/
def stamp (t : Instant) : String :=
  t.dateStamp ++
    String.ofList
      ('T' :: (Decimal.fixed 2 t.hour ++ Decimal.fixed 2 t.minute ++ Decimal.fixed 2 t.second) ++
        ['Z'])

/-- The digits at the start of a text, at most `width` of them, and the rest. -/
def takeDigits? (width : Nat) (cs : List Char) : Option (Nat × List Char) :=
  let ds := (cs.take width).takeWhile Char.isDigit
  if ds.isEmpty then none else some (Decimal.value ds, cs.drop ds.length)

/-- A number, after any blanks. -/
def takeNumber? (width : Nat) (cs : List Char) : Option (Nat × List Char) :=
  takeDigits? width (cs.dropWhile isUnicodeBlank)

/-- A year, after any blanks: four digits at most, or a sign and any number of digits. -/
def takeYear? (cs : List Char) : Option (Int × List Char) :=
  match cs.dropWhile isUnicodeBlank with
  | '-' :: rest => (takeDigits? rest.length rest).map fun r => (-(r.1 : Int), r.2)
  | '+' :: rest => (takeDigits? rest.length rest).map fun r => ((r.1 : Int), r.2)
  | rest => (takeDigits? 4 rest).map fun r => ((r.1 : Int), r.2)

/-- The rest after a character that must come next. -/
def takeMark? (c : Char) : List Char → Option (List Char)
  | d :: rest => if d = c then some rest else none
  | [] => none

/-- Reads a time stamp. -/
def ofStamp? (s : String) : Option Instant := do
  let (year, rest) ← takeYear? s.toList
  let (month, rest) ← takeNumber? 2 rest
  let (day, rest) ← takeNumber? 2 rest
  let rest ← takeMark? 'T' rest
  let (hour, rest) ← takeNumber? 2 rest
  let (minute, rest) ← takeNumber? 2 rest
  let (second, rest) ← takeNumber? 2 rest
  let rest ← takeMark? 'Z' rest
  let date ← Date.of? year month day
  if rest.isEmpty then of? date hour minute second 0 else none

/-- Reads a time stamp, or says which text is none. -/
def ofStamp (s : String) : Except Error Instant :=
  match ofStamp? s with
  | some t => .ok t
  | none => .error (.timeMalformed s)

/-- The extended form, with as many thousandths as are needed for the fraction. -/
def extended (t : Instant) : String :=
  let fraction :=
    if t.nano = 0 then []
    else if t.nano % 1000000 = 0 then '.' :: Decimal.fixed 3 (t.nano / 1000000)
    else if t.nano % 1000 = 0 then '.' :: Decimal.fixed 6 (t.nano / 1000)
    else '.' :: Decimal.fixed 9 t.nano
  String.ofList
    (yearText t.date.year ++ ['-'] ++ Decimal.fixed 2 t.date.month ++ ['-'] ++
      Decimal.fixed 2 t.date.day ++ ['T'] ++ Decimal.fixed 2 t.hour ++ [':'] ++
      Decimal.fixed 2 t.minute ++ [':'] ++ Decimal.fixed 2 t.second ++ fraction ++ ['Z'])

end SigV4.Instant
