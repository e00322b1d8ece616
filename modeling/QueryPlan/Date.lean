import QueryPlan.Text.CharClass

/-! # Calendar dates

Dates of the proleptic Gregorian calendar, written year first. -/
namespace QueryPlan

structure Date where
  year : Int
  month : Nat
  day : Nat
deriving DecidableEq,Repr

namespace Date

def isLeapYear (year : Int) : Bool := year % 4 == 0 && (year % 100 != 0 || year % 400 == 0)

/-- Days of a month, zero for a number that is no month. -/
def daysIn (year : Int) (month : Nat) : Nat :=
  match month with
  | 1 | 3 | 5 | 7 | 8 | 10 | 12 => 31
  | 4 | 6 | 9 | 11 => 30
  | 2 => if isLeapYear year then 29 else 28
  | _ => 0

/-- The years that can be written. -/
def minYear : Int := -262143

def maxYear : Int := 262142

def isValid (d : Date) : Bool :=
  minYear ≤ d.year && d.year ≤ maxYear && 1 ≤ d.day && d.day ≤ daysIn d.year d.month

/-- A number of at least one and at most so many digits, and what follows. -/
def digits? (atMost : Nat) (cs : List Char) : Option (Nat × List Char) :=
  let ds := (cs.take atMost).takeWhile Char.isDigit
  if ds.isEmpty then none
  else some (ds.foldl (fun n c => 10*n+(c.toNat - '0'.toNat)) 0,cs.drop ds.length)

/-- A year has up to four digits, or any number of them behind a sign. -/
def year? (cs : List Char) : Option (Int × List Char) := do
  match cs.dropWhile Text.isBlank with
  | '-' :: rest =>
    let (n,rest) ← digits? rest.length rest
    return (-(n : Int),rest)
  | '+' :: rest =>
    let (n,rest) ← digits? rest.length rest
    return (n,rest)
  | rest =>
    let (n,rest) ← digits? 4 rest
    return (n,rest)

/-- A month or a day behind a dash. -/
def dashed? : List Char → Option (Nat × List Char)
  | '-' :: rest => digits? 2 (rest.dropWhile Text.isBlank)
  | _ => none

/-- Reads year, month and day between dashes. Blanks may stand around the text and before each
number, and leading zeros may be missing. -/
def ofText? (text : String) : Option Date := do
  let (year,rest) ← year? (Text.trim text.toList)
  let (month,rest) ← dashed? rest
  let (day,rest) ← dashed? rest
  let d : Date := { year,month,day }
  if rest.isEmpty && d.isValid then return d else none

def padded (width n : Nat) : String :=
  let ds := toString n
  String.ofList (List.replicate (width - ds.length) '0') ++ ds

/-- A year has at least four digits; a sign goes with negative years and those beyond 9999. -/
def yearText (year : Int) : String :=
  if year < 0 then "-" ++ padded 4 year.natAbs
  else if 9999 < year then "+" ++ toString year else padded 4 year.natAbs

def text (d : Date) : String := yearText d.year ++ "-" ++ padded 2 d.month ++ "-" ++ padded 2 d.day

end Date
end QueryPlan
