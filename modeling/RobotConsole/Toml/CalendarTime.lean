import RobotConsole.Binary.Numeral

/-!
Dates and times of day.  A date stands alone or with a time, a time alone or with a date, and both
together may say how far they are from universal time.
-/

namespace RobotConsole

structure CalendarDate where
  year : Nat
  month : Nat
  day : Nat
  deriving DecidableEq, Repr

structure ClockTime where
  hour : Nat
  minute : Nat
  second : Nat
  nanosecond : Nat
  deriving DecidableEq, Repr

/-- The distance from universal time. -/
inductive ZoneOffset where
  | universal
  | minutes (ahead : Int)
  deriving DecidableEq, Repr

inductive CalendarTime where
  | date (d : CalendarDate)
  | time (t : ClockTime)
  | both (d : CalendarDate) (t : ClockTime) (offset : Option ZoneOffset)
  deriving DecidableEq, Repr

def padded (width n : Nat) : String :=
  let ds := Nat.toDigits 10 n
  String.ofList (List.replicate (width - ds.length) '0' ++ ds)

namespace CalendarDate

def isLeap (year : Nat) : Bool := year % 4 = 0 && (year % 100 ≠ 0 || year % 400 = 0)

def daysIn (year month : Nat) : Nat :=
  if month = 2 then if isLeap year then 29 else 28
  else if month = 4 ∨ month = 6 ∨ month = 9 ∨ month = 11 then 30
  else 31

def text (d : CalendarDate) : String :=
  padded 4 d.year ++ "-" ++ padded 2 d.month ++ "-" ++ padded 2 d.day

end CalendarDate

namespace ClockTime

/-- The part of a second as its digits, without zeros at the end. -/
def fractionText (nanosecond : Nat) : String :=
  if nanosecond = 0 then ""
  else
    let ds := (padded 9 nanosecond).toList
    "." ++ String.ofList (ds.reverse.dropWhile (· = '0')).reverse

def text (t : ClockTime) : String :=
  padded 2 t.hour ++ ":" ++ padded 2 t.minute ++ ":" ++ padded 2 t.second ++
    fractionText t.nanosecond

end ClockTime

def ZoneOffset.text : ZoneOffset → String
  | .universal => "Z"
  | .minutes ahead =>
    (if ahead < 0 then "-" else "+") ++ padded 2 (ahead.natAbs / 60) ++ ":" ++
      padded 2 (ahead.natAbs % 60)

namespace CalendarTime

def text : CalendarTime → String
  | .date d => d.text
  | .time t => t.text
  | .both d t offset => d.text ++ "T" ++ t.text ++ ((offset.map ZoneOffset.text).getD "")

/-! Reading.  Each function takes what it reads off the start of a text.  A lenient reader takes the
hour 24 too, and all that is at most a day from universal time. -/

def readFixed (n : Nat) (cs : List Char) : Option (Nat × List Char) :=
  let ds := cs.take n
  if ds.length = n ∧ ds.all Char.isDigit then some (natOfDigits ds, cs.drop n) else none

def readPair (least greatest : Nat) (cs : List Char) : Option (Nat × List Char) :=
  match readFixed 2 cs with
  | some (n, rest) => if least ≤ n ∧ n ≤ greatest then some (n, rest) else none
  | none => none

def readMark (mark : Char) : List Char → Option (List Char)
  | c :: rest => if c = mark then some rest else none
  | [] => none

def readDate (cs : List Char) : Option (CalendarDate × List Char) := do
  let (year, cs) ← readFixed 4 cs
  let cs ← readMark '-' cs
  let (month, cs) ← readPair 1 12 cs
  let cs ← readMark '-' cs
  let (day, cs) ← readPair 1 (CalendarDate.daysIn year month) cs
  return (⟨year, month, day⟩, cs)

/-- The part of a second after a point; what lies below a nanosecond is cut off. -/
def readFraction : List Char → Option (Nat × List Char)
  | '.' :: cs =>
    let ds := cs.takeWhile Char.isDigit
    let nine := ds.take 9
    if ds = [] then none
    else some (natOfDigits nine * 10 ^ (9 - nine.length), cs.dropWhile Char.isDigit)
  | cs => some (0, cs)

def readTime (lenient : Bool) (cs : List Char) : Option (ClockTime × List Char) := do
  let (hour, cs) ← readPair 0 (if lenient then 24 else 23) cs
  let cs ← readMark ':' cs
  let (minute, cs) ← readPair 0 59 cs
  let cs ← readMark ':' cs
  let (second, cs) ← readPair 0 60 cs
  let (nanosecond, cs) ← readFraction cs
  return (⟨hour, minute, second, nanosecond⟩, cs)

def minutesOfDay : Nat := 1440

/-- Hours and minutes from universal time, in minutes. -/
def readDistance (lenient : Bool) (cs : List Char) : Option (Nat × List Char) := do
  let (hour, cs) ← readPair 0 (if lenient then 99 else 23) cs
  let cs ← readMark ':' cs
  let (minute, cs) ← readPair 0 (if lenient then 99 else 59) cs
  if 60 * hour + minute ≤ minutesOfDay then return (60 * hour + minute, cs) else none

def readOffset (lenient : Bool) : List Char → Option (ZoneOffset × List Char)
  | 'Z' :: cs => some (.universal, cs)
  | 'z' :: cs => some (.universal, cs)
  | '+' :: cs => (readDistance lenient cs).map fun (n, cs) => (.minutes n, cs)
  | '-' :: cs => (readDistance lenient cs).map fun (n, cs) => (.minutes (-(n : Int)), cs)
  | _ => none

/-- The time after a date and a letter T or a blank. -/
def readTimeAfter (lenient : Bool) : List Char → Option (ClockTime × List Char)
  | c :: cs => if c = 'T' ∨ c = 't' ∨ c = ' ' then readTime lenient cs else none
  | [] => none

def read (lenient : Bool) (cs : List Char) : Option (CalendarTime × List Char) :=
  match readDate cs with
  | some (d, cs) =>
    match readTimeAfter lenient cs with
    | some (t, cs) =>
      match readOffset lenient cs with
      | some (o, cs) => some (.both d t (some o), cs)
      | none => some (.both d t none, cs)
    | none => some (.date d, cs)
  | none => (readTime lenient cs).map fun (t, cs) => (.time t, cs)

def ofText? (text : String) : Option CalendarTime :=
  match read true text.toList with
  | some (t, []) => some t
  | _ => none

end CalendarTime
end RobotConsole
