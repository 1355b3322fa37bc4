import InlineCompletion.Number.Integer

/-!
# Dates and times of day

A date is a day of the calendar, from the year one to the year 9999.  A moment
is a date with a time of day, and perhaps with its offset from the common time;
two moments with offsets are the same when they are the same instant.  Dates and
moments are read from texts of digits, and each figure is checked on its own.
-/

namespace InlineCompletion

structure Date where
  year : Nat
  month : Nat
  day : Nat
  deriving DecidableEq, Repr

structure Moment where
  date : Date
  hour : Nat
  minute : Nat
  second : Nat
  microsecond : Nat
  /-- Minutes that the time of day is ahead of the common time. -/
  offset : Option Int
  deriving DecidableEq, Repr

namespace Date

inductive Mistake where
  | year (year : Nat)
  | month
  | day
  | hour
  | minute
  | second
  /-- An offset of a day or more. -/
  | offset (minutes : Int)
  deriving DecidableEq, Repr

def isLeap (year : Nat) : Bool :=
  year % 4 == 0 && (year % 100 != 0 || year % 400 == 0)

def daysIn (year month : Nat) : Nat :=
  if month = 2 then (if isLeap year then 29 else 28)
  else if month = 4 ∨ month = 6 ∨ month = 9 ∨ month = 11 then 30
  else 31

def mistake? (d : Date) : Option Mistake :=
  if d.year < 1 ∨ 9999 < d.year then some (.year d.year)
  else if d.month < 1 ∨ 12 < d.month then some .month
  else if d.day < 1 ∨ daysIn d.year d.month < d.day then some .day
  else none

def number (d : Date) : Nat :=
  let y := d.year - 1
  365 * y + y / 4 - y / 100 + y / 400
    + (List.range (d.month - 1)).foldl (fun n m => n + daysIn d.year (m + 1))
      0 + (d.day - 1)

def padded (places n : Nat) : Text :=
  let digits := Integer.digits n
  List.replicate (places - digits.length) '0' ++ digits

def text (d : Date) : Text :=
  padded 4 d.year ++ '-' :: padded 2 d.month ++ '-' :: padded 2 d.day

def call (name : String) (arguments : List Text) : Text :=
  name.toList ++ '(' :: Text.join [',', ' '] arguments ++ [')']

def shown (d : Date) : Text :=
  call "datetime.date" ([d.year, d.month, d.day].map Integer.digits)

end Date

namespace Moment

/-- The first figure of a moment that is out of range: its offset, its date, its
time. -/
def mistake? (m : Moment) : Option Date.Mistake :=
  match m.offset.filter fun o => 24 * 60 ≤ o.natAbs with
  | some o => some (.offset o)
  | none =>
      m.date.mistake?.or <|
        if 23 < m.hour then some .hour
        else if 59 < m.minute then some .minute
        else if 59 < m.second then some .second
        else none

def instant? (m : Moment) : Option Int :=
  m.offset.map fun o =>
    (((m.date.number * 24 + m.hour : Nat) * 60 + m.minute - o) * 60 +
      m.second) * 1000000
      + m.microsecond

def clockText (minutes : Nat) : Text :=
  Date.padded 2 (minutes / 60) ++ ':' :: Date.padded 2 (minutes % 60)

def text (m : Moment) : Text :=
  m.date.text ++ ' ' :: clockText (60 * m.hour + m.minute) ++ ':' ::
    Date.padded 2 m.second
    ++ (if m.microsecond = 0 then [] else '.' :: Date.padded 6 m.microsecond)
    ++ match m.offset with
      | none => []
      | some o => (if o < 0 then '-' else '+') :: clockText o.natAbs

/-- A span of time as it is shown: whole days, and seconds that are not
negative. -/
def spanShown (minutes : Int) : Text :=
  let days := minutes / (24 * 60)
  let seconds := (minutes % (24 * 60)) * 60
  let part := fun (name : String) (n : Int) =>
    if n = 0 then [] else [name.toList ++ '=' :: Integer.text n]
  match part "days" days ++ part "seconds" seconds with
  | [] => Date.call "datetime.timedelta" [['0']]
  | parts => Date.call "datetime.timedelta" parts

/-- The figures of a time of day that are shown: hours and minutes always,
seconds and their parts up to the last that is not zero. -/
def figures (m : Moment) : List Nat :=
  if m.microsecond ≠ 0 then [m.hour, m.minute, m.second, m.microsecond]
  else if m.second ≠ 0 then [m.hour, m.minute, m.second]
  else [m.hour, m.minute]

def shown (m : Moment) : Text :=
  let zone := match m.offset with
    | none => []
    | some 0 => ["tzinfo=datetime.timezone.utc".toList]
    | some o =>
        ["tzinfo=".toList ++ Date.call "datetime.timezone" [spanShown o]]
  Date.call "datetime.datetime"
    (([m.date.year, m.date.month, m.date.day] ++ m.figures).map
      Integer.digits ++ zone)

end Moment

namespace Date.Mistake

def message : Mistake → String
  | .year n => "year " ++ String.ofList (Integer.digits n) ++ " is out of range"
  | .month => "month must be in 1..12"
  | .day => "day is out of range for month"
  | .hour => "hour must be in 0..23"
  | .minute => "minute must be in 0..59"
  | .second => "second must be in 0..59"
  | .offset n =>
      "offset must be a timedelta strictly between "
        ++ "-timedelta(hours=24) and timedelta(hours=24), "
        ++ "not " ++ String.ofList (Moment.spanShown n) ++ "."

end Date.Mistake
end InlineCompletion
