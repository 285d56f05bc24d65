import Solvency.Numeral

/-! Dates and times of the calendar, as documents hold them. A time may tell how far its clock is ahead
of universal time; two times that both do are the same when they are the same instant. -/
namespace Solvency

structure Date where
  year : Nat
  month : Nat
  day : Nat
  deriving DecidableEq, Repr

structure Clock where
  hour : Nat
  minute : Nat
  second : Nat
  microsecond : Nat
  deriving DecidableEq, Repr

/-- A date, or a time on a date; `ahead` is in seconds. -/
inductive Moment where
  | date (d : Date)
  | time (d : Date) (c : Clock) (ahead : Option Int)
  deriving DecidableEq, Repr

namespace Date

def inLeapYear (d : Date) : Bool := d.year % 4 = 0 && (d.year % 100 != 0 || d.year % 400 = 0)

/-- The days of a common year before each of its months. -/
def monthStarts : List Nat := [0, 31, 59, 90, 120, 151, 181, 212, 243, 273, 304, 334]

/-- The days up to a date, the first day of the year one included. -/
def ordinal (d : Date) : Nat :=
  let years := d.year - 1
  let leapDay := if d.inLeapYear && decide (2 < d.month) then 1 else 0
  365 * years + years / 4 - years / 100 + years / 400 +
    monthStarts.getD (d.month - 1) 0 + leapDay + d.day

def text (d : Date) : List Char :=
  Numeral.padded 10 4 d.year ++ '-' :: Numeral.padded 10 2 d.month ++
    '-' :: Numeral.padded 10 2 d.day

end Date

namespace Clock

def microseconds (c : Clock) : Nat :=
  ((60 * c.hour + c.minute) * 60 + c.second) * 1000000 + c.microsecond

def text (c : Clock) : List Char :=
  Numeral.padded 10 2 c.hour ++ ':' :: Numeral.padded 10 2 c.minute ++
    ':' :: Numeral.padded 10 2 c.second ++
    if c.microsecond = 0 then [] else '.' :: Numeral.padded 10 6 c.microsecond

end Clock

namespace Moment

def kindName : Moment → String
  | .date _ => "date"
  | .time .. => "datetime"

/-- Microseconds of universal time. -/
def instant (d : Date) (c : Clock) (ahead : Int) : Int :=
  ((d.ordinal : Int) * 86400 - ahead) * 1000000 + c.microseconds

def sameKey : Moment → Moment → Bool
  | .date d, .date d' => d == d'
  | .time d c none, .time d' c' none => d == d' && c == c'
  | .time d c (some ahead), .time d' c' (some ahead') => instant d c ahead == instant d' c' ahead'
  | _, _ => false

/-- How far a clock is ahead of universal time, in hours and minutes. -/
def aheadText (ahead : Int) : List Char :=
  let n := ahead.natAbs
  let seconds := if n % 60 = 0 then [] else ':' :: Numeral.padded 10 2 (n % 60)
  (if ahead < 0 then '-' else '+') :: Numeral.padded 10 2 (n / 3600) ++
    ':' :: Numeral.padded 10 2 (n / 60 % 60) ++ seconds

def text : Moment → String
  | .date d => String.ofList d.text
  | .time d c ahead =>
    String.ofList (d.text ++ ' ' :: c.text ++ (ahead.map aheadText).getD [])

/-- How a message writes the zone of a clock. A span is written with whole days and the seconds that
remain, which are never negative. -/
def zoneLiteral : Option Int → String
  | none => ""
  | some ahead =>
    if ahead = 0 then ", tzinfo=datetime.timezone.utc"
    else
      let span := if ahead < 0 then s!"days=-1, seconds={86400 + ahead}" else s!"seconds={ahead}"
      s!", tzinfo=datetime.timezone(datetime.timedelta({span}))"

/-- How a message writes a moment; of a clock, seconds that are zero are left out. -/
def literal : Moment → String
  | .date d => s!"datetime.date({d.year}, {d.month}, {d.day})"
  | .time d c ahead =>
    let rest :=
      if c.microsecond != 0 then s!", {c.second}, {c.microsecond}"
      else if c.second != 0 then s!", {c.second}"
      else ""
    s!"datetime.datetime({d.year}, {d.month}, {d.day}, {c.hour}, {c.minute}" ++ rest ++
      zoneLiteral ahead ++ ")"

example : sameKey (.time ⟨2001, 12, 15⟩ ⟨2, 59, 43, 100000⟩ (some 0))
    (.time ⟨2001, 12, 14⟩ ⟨21, 59, 43, 100000⟩ (some (-18000))) = true := by decide

end Moment
end Solvency
