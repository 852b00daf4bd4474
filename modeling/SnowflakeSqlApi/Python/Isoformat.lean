import SnowflakeSqlApi.Python.Temporal
import SnowflakeSqlApi.Python.Numeral

/-!
# `isoformat`

`str` of the values of `datetime`.  A `date` is given by its ordinal, so that `ymd` first finds
the year by its cycles of 400, 100, 4 and 1 years, as `datetime` does, and then the month.
-/

namespace SnowflakeSqlApi

/-- `f"{n:0{width}d}"`, of a number that fits. -/
def padded (width n : Nat) : PyStr := (fixedDigits width n).map digitChar

def monthLengths (leap : Bool) : List Nat :=
  [31, if leap then 29 else 28, 31, 30, 31, 30, 31, 31, 30, 31, 30, 31]

/-- The month, from the given one on, and the day in it, of so many days after its start. -/
def monthDay : Nat → List Nat → Nat → Nat × Nat
  | month, [], days => (month, days + 1)
  | month, length :: lengths, days =>
    if days < length then (month, days + 1) else monthDay (month + 1) lengths (days - length)

namespace PyDate

/-- Year, month and day. The last day of a cycle of 400 or of 4 years is one day past its last
year. -/
def ymd (d : PyDate) : Nat × Nat × Nat :=
  let days := (d.ordinal - 1).toNat
  let n400 := days / 146097
  let n100 := days % 146097 / 36524
  let n4 := days % 146097 % 36524 / 1461
  let n1 := days % 146097 % 36524 % 1461 / 365
  let year := n400 * 400 + n100 * 100 + n4 * 4 + n1 + 1
  if n1 = 4 ∨ n100 = 4 then (year - 1, 12, 31)
  else (year, monthDay 1 (monthLengths (n1 = 3 && (n4 ≠ 24 || n100 = 3)))
    (days % 146097 % 36524 % 1461 % 365))

def isoformat (d : PyDate) : PyStr :=
  padded 4 d.ymd.1 ++ [ch '-'] ++ padded 2 d.ymd.2.1 ++ [ch '-'] ++ padded 2 d.ymd.2.2

example : isoformat ⟨738945, by decide⟩ = py "2024-02-29" := by decide

end PyDate

/-- `HH:MM:SS`, with the microseconds where there are any. -/
def clockText (hour minute second microsecond : Nat) : PyStr :=
  padded 2 hour ++ [ch ':'] ++ padded 2 minute ++ [ch ':'] ++ padded 2 second
    ++ if microsecond = 0 then [] else ch '.' :: padded 6 microsecond

def PyTime.isoformat (t : PyTime) : PyStr := clockText t.hour t.minute t.second t.microsecond

namespace Naive

theorem date_valid (d : Naive) :
    1 ≤ TimeDelta.days d.micros + 1 ∧ TimeDelta.days d.micros + 1 ≤ 3652059 := by
  have h := d.valid
  simp only [TimeDelta.days, microsPerDay]
  omega

def date (d : Naive) : PyDate := ⟨TimeDelta.days d.micros + 1, d.date_valid⟩

def isoformat (d : Naive) : PyStr :=
  let seconds := (TimeDelta.seconds d.micros).toNat
  d.date.isoformat ++ [ch 'T'] ++ clockText (seconds / 3600) (seconds / 60 % 60) (seconds % 60)
    (TimeDelta.microseconds d.micros).toNat

end Naive

/-- `+HH:MM`, with the seconds and microseconds where there are any. -/
def offsetText (offset : Int) : PyStr :=
  let seconds := offset.natAbs / 1000000
  let microsecond := offset.natAbs % 1000000
  [if offset < 0 then ch '-' else ch '+'] ++ padded 2 (seconds / 3600) ++ [ch ':']
    ++ padded 2 (seconds / 60 % 60)
    ++ (if seconds % 60 = 0 ∧ microsecond = 0 then [] else ch ':' :: padded 2 (seconds % 60))
    ++ if microsecond = 0 then [] else ch '.' :: padded 6 microsecond

def Aware.isoformat (d : Aware) : PyStr := d.wall.isoformat ++ offsetText d.utcoffset

end SnowflakeSqlApi
