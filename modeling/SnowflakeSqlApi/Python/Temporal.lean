import SnowflakeSqlApi.Exceptions

/-!
# Dates, times and datetimes

The values of `datetime` that the library binds and decodes.  A `date` is its
proleptic ordinal and a naive `datetime` its microseconds since year 1, since the
code only subtracts them, shifts them and reads a `timedelta`.  An aware `datetime`
is its wall clock with the `utcoffset()` its `tzinfo` gives it.

A `timedelta` is its count of microseconds.  `days`, `seconds` and `microseconds`
are its normalised fields: the days can be negative, the others cannot.
-/

namespace SnowflakeSqlApi

def microsPerSecond : Int := 1000000
def microsPerDay : Int := 86400000000

/-! ### `timedelta` -/

namespace TimeDelta

def days (d : Int) : Int := d / microsPerDay
def seconds (d : Int) : Int := d % microsPerDay / microsPerSecond
def microseconds (d : Int) : Int := d % microsPerSecond

/-- The constructor refuses more than 999999999 days either way. -/
def make (micros : Int) : Except Exc Int :=
  if -999999999 ≤ days micros ∧ days micros ≤ 999999999 then .ok micros
  else .error (.overflowError [lit "days=", .int (days micros), lit "; must have magnitude <= 999999999"])

theorem make_of_abs_le {d : Int} (h : -8640000000000000000 ≤ d ∧ d ≤ 8640000000000000000) :
    make d = .ok d := by
  rw [make, if_pos]
  simp only [days, microsPerDay]
  omega

/-- The normalised fields make up the whole. -/
theorem fields_eq (d : Int) :
    (days d * 86400 + seconds d) * 1000000 + microseconds d = d := by
  simp only [days, seconds, microseconds, microsPerDay, microsPerSecond]
  omega

end TimeDelta

/-! ### `date` and `time` -/

structure PyDate where
  ordinal : Int
  valid : 1 ≤ ordinal ∧ ordinal ≤ 3652059
  deriving DecidableEq

namespace PyDate

/-- `date(1970, 1, 1)`. -/
def epoch : PyDate := ⟨719163, by decide⟩

/-- `self - other`. -/
def sub (d e : PyDate) : Int := (d.ordinal - e.ordinal) * microsPerDay

/-- `self + delta`: only the days count. -/
def add (d : PyDate) (delta : Int) : Except Exc PyDate :=
  if h : 1 ≤ d.ordinal + TimeDelta.days delta ∧ d.ordinal + TimeDelta.days delta ≤ 3652059 then .ok ⟨_, h⟩
  else .error (.overflowError [lit "date value out of range"])

end PyDate

structure PyTime where
  hour : Nat
  minute : Nat
  second : Nat
  microsecond : Nat
  valid : hour < 24 ∧ minute < 60 ∧ second < 60 ∧ microsecond < 1000000
  deriving DecidableEq

namespace PyTime

/-- `time(hour, minute, second, microsecond)`. -/
def make (hour minute second microsecond : Int) : Except Exc PyTime :=
  if h : (0 ≤ hour ∧ hour < 24) ∧ (0 ≤ minute ∧ minute < 60) ∧ (0 ≤ second ∧ second < 60) ∧
      (0 ≤ microsecond ∧ microsecond < 1000000) then
    .ok ⟨hour.toNat, minute.toNat, second.toNat, microsecond.toNat, by omega⟩
  else .error (.valueError [lit "time field out of range"])

theorem make_of_fields (t : PyTime) :
    make t.hour t.minute t.second t.microsecond = .ok t := by
  have h := t.valid
  rw [make, dif_pos (by omega)]
  simp

end PyTime

/-! ### `datetime` -/

/-- A naive `datetime`: microseconds since `datetime.min`. -/
structure Naive where
  micros : Int
  valid : 0 ≤ micros ∧ micros < 315537897600000000
  deriving DecidableEq

namespace Naive

/-- `datetime(1970, 1, 1)`. -/
def epoch : Naive := ⟨62135596800000000, by decide⟩

def sub (d e : Naive) : Int := d.micros - e.micros

def add (d : Naive) (delta : Int) : Except Exc Naive :=
  if h : 0 ≤ d.micros + delta ∧ d.micros + delta < 315537897600000000 then .ok ⟨_, h⟩
  else .error (.overflowError [lit "date value out of range"])

theorem add_eq_ok {d : Naive} {delta : Int} {e : Naive} (h : d.micros + delta = e.micros) :
    d.add delta = .ok e := by
  obtain ⟨m, hm⟩ := e
  dsimp only at h
  subst h
  rw [add, dif_pos hm]

end Naive

/-- An aware `datetime`: the wall clock, and the offset from UTC in microseconds. -/
structure Aware where
  wall : Naive
  utcoffset : Int
  valid : -86400000000 < utcoffset ∧ utcoffset < 86400000000
  deriving DecidableEq

namespace Aware

theorem utc_valid : -86400000000 < (0 : Int) ∧ (0 : Int) < 86400000000 := by decide

/-- `datetime(1970, 1, 1, tzinfo=timezone.utc)`. -/
def epoch : Aware := ⟨Naive.epoch, 0, utc_valid⟩

/-- The instant, in microseconds from `datetime.min` at UTC. -/
def utc (d : Aware) : Int := d.wall.micros - d.utcoffset

/-- `self - other`, between instants. -/
def sub (d e : Aware) : Int := d.utc - e.utc

def add (d : Aware) (delta : Int) : Except Exc Aware := do
  let wall ← d.wall.add delta
  pure { d with wall }

/-- `d.astimezone(timezone(offset))`. -/
def astimezone (d : Aware) (offset : { o : Int // -86400000000 < o ∧ o < 86400000000 }) :
    Except Exc Aware := do
  let utc ← d.wall.add (-d.utcoffset)
  let wall ← utc.add offset.val
  pure ⟨wall, offset.val, offset.property⟩

/-- The UTC instant lies in the `datetime` range. -/
def InstantInRange (d : Aware) : Prop := 0 ≤ d.utc ∧ d.utc < 315537897600000000

/-- The offset is a whole number of minutes. -/
def WholeMinutes (d : Aware) : Prop := d.utcoffset % 60000000 = 0

instance (d : Aware) : Decidable d.InstantInRange := inferInstanceAs (Decidable (_ ∧ _))

instance (d : Aware) : Decidable d.WholeMinutes := inferInstanceAs (Decidable (_ = _))

end Aware

/-- `timezone(offset)`. -/
def timezone (offset : Int) :
    Except Exc { o : Int // -86400000000 < o ∧ o < 86400000000 } :=
  if h : -86400000000 < offset ∧ offset < 86400000000 then .ok ⟨offset, h⟩
  else .error (.valueError [lit "offset must be a timedelta strictly between -24 h and 24 h"])

theorem timezone_of_valid {o : Int} (h : -86400000000 < o ∧ o < 86400000000) :
    timezone o = .ok ⟨o, h⟩ := dif_pos h

end SnowflakeSqlApi
