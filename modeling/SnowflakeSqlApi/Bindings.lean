import SnowflakeSqlApi.Python.Dumps
import SnowflakeSqlApi.Python.Temporal

/-!
# Parameter binding

`bindings.py`: each Python value becomes a `{"type", "value"}` pair whose value is
text, and `toBindings` numbers the pairs from `"1"`.  A temporal value is bound as a
count from the epoch.

The constructors of `Value` follow the tests of `_bind_one`, which checks a narrower
type before the wider one (`bool` before `int`, `datetime` before `date`).
-/

namespace SnowflakeSqlApi

/-- What the `decimal` module can hold: `MAX_EMAX` bounds the exponent of the first digit, and
`MIN_ETINY` that of the last. -/
def InDecimalRange (coefficient : Nat) (exponent : Int) : Prop :=
  exponent + (digitsOf coefficient).length - 1 ≤ 999999999999999999 ∧ -1999999999999999997 ≤ exponent

instance (coefficient : Nat) (exponent : Int) : Decidable (InDecimalRange coefficient exponent) :=
  inferInstanceAs (Decidable (_ ∧ _))

/-- A `Decimal`: `(-1)^sign * coefficient * 10^exponent`, or the text of an infinity or a
NaN. -/
inductive PyDecimal
  | finite (sign : Bool) (coefficient : Nat) (exponent : Int)
      (inRange : InDecimalRange coefficient exponent)
  | special (text : PyStr)
  deriving DecidableEq

/-- `str(d)`, scientific notation included. -/
def PyDecimal.str : PyDecimal → PyStr
  | special text => text
  | finite sign coefficient exponent _ =>
    let digits := strNat coefficient
    let leftDigits : Int := exponent + digits.length
    let dotPlace : Int := if exponent ≤ 0 ∧ -6 < leftDigits then leftDigits else 1
    let mantissa :=
      if dotPlace ≤ 0 then py "0." ++ List.replicate (-dotPlace).toNat (ch '0') ++ digits
      else if digits.length ≤ dotPlace then
        digits ++ List.replicate (dotPlace - digits.length).toNat (ch '0')
      else digits.take dotPlace.toNat ++ [ch '.'] ++ digits.drop dotPlace.toNat
    let exponentText :=
      if leftDigits = dotPlace then []
      else [ch 'E'] ++ (if leftDigits < dotPlace then [] else [ch '+'])
        ++ strInt (leftDigits - dotPlace)
    (if sign then [ch '-'] else []) ++ mantissa ++ exponentText

/-- A parameter or a decoded cell. -/
inductive Value
  | none
  | bool (b : Bool)
  | int (n : Int)
  | decimal (d : PyDecimal)
  | float (x : PyFloat)
  | bytes (b : Bytes)
  | naive (d : Naive)
  | aware (d : Aware)
  | date (d : PyDate)
  | time (t : PyTime)
  | str (s : PyStr)
  /-- A `list`, `tuple` or `dict`. -/
  | container (j : Json)
  /-- An object of a type that cannot be bound. -/
  | other (type : PyStr)

/-- One entry of the `bindings` map. -/
structure BindingValue where
  type : PyStr
  value : Option PyStr

namespace BindingValue

def toJson (b : BindingValue) : Json :=
  .obj [(py "type", .str b.type), (py "value", b.value.elim .null .str)]

end BindingValue

/-! ### Epoch counts -/

/-- The nanoseconds of a `timedelta`, from its normalised fields. -/
def epochNanos (delta : Int) : Int :=
  (TimeDelta.days delta * 86400 + TimeDelta.seconds delta) * 1000000000
    + TimeDelta.microseconds delta * 1000

/-- The floor-normalised fields give the exact count. -/
theorem epochNanos_eq (delta : Int) : epochNanos delta = delta * 1000 := by
  have h := TimeDelta.fields_eq delta
  simp only [epochNanos]
  omega

/-- `round(n / d)` for a positive `d`: to the nearest integer, a tie to the even one. -/
def roundDiv (n d : Int) : Int :=
  if 2 * (n % d) < d then n / d
  else if d < 2 * (n % d) then n / d + 1
  else if n / d % 2 = 0 then n / d else n / d + 1

theorem roundDiv_of_dvd {n d : Int} (hd : 0 < d) (h : n % d = 0) : roundDiv n d = n / d := by
  rw [roundDiv, h, if_pos (by omega)]

def bindDatetimeNaive (value : Naive) : BindingValue :=
  ⟨py "TIMESTAMP_NTZ", some (strInt (epochNanos (value.sub .epoch)))⟩

/-- `round(offset.total_seconds() / 60) if offset else 0`. -/
def offsetMinutes (value : Aware) : Int := roundDiv value.utcoffset 60000000

def bindDatetimeAware (value : Aware) : BindingValue :=
  ⟨py "TIMESTAMP_TZ",
    some (strInt (epochNanos (value.sub .epoch)) ++ [ch ' '] ++ strInt (offsetMinutes value + 1440))⟩

def millisPerDay : Int := 86400000

/-- `bytes.hex()`. -/
def hexText (b : Bytes) : PyStr :=
  b.flatMap fun x => [hexDigit (x.toNat / 16), hexDigit (x.toNat % 16)]

/-! ### `_bind_one` and `to_bindings` -/

def bindOne : Value → Except Exc BindingValue
  | .none => .ok ⟨py "TEXT", Option.none⟩
  | .bool b => .ok ⟨py "BOOLEAN", some (if b then py "true" else py "false")⟩
  | .int n => do
    let text ← intStr n
    pure ⟨py "FIXED", some text⟩
  | .decimal d => .ok ⟨py "FIXED", some d.str⟩
  | .float x => .ok ⟨py "REAL", some x.repr⟩
  | .bytes b => .ok ⟨py "BINARY", some (hexText b)⟩
  | .naive d => .ok (bindDatetimeNaive d)
  | .aware d => .ok (bindDatetimeAware d)
  | .date d => .ok ⟨py "DATE", some (strInt (TimeDelta.days (d.sub .epoch) * millisPerDay))⟩
  | .time t => .ok ⟨py "TIME", some (strInt
      ((t.hour * 3600 + t.minute * 60 + t.second) * 1000000000 + t.microsecond * 1000))⟩
  | .str s => .ok ⟨py "TEXT", some s⟩
  | .container j => do
    let text ← dumps .default j
    pure ⟨py "TEXT", some text⟩
  | .other type =>
    .error (.config [lit "cannot bind value of type ", .str type, lit ": ", .other type])

/-- The `bindings` pairs of `params`, numbered from `start`. -/
def toBindingsFrom : Nat → List Value → Except Exc (List (PyStr × BindingValue))
  | _, [] => .ok []
  | start, value :: params => do
    let b ← bindOne value
    let rest ← toBindingsFrom (start + 1) params
    pure ((strNat start, b) :: rest)

def toBindings (params : List Value) : Except Exc (List (PyStr × BindingValue)) :=
  toBindingsFrom 1 params

/-- The bindings as the JSON object sent. -/
def bindingsJson (bindings : List (PyStr × BindingValue)) : Json :=
  .obj (bindings.map fun kb => (kb.1, kb.2.toJson))

theorem toBindingsFrom_eq_ok {start : Nat} {params : List Value}
    {bs : List (PyStr × BindingValue)} :
    toBindingsFrom start params = .ok bs ↔
      ∃ vs, List.Forall₂ (fun v b => bindOne v = .ok b) params vs ∧
        bs = vs.mapIdx fun i b => (strNat (start + i), b) := by
  induction params generalizing start bs with
  | nil =>
    constructor
    · intro h
      cases h
      exact ⟨[], .nil, rfl⟩
    · rintro ⟨vs, h, rfl⟩
      cases h
      rfl
  | cons value params ih =>
    rw [toBindingsFrom]
    constructor
    · intro h
      cases hb : bindOne value with
      | error e => rw [hb] at h; cases h
      | ok b =>
        cases hr : toBindingsFrom (start + 1) params with
        | error e => rw [hb, hr] at h; cases h
        | ok rest =>
          rw [hb, hr] at h
          cases h
          obtain ⟨vs, hvs, rfl⟩ := ih.mp hr
          refine ⟨b :: vs, .cons hb hvs, ?_⟩
          simp only [List.mapIdx_cons, Nat.add_zero, Nat.add_assoc, Nat.add_comm 1]
    · rintro ⟨vs, h, rfl⟩
      obtain _ | ⟨hb, h⟩ := h
      rw [hb, ih.mpr ⟨_, h, rfl⟩]
      simp only [List.mapIdx_cons, Nat.add_zero, Nat.add_assoc, Nat.add_comm 1]
      rfl

end SnowflakeSqlApi
