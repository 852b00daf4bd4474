import SnowflakeSqlApi.Decoding
import SnowflakeSqlApi.RoundTrip

/-!
# The fake server's wire encoding

`testing.py`: `_infer_type` picks a column type for a native value and `_encode_cell`
writes the value as the text the SQL API sends for that type.

A temporal value goes out as `epochString`, sign and magnitude of a count that Python
keeps floor-normalised.  That text is a numeral of exactly that many microseconds
(`epochString_eq`, `epochNumeral_micros`), so the decoder gives the value back:
`coerceValue_encodeCell`.

What `str`, `float` and `bytes` make of values of other types stays a parameter.
-/

namespace SnowflakeSqlApi

/-- `bool(value)`. -/
def Value.truthy : Value → Bool
  | .none => false
  | .bool b => b
  | .int n => n ≠ 0
  | .decimal (.finite _ coefficient _ _) => coefficient ≠ 0
  | .float x => !x.isZero
  | .bytes b => !b.isEmpty
  | .str s => !s.isEmpty
  | .container j => j.truthy
  | .decimal (.special _) | .naive _ | .aware _ | .date _ | .time _ | .other _ => true

/-- A value as the argument of `json.dumps`. -/
def Value.toJson : Value → Json
  | .none => .null
  | .bool b => .bool b
  | .int n => .int n
  | .float x => .float x
  | .str s => .str s
  | .container j => j
  | .decimal _ => .other (py "Decimal")
  | .bytes _ => .other (py "bytes")
  | .naive _ | .aware _ => .other (py "datetime")
  | .date _ => .other (py "date")
  | .time _ => .other (py "time")
  | .other type => .other type

/-- Digits with the point after the first `dotPlace` of them, zeros where there are not as many. -/
def pointAt (digits : PyStr) (dotPlace : Int) : PyStr :=
  if dotPlace < 0 then py "0." ++ List.replicate (-dotPlace).toNat (ch '0') ++ digits
  else if digits.length < dotPlace then
    digits ++ List.replicate (dotPlace - digits.length).toNat (ch '0')
  else
    (if dotPlace = 0 then py "0" else digits.take dotPlace.toNat) ++
      if digits.drop dotPlace.toNat = [] then [] else ch '.' :: digits.drop dotPlace.toNat

/-- `format(d, "f")`: a zero is rescaled to exponent 0. -/
def PyDecimal.fixed : PyDecimal → PyStr
  | special text => text
  | finite sign coefficient exponent _ =>
    let digits := strNat coefficient
    let dotPlace : Int := if coefficient = 0 ∧ 0 < exponent then 1 else exponent + digits.length
    (if sign then [ch '-'] else []) ++ pointAt digits dotPlace

namespace Testing

/-- The builtins `_encode_cell` calls on any value. -/
structure Conversions where
  str : Value → Except Exc PyStr
  float : Value → Except Exc PyFloat
  bytes : Value → Except Exc Bytes

/-- `str(value)`. -/
def Conversions.text (conv : Conversions) : Value → Except Exc PyStr
  | .bool b => .ok (if b then py "True" else py "False")
  | .int n => intStr n
  | .decimal d => .ok d.str
  | .float x => .ok x.repr
  | .str s => .ok s
  | value => conv.str value

/-! ### Types -/

/-- `_infer_type`. -/
def inferType : Value → PyStr × Option Int
  | .bool _ => (py "boolean", none)
  | .int _ => (py "fixed", some 0)
  | .decimal (.finite _ _ exponent _) => (py "fixed", some (if exponent < 0 then -exponent else 0))
  | .decimal (.special _) => (py "fixed", some 0)
  | .float _ => (py "real", none)
  | .bytes _ => (py "binary", none)
  | .aware _ => (py "timestamp_tz", none)
  | .naive _ => (py "timestamp_ntz", none)
  | .date _ => (py "date", none)
  | .time _ => (py "time", none)
  | .container (.obj _) => (py "object", none)
  | .container _ => (py "array", none)
  | .none | .str _ | .other _ => (py "text", none)

/-! ### Temporal cells -/

/-- `_fraction`. -/
def fraction (micros : Nat) : PyStr :=
  if micros = 0 then [] else ch '.' :: (fixedDigits 6 micros).map digitChar

/-- `_epoch_delta`, of an aware value. -/
def epochDelta (value : Aware) : Except Exc Int := do
  let value ← value.astimezone ⟨0, Aware.utc_valid⟩
  pure (value.wall.sub .epoch)

/-- `_epoch_string`. -/
def epochString (delta : Int) : PyStr :=
  let total := (TimeDelta.days delta * 86400 + TimeDelta.seconds delta) * 1000000
    + TimeDelta.microseconds delta
  let secs := total.natAbs / 1000000
  let frac := total.natAbs % 1000000
  if frac = 0 then if total < 0 ∧ secs ≠ 0 then ch '-' :: strNat secs else strNat secs
  else
    let body := strNat secs ++ ch '.' :: (fixedDigits 6 frac).map digitChar
    if total < 0 then ch '-' :: body else body

/-- The seconds and microseconds of a clock time; a `datetime` has these attributes too. -/
def clock : Value → Except Exc (Nat × Nat)
  | .time t => .ok (t.hour * 3600 + t.minute * 60 + t.second, t.microsecond)
  | .naive d | .aware ⟨d, _, _⟩ =>
    .ok ((TimeDelta.seconds d.micros).toNat, (TimeDelta.microseconds d.micros).toNat)
  | _ => .error (.attributeError [lit "object has no attribute 'hour'"])

/-- The wall clock, without a time zone. -/
def wallClock : Value → Except Exc Naive
  | .naive d | .aware ⟨d, _, _⟩ => .ok d
  | .time _ => .error (.typeError [lit "unsupported operand type(s) for -"])
  | _ => .error (.attributeError [lit "object has no attribute 'tzinfo'"])

/-- The value as an instant; a naive one counts as UTC. -/
def instant : Value → Except Exc Aware
  | .naive d => .ok ⟨d, 0, Aware.utc_valid⟩
  | .aware d => .ok d
  | .time _ => .error (.attributeError [lit "object has no attribute 'astimezone'"])
  | _ => .error (.attributeError [lit "object has no attribute 'tzinfo'"])

/-- `int(offset.total_seconds() // 60) + 1440`. -/
def offsetField (value : Aware) : Int := value.utcoffset / 60000000 + 1440

def encodeDate : Value → Except Exc PyStr
  | .date d => .ok (strInt (TimeDelta.days (d.sub .epoch)))
  | _ => .error (.typeError [lit "unsupported operand type(s) for -"])

def encodeTime (value : Value) : Except Exc PyStr := do
  let (secs, micros) ← clock value
  pure (strNat secs ++ fraction micros)

def encodeTimestampNtz (value : Value) : Except Exc PyStr := do
  let naive ← wallClock value
  pure (epochString (naive.sub .epoch))

def encodeTimestampLtz (value : Value) : Except Exc PyStr := do
  let delta ← epochDelta (← instant value)
  pure (epochString delta)

def encodeTimestampTz (value : Value) : Except Exc PyStr := do
  let instant ← instant value
  let delta ← epochDelta instant
  pure (epochString delta ++ ch ' ' :: strInt (offsetField instant))

/-! ### Cells -/

/-- `_encode_cell` on a value that is not `None`. -/
def encodeValue (conv : Conversions) (value : Value) (colType : PyStr) : Except Exc PyStr :=
  if colType = py "boolean" then .ok (if value.truthy then py "true" else py "false")
  else if colType ∈ [py "variant", py "object", py "array"] then dumps .default value.toJson
  else if colType = py "binary" then
    match value with
    | .bytes b => .ok (hexText b)
    | value => (conv.bytes value).map hexText
  else if colType = py "date" then encodeDate value
  else if colType = py "time" then encodeTime value
  else if colType = py "timestamp_ntz" then encodeTimestampNtz value
  else if colType = py "timestamp_ltz" then encodeTimestampLtz value
  else if colType = py "timestamp_tz" then encodeTimestampTz value
  else if colType = py "fixed" then
    match value with
    | .decimal d => .ok d.fixed
    | value => conv.text value
  else if colType ∈ [py "real", py "float", py "double"] then
    match value with
    | .float x => .ok x.repr
    | value => (conv.float value).map PyFloat.repr
  else conv.text value

/-- `_encode_cell`. -/
def encodeCell (conv : Conversions) (value : Value) (colType : PyStr) :
    Except Exc (Option PyStr) :=
  match value with
  | .none => .ok none
  | value => (encodeValue conv value colType).map some

theorem encodeCell_eq {conv : Conversions} {value : Value} {colType text : PyStr}
    (hvalue : value ≠ .none) (h : encodeValue conv value colType = .ok text) :
    encodeCell conv value colType = .ok (some text) := by
  rw [encodeCell, h]
  · rfl
  · exact hvalue

/-! ### Microseconds in text -/

/-- A count of microseconds in seconds: no fraction where there is none. -/
def epochNumeral (micros : Int) : Numeral where
  negative := micros < 0
  whole := digitsOf (micros.natAbs / 1000000)
  frac := if micros.natAbs % 1000000 = 0 then none else some (fixedDigits 6 (micros.natAbs % 1000000))
  whole_ne := digitsOf_ne_nil _
  whole_lt := fun _ => digitsOf_lt
  frac_lt := by
    intro ds hds
    split at hds
    · cases hds
    · cases hds
      exact fun _ => fixedDigits_lt

theorem epochNumeral_wholeText (micros : Int) : (epochNumeral micros).wholeText =
    (if micros < 0 then [ch '-'] else []) ++ strNat (micros.natAbs / 1000000) := by
  simp only [Numeral.wholeText, Numeral.signText, epochNumeral, decide_eq_true_eq, strNat]

theorem epochNumeral_fracText (micros : Int) :
    (epochNumeral micros).fracText = fraction (micros.natAbs % 1000000) := by
  rw [Numeral.fracText, fraction]
  simp only [epochNumeral]
  by_cases hfrac : micros.natAbs % 1000000 = 0
  · rw [if_pos hfrac, if_pos hfrac]
    rfl
  · rw [if_neg hfrac, if_neg hfrac]
    rfl

/-- **The text is the numeral of the count**: it has no sign only where the count is zero. -/
theorem epochString_eq (delta : Int) : epochString delta = (epochNumeral delta).text := by
  rw [Numeral.text, epochNumeral_wholeText, epochNumeral_fracText, epochString]
  dsimp only
  rw [TimeDelta.fields_eq, fraction]
  by_cases hneg : delta < 0
  · by_cases hfrac : delta.natAbs % 1000000 = 0
    · have hsecs : delta.natAbs / 1000000 ≠ 0 := by omega
      rw [if_pos hfrac, if_pos ⟨hneg, hsecs⟩, if_pos hneg, if_pos hfrac, List.append_nil]
      rfl
    · rw [if_neg hfrac, if_pos hneg, if_pos hneg, if_neg hfrac]
      rfl
  · by_cases hfrac : delta.natAbs % 1000000 = 0
    · rw [if_pos hfrac, if_neg (fun h => hneg h.1), if_neg hneg, if_pos hfrac, List.append_nil]
      rfl
    · rw [if_neg hfrac, if_neg hneg, if_neg hneg, if_neg hfrac]
      rfl

theorem ofDigitList_epochNumeral_whole (micros : Int) :
    ofDigitList (epochNumeral micros).whole = micros.natAbs / 1000000 := ofDigitList_digitsOf _

/-- The fraction, at any number of digits from six on. -/
theorem ofDigitList_epochNumeral_frac (micros : Int) (k : Nat) :
    ofDigitList (epochNumeral micros).fracDigits * 10 ^ (6 + k) /
      10 ^ (epochNumeral micros).fracDigits.length = micros.natAbs % 1000000 * 10 ^ k := by
  rw [Numeral.fracDigits]
  simp only [epochNumeral]
  by_cases hfrac : micros.natAbs % 1000000 = 0
  · rw [if_pos hfrac, hfrac, Option.getD_none]
    simp [ofDigitList]
  · have hlt : micros.natAbs % 1000000 < 10 ^ 6 := by omega
    rw [if_neg hfrac, Option.getD_some, fixedDigits_length, ofDigitList_fixedDigits hlt, pow_add,
      Nat.mul_left_comm, Nat.mul_div_cancel_left _ (by decide)]

/-- **Nothing is lost at the microsecond.** -/
theorem epochNumeral_micros (micros : Int) : (epochNumeral micros).micros = micros := by
  have hscaled := (epochNumeral micros).truncate_scaled 6
  rw [show (10 : ℚ) ^ 6 = 1000000 by norm_num, ofDigitList_epochNumeral_whole,
    show 6 = 6 + 0 by rfl, ofDigitList_epochNumeral_frac, pow_zero, mul_one] at hscaled
  rw [Numeral.micros, hscaled]
  simp only [epochNumeral, decide_eq_true_eq]
  split <;> omega

/-! ### Dates and times -/

theorem short_epochNumeral {micros : Int} (h : micros.natAbs < 10 ^ 40) :
    (epochNumeral micros).Short := by
  show (digitsOf (micros.natAbs / 1000000)).length ≤ intMaxStrDigits
  exact (length_digitsOf_le (k := 40) (by decide) (by omega)).trans (by decide)

theorem encodeDate_decode (d : PyDate) :
    ∃ text, encodeDate (.date d) = .ok text ∧ decodeDate (.str text) = .ok d := by
  refine ⟨_, rfl, ?_⟩
  have hdays : TimeDelta.days (d.sub .epoch) * millisPerDay / 86400000 =
      TimeDelta.days (d.sub .epoch) := by
    simp only [millisPerDay]
    omega
  have hbound := decodeDate_bound d
  rwa [hdays] at hbound

/-- A count from zero on is split into whole seconds and nanoseconds. -/
theorem splitSeconds_epochNumeral {micros : Nat} (h : micros < 10 ^ 40) :
    splitSeconds (epochNumeral micros).text =
    .ok (((micros / 1000000 : Nat) : Int), ((micros % 1000000 * 1000 : Nat) : Int)) := by
  have hfrac := ofDigitList_epochNumeral_frac micros 3
  have hpositive : (epochNumeral micros).negative = false := by
    simp only [epochNumeral, decide_eq_false_iff_not]
    omega
  have hshort : (epochNumeral micros).Short := short_epochNumeral (by omega)
  rw [Int.natAbs_natCast] at hfrac
  rw [Numeral.splitSeconds_text _ hshort, hpositive, ofDigitList_epochNumeral_whole, Int.natAbs_natCast,
    hfrac]
  simp only [Bool.false_eq_true, ↓reduceIte, one_mul]
  rfl

/-- The microseconds since midnight. -/
def sinceMidnight (t : PyTime) : Nat :=
  (t.hour * 3600 + t.minute * 60 + t.second) * 1000000 + t.microsecond

theorem sinceMidnight_div (t : PyTime) :
    sinceMidnight t / 1000000 = t.hour * 3600 + t.minute * 60 + t.second := by
  have hv := t.valid
  rw [sinceMidnight]
  omega

theorem sinceMidnight_mod (t : PyTime) : sinceMidnight t % 1000000 = t.microsecond := by
  have hv := t.valid
  rw [sinceMidnight]
  omega

/-- A clock time is written as its count from midnight. -/
theorem encodeTime_eq (t : PyTime) :
    encodeTime (.time t) = .ok (epochNumeral (sinceMidnight t)).text := by
  rw [Numeral.text, epochNumeral_wholeText, epochNumeral_fracText, if_neg (by omega),
    Int.natAbs_natCast, sinceMidnight_div, sinceMidnight_mod]
  rfl

theorem encodeTime_decode (t : PyTime) :
    ∃ text, encodeTime (.time t) = .ok text ∧ decodeTime text = .ok t := by
  refine ⟨_, encodeTime_eq t, ?_⟩
  have hbound : sinceMidnight t < 10 ^ 40 := by
    have hv := t.valid
    rw [sinceMidnight]
    omega
  rw [decodeTime, splitSeconds_epochNumeral hbound, sinceMidnight_div, sinceMidnight_mod]
  exact make_of_seconds t

/-! ### Timestamps -/

theorem encodeTimestampNtz_decode (d : Naive) :
    ∃ text, encodeTimestampNtz (.naive d) = .ok text ∧ decodeTimestampNtz text = .ok d := by
  refine ⟨_, rfl, ?_⟩
  have hmicros : d.micros = Naive.epoch.micros + (epochNumeral (d.sub .epoch)).micros := by
    rw [epochNumeral_micros, Naive.sub]
    omega
  have hshort : (epochNumeral (d.sub .epoch)).Short := by
    refine short_epochNumeral ?_
    have hv := d.valid
    simp only [Naive.sub, Naive.epoch]
    omega
  rw [epochString_eq, Numeral.decodeTimestampNtz_text _ hshort, TimeDelta.make_of_instant hmicros]
  exact Naive.add_eq_ok hmicros.symm

/-- The instant as a wall clock at UTC. -/
theorem epochDelta_eq {d : Aware} (h : d.InstantInRange) :
    epochDelta d = .ok (d.utc - Naive.epoch.micros) := by
  have hutc : d.wall.add (-d.utcoffset) = .ok ⟨d.utc, h⟩ := Naive.add_eq_ok rfl
  have hwall : Naive.add ⟨d.utc, h⟩ 0 = .ok ⟨d.utc, h⟩ := Naive.add_eq_ok (by simp)
  rw [epochDelta, Aware.astimezone, hutc]
  dsimp only [bind, Except.bind]
  rw [hwall]
  rfl

/-- No instant outside the range can be written. -/
theorem epochDelta_error {d : Aware} (h : ¬ d.InstantInRange) : ∃ e, epochDelta d = .error e := by
  have hutc : ∃ e, d.wall.add (-d.utcoffset) = .error e := by
    rw [Naive.add, dif_neg]
    · exact ⟨_, rfl⟩
    · exact h
  obtain ⟨e, he⟩ := hutc
  refine ⟨e, ?_⟩
  rw [epochDelta, Aware.astimezone, he]
  rfl

theorem epochNumeral_instant {d : Aware} (h : d.InstantInRange) :
    (⟨d.utc, h⟩ : Naive).micros =
      Naive.epoch.micros + (epochNumeral (d.utc - Naive.epoch.micros)).micros := by
  rw [epochNumeral_micros]
  show d.utc = _
  omega

theorem short_instant {d : Aware} (h : d.InstantInRange) :
    (epochNumeral (d.utc - Naive.epoch.micros)).Short := by
  refine short_epochNumeral ?_
  have hv : 0 ≤ d.utc ∧ d.utc < 315537897600000000 := h
  simp only [Naive.epoch]
  omega

theorem encodeTimestampLtz_decode {d : Aware} (h : d.InstantInRange) :
    ∃ text e, encodeTimestampLtz (.aware d) = .ok text ∧ decodeTimestampLtz text = .ok e ∧
      e.utc = d.utc := by
  refine ⟨epochString (d.utc - Naive.epoch.micros), ⟨⟨d.utc, h⟩, 0, by decide⟩, ?_, ?_, ?_⟩
  · rw [encodeTimestampLtz, instant]
    dsimp only [bind, Except.bind]
    rw [epochDelta_eq h]
    rfl
  · rw [epochString_eq, Numeral.decodeTimestampLtz_text _ (short_instant h)]
    exact Numeral.epoch_add (epochNumeral_instant h)
  · simp [Aware.utc]

/-- The text of an instant and its offset. -/
theorem encodeTimestampTz_eq {d : Aware} (h : d.InstantInRange) : encodeTimestampTz (.aware d) =
    .ok ((epochNumeral (d.utc - Naive.epoch.micros)).text ++ ch ' ' :: strInt (offsetField d)) := by
  rw [encodeTimestampTz, instant]
  dsimp only [bind, Except.bind]
  rw [epochDelta_eq h]
  dsimp only
  rw [epochString_eq]
  rfl

theorem encodeTimestampTz_decode {d : Aware} (h : d.InstantInRange) (hminutes : d.WholeMinutes) :
    ∃ text, encodeTimestampTz (.aware d) = .ok text ∧ decodeTimestampTz text = .ok d := by
  refine ⟨_, encodeTimestampTz_eq h, ?_⟩
  have hoff : d.utcoffset / 60000000 * 60000000 = d.utcoffset := by
    have : d.utcoffset % 60000000 = 0 := hminutes
    omega
  have hvalid := d.valid
  have htext : (epochNumeral (d.utc - Naive.epoch.micros)).TzText
      ((epochNumeral (d.utc - Naive.epoch.micros)).text ++ ch ' ' :: strInt (offsetField d))
      (d.utcoffset / 60000000) := by
    have hoffset : parseInt (strInt (offsetField d)) = some (d.utcoffset / 60000000 + 1440) :=
      parseInt_strInt (fewDigits_of_lt (by rw [offsetField]; omega))
    exact .offset hoffset (by omega)
  have hwall : d.wall.micros = (⟨d.utc, h⟩ : Naive).micros + d.utcoffset / 60000000 * 60000000 := by
    rw [hoff]
    show d.wall.micros = d.wall.micros - d.utcoffset + d.utcoffset
    omega
  obtain ⟨e, he, hutc, hoffset⟩ := htext.decode (short_instant h) (epochNumeral_instant h) hwall
  rw [he]
  rw [hoff] at hoffset
  exact congrArg Except.ok (Aware.ext_utc hutc hoffset)

/-! ### The round trip -/

/-- A value written in a column of the type comes back as `out`. -/
def ReadBack (conv : Conversions) (lib : Builtins) (column : ColumnMeta) (value : Value)
    (type : PyStr) (out : Value) : Prop :=
  ∃ text, encodeCell conv value type = .ok (some text) ∧
    coerceValue lib (.str text) { column with type := some type } = .ok out

variable (conv : Conversions) (lib : Builtins) (column : ColumnMeta)

theorem readBack_date (d : PyDate) :
    ReadBack conv lib column (.date d) (py "date") (.date d) := by
  obtain ⟨text, hencode, hdecode⟩ := encodeDate_decode d
  refine ⟨text, encodeCell_eq (by simp) hencode, ?_⟩
  have hkind : Kind.ofType (py "date") = .date := by decide
  rw [coerceValue_str lib column hkind]
  exact congrArg (Except.map Value.date) hdecode

theorem readBack_time (t : PyTime) :
    ReadBack conv lib column (.time t) (py "time") (.time t) := by
  obtain ⟨text, hencode, hdecode⟩ := encodeTime_decode t
  refine ⟨text, encodeCell_eq (by simp) hencode, ?_⟩
  have hkind : Kind.ofType (py "time") = .time := by decide
  rw [coerceValue_str lib column hkind]
  exact congrArg (Except.map Value.time) hdecode

theorem readBack_timestampNtz (d : Naive) :
    ReadBack conv lib column (.naive d) (py "timestamp_ntz") (.naive d) := by
  obtain ⟨text, hencode, hdecode⟩ := encodeTimestampNtz_decode d
  refine ⟨text, encodeCell_eq (by simp) hencode, ?_⟩
  have hkind : Kind.ofType (py "timestamp_ntz") = .timestampNtz := by decide
  rw [coerceValue_str lib column hkind]
  exact congrArg (Except.map Value.naive) hdecode

theorem readBack_timestampLtz {d : Aware} (h : d.InstantInRange) :
    ∃ e, ReadBack conv lib column (.aware d) (py "timestamp_ltz") (.aware e) ∧ e.utc = d.utc := by
  obtain ⟨text, e, hencode, hdecode, hutc⟩ := encodeTimestampLtz_decode h
  refine ⟨e, ⟨text, encodeCell_eq (by simp) hencode, ?_⟩, hutc⟩
  have hkind : Kind.ofType (py "timestamp_ltz") = .timestampLtz := by decide
  rw [coerceValue_str lib column hkind]
  exact congrArg (Except.map Value.aware) hdecode

theorem readBack_timestampTz {d : Aware} (h : d.InstantInRange) (hminutes : d.WholeMinutes) :
    ReadBack conv lib column (.aware d) (py "timestamp_tz") (.aware d) := by
  obtain ⟨text, hencode, hdecode⟩ := encodeTimestampTz_decode h hminutes
  refine ⟨text, encodeCell_eq (by simp) hencode, ?_⟩
  have hkind : Kind.ofType (py "timestamp_tz") = .timestampTz := by decide
  rw [coerceValue_str lib column hkind]
  exact congrArg (Except.map Value.aware) hdecode

/-- **The encoder inverts the client's decoder on temporal values**: an aware one keeps its offset
in a `timestamp_tz` column and its instant in a `timestamp_ltz` column. -/
theorem coerceValue_encodeCell :
    (∀ d, ReadBack conv lib column (.date d) (py "date") (.date d)) ∧
    (∀ t, ReadBack conv lib column (.time t) (py "time") (.time t)) ∧
    (∀ d, ReadBack conv lib column (.naive d) (py "timestamp_ntz") (.naive d)) ∧
    ∀ d : Aware, d.InstantInRange → d.WholeMinutes →
      ReadBack conv lib column (.aware d) (py "timestamp_tz") (.aware d) ∧
      ∃ e, ReadBack conv lib column (.aware d) (py "timestamp_ltz") (.aware e) ∧ e.utc = d.utc :=
  ⟨readBack_date conv lib column, readBack_time conv lib column, readBack_timestampNtz conv lib column,
    fun _ h hminutes => ⟨readBack_timestampTz conv lib column h hminutes,
      readBack_timestampLtz conv lib column h⟩⟩

/-- Conversions that refuse every other type. -/
def refusingConversions : Conversions where
  str _ := .ok (py "?")
  float _ := .error (.typeError [])
  bytes _ := .error (.typeError [])

theorem coerceValue_encodeCell_beforeEpoch :
    ReadBack refusingConversions refusingBuiltins ⟨.str (py "ts"), none, .null, .null, true⟩
      (.aware beforeEpoch) (py "timestamp_tz") (.aware beforeEpoch) :=
  ((coerceValue_encodeCell refusingConversions refusingBuiltins
    ⟨.str (py "ts"), none, .null, .null, true⟩).2.2.2 beforeEpoch (by decide) (by decide)).1

/-- Half a second before the epoch. -/
example : epochString (-500000) = py "-0.500000" := by decide

end Testing

end SnowflakeSqlApi
