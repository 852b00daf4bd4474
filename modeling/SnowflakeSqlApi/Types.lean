import Mathlib.Data.List.Sort
import SnowflakeSqlApi.Bindings
import SnowflakeSqlApi.Lib.Fallible

/-!
# Result-set coercion

`types.py`: a cell of a result is a JSON value, and `coerceValue` turns it into a
Python value by the type of its column.  Temporal cells are numbers in text, which
`splitSeconds` takes apart.

Three builtins stay parameters, in `Builtins`: `float`, `Decimal` on an argument that
is not text, and `json.loads`.
-/

namespace SnowflakeSqlApi

/-- The builtins that decode a cell. -/
structure Builtins where
  float : Json → Except Exc PyFloat
  decimal : Json → Except Exc PyDecimal
  loads : Json → Except Exc Json

/-! ### Columns -/

/-- One entry of `rowType`. `type` is `none` where the entry's type is not text: its `str()` is
then none of the names `coerceValue` knows. -/
structure ColumnMeta where
  name : Json
  type : Option PyStr
  scale : Json := .null
  precision : Json := .null
  nullable : Bool := true

/-- The branches of `coerce_value`. -/
inductive Kind
  | fixed | real | text | boolean | binary | date | time | timestampNtz | timestampLtz
  | timestampTz | variant | unknown
  deriving DecidableEq

def Kind.ofType (type : PyStr) : Kind :=
  if type = py "fixed" then fixed
  else if type ∈ [py "real", py "float", py "double"] then real
  else if type ∈ [py "text", py "char", py "string", py "varchar"] then text
  else if type = py "boolean" then boolean
  else if type = py "binary" then binary
  else if type = py "date" then date
  else if type = py "time" then time
  else if type = py "timestamp_ntz" then timestampNtz
  else if type = py "timestamp_ltz" then timestampLtz
  else if type = py "timestamp_tz" then timestampTz
  else if type ∈ [py "variant", py "object", py "array"] then variant
  else unknown

def ColumnMeta.kind (column : ColumnMeta) : Kind := column.type.elim .unknown Kind.ofType

/-- `ColumnMeta.from_row_type`. -/
def ColumnMeta.fromRowType : Json → Except Exc ColumnMeta
  | .obj entry =>
    match Dict.get? entry (py "name"), Dict.get? entry (py "type") with
    | none, _ => .error (.keyError [lit "name"])
    | some _, none => .error (.keyError [lit "type"])
    | some name, some type => .ok {
        name
        type := match type with
          | .str s => some (asciiLower s)
          | _ => none
        scale := Dict.get entry (py "scale")
        precision := Dict.get entry (py "precision")
        nullable := (Dict.getD entry (py "nullable") (.bool true)).truthy }
  | _ => .error (.typeError [lit "row type is not subscriptable by name"])

/-- The names that come more than once, each where it first comes. -/
def duplicateNames (names : List Json) (keys : List Key) : List Json :=
  (((names.zip keys).filter fun x => 1 < keys.count x.2).eraseDupsBy fun x y => x.2 == y.2).map
    Prod.fst

def isNumber : Json → Bool
  | .bool _ | .int _ | .float _ => true
  | _ => false

def nameText? : Json → Option PyStr
  | .str s => some s
  | _ => none

/-- `sorted(names)`: by code points, where all are texts. Numbers stay as they come, since a float has
no value here; other values, and texts among numbers, have no order. -/
def sortNames (names : List Json) : Except Exc (List Json) :=
  if names.length ≤ 1 ∨ names.all isNumber then .ok names
  else
    match names.mapM nameText? with
    | some texts => .ok ((texts.insertionSort (· ≤ ·)).map .str)
    | none => .error (.typeError [lit "'<' not supported between instances of these types"])

/-- `_validate_column_names`: hashable, and distinct as `dict` keys. -/
def validateColumnNames (columns : List ColumnMeta) (context : PyStr) : Except Exc Unit :=
  match columns.mapM fun c => c.name.key? with
  | none => .error (.typeError [lit "unhashable type"])
  | some keys =>
    if keys.Nodup then .ok ()
    else do
      let duplicates ← sortNames (duplicateNames (columns.map (·.name)) keys)
      .error (.config ([.str context, lit " require unique column names; duplicate names: "]
        ++ duplicates.intersperse (lit ", ") ++ [lit "; use distinct SQL aliases"]))

/-! ### Numbers -/

/-- `int(value)`. -/
def intOf : Json → Except Exc Int
  | .int n => .ok n
  | .bool b => .ok (if b then 1 else 0)
  | .float x =>
    match x.toInt with
    | some n => .ok n
    | none =>
      .error (if x.repr = py "nan" then .valueError [lit "cannot convert float NaN to integer"]
        else .overflowError [lit "cannot convert float infinity to integer"])
  | .str s =>
    match parseInt s with
    | some n => .ok n
    | none =>
      .error (if (readInt s).isSome then .tooManyDigits
        else .valueError [lit "invalid literal for int() with base 10: ", .str s])
  | value => .error (.typeError [lit "int() argument must be a string or a real number, not ", value])

/-- `int(text)` on text. -/
def intOfText (s : PyStr) : Except Exc Int := intOf (.str s)

theorem intOfText_eq_ok {s : PyStr} {n : Int} : intOfText s = .ok n ↔ parseInt s = some n := by
  rw [intOfText, intOf]
  cases parseInt s with
  | none => exact ⟨(fun h => by cases h), fun h => by cases h⟩
  | some m => rw [Except.ok.injEq, Option.some_inj]

/-- An integer that `int` makes of a cell is short, if a cell that is one was. -/
theorem fewDigits_of_intOf {value : Json} {n : Int} (hint : ∀ m, value = .int m → FewDigits m)
    (h : intOf value = .ok n) : FewDigits n := by
  cases value with
  | int m =>
    cases h
    exact hint n rfl
  | bool b => cases b <;> cases h <;> exact fewDigits_of_lt (by decide)
  | float x =>
    rw [intOf] at h
    split at h
    · next hn =>
      cases h
      exact x.few n hn
    · cases h
  | str s => exact fewDigits_of_parseInt (intOfText_eq_ok.mp h)
  | _ => cases h

theorem intOfText_strInt {n : Int} (h : FewDigits n) : intOfText (strInt n) = .ok n :=
  intOfText_eq_ok.mpr (parseInt_strInt h)

def isDigit (c : PyChar) : Bool := (decimalValue c).isSome

/-- An optional sign and the text after it; `true` is minus. -/
def splitSign : PyStr → Bool × PyStr
  | [] => (false, [])
  | c :: cs => if c = ch '-' then (true, cs) else if c = ch '+' then (false, cs) else (false, c :: cs)

/-- `InvalidOperation`, with the condition that `decimal` names in it. -/
def Exc.invalidOperation (condition : String) : Exc :=
  .builtin "InvalidOperation" [lit "[<class 'decimal.", lit condition, lit "'>]"]

/-- A `Decimal` of the digits, where its exponents allow one. -/
def PyDecimal.make (sign : Bool) (coefficient : Nat) (exponent : Int) : Except Exc PyDecimal :=
  if h : InDecimalRange coefficient exponent then .ok (.finite sign coefficient exponent h)
  else .error (.invalidOperation "InvalidOperation")

theorem PyDecimal.make_eq {coefficient : Nat} {exponent : Int} (sign : Bool)
    (h : InDecimalRange coefficient exponent) :
    make sign coefficient exponent = .ok (.finite sign coefficient exponent h) := dif_pos h

/-- The exponent of a decimal literal: nothing, or `e`, an optional sign and digits. -/
def parseExponent : PyStr → Except Exc Int
  | [] => .ok 0
  | c :: cs =>
    let signed := splitSign cs
    if (c = ch 'e' ∨ c = ch 'E') ∧ signed.2 ≠ [] ∧ signed.2.all isDigit then
      let n : Int := ofDigitList (signed.2.filterMap decimalValue)
      .ok (if signed.1 then -n else n)
    else .error (.invalidOperation "ConversionSyntax")

/-- The digits after the name of a NaN, without the zeros before them. -/
def payload (digits : PyStr) : PyStr :=
  ((digits.filterMap decimalValue).dropWhile (· = 0)).map digitChar

/-- `Decimal(text)`. -/
def parseDecimal (s : PyStr) : Except Exc PyDecimal :=
  let signed := splitSign ((strip s).filter (· ≠ ch '_'))
  let whole := signed.2.takeWhile isDigit
  let rest := signed.2.dropWhile isDigit
  let point := rest.head? = some (ch '.')
  let frac := if point then rest.tail.takeWhile isDigit else []
  let exponent := if point then rest.tail.dropWhile isDigit else rest
  if whole ≠ [] ∨ frac ≠ [] then do
    let e ← parseExponent exponent
    PyDecimal.make signed.1 (ofDigitList ((whole ++ frac).filterMap decimalValue)) (e - frac.length)
  else
    let name := asciiLower signed.2
    let mark := if signed.1 then [ch '-'] else []
    if name = py "inf" ∨ name = py "infinity" then .ok (.special (mark ++ py "Infinity"))
    else if name.take 3 = py "nan" ∧ (name.drop 3).all isDigit then
      .ok (.special (mark ++ py "NaN" ++ payload (name.drop 3)))
    else if name.take 4 = py "snan" ∧ (name.drop 4).all isDigit then
      .ok (.special (mark ++ py "sNaN" ++ payload (name.drop 4)))
    else .error (.invalidOperation "ConversionSyntax")

def decimalOf (lib : Builtins) : Json → Except Exc PyDecimal
  | .str s => parseDecimal s
  | value => lib.decimal value

/-- `scale in (None, 0)`. -/
def isNoneOrZero : Json → Bool
  | .null | .bool false => true
  | .int n => n = 0
  | .float x => x.isZero
  | _ => false

def decodeFixed (lib : Builtins) (value : Json) (scale : Json) : Except Exc Value :=
  if isNoneOrZero scale then (intOf value).map .int else (decimalOf lib value).map .decimal

/-! ### Temporal cells -/

/-- The text of a cell, for the decoders that call a `str` method on it. -/
def textOf : Json → Except Exc PyStr
  | .str s => .ok s
  | value => .error (.attributeError [value, lit " has no text methods"])

/-- `int((frac_part + "000000000")[:9]) if frac_part else 0`. -/
def fractionNanos (frac : PyStr) : Except Exc Int :=
  if frac = [] then .ok 0 else intOfText ((frac ++ py "000000000").take 9)

def splitSeconds (value : PyStr) : Except Exc (Int × Int) := do
  let parts := partition (ch '.') value
  let whole ← intOfText parts.1
  let nanos ← fractionNanos parts.2
  pure (whole, if value.head? = some (ch '-') then -nanos else nanos)

theorem splitSeconds_eq {value : PyStr} {whole nanos : Int}
    (hwhole : intOfText (partition (ch '.') value).1 = .ok whole)
    (hnanos : fractionNanos (partition (ch '.') value).2 = .ok nanos) :
    splitSeconds value =
      .ok (whole, if value.head? = some (ch '-') then -nanos else nanos) := by
  rw [splitSeconds, hwhole, hnanos]
  rfl

/-- Truncation toward zero. -/
def nanosToMicros (nanos : Int) : Int :=
  if 0 ≤ nanos then nanos / 1000 else -(-nanos / 1000)

def decodeDate (value : Json) : Except Exc PyDate := do
  let days ← intOf value
  let delta ← TimeDelta.make (days * microsPerDay)
  PyDate.epoch.add delta

def decodeTime (value : PyStr) : Except Exc PyTime := do
  let (secs, nanos) ← splitSeconds value
  PyTime.make (secs / 3600 % 24) (secs % 3600 / 60) (secs % 60) (nanosToMicros nanos)

/-- `timedelta(seconds=secs, microseconds=_nanos_to_micros(nanos))`. -/
def secondsDelta (secs nanos : Int) : Except Exc Int :=
  TimeDelta.make (secs * microsPerSecond + nanosToMicros nanos)

def decodeTimestampNtz (value : PyStr) : Except Exc Naive := do
  let (secs, nanos) ← splitSeconds value
  let delta ← secondsDelta secs nanos
  Naive.epoch.add delta

def decodeTimestampLtz (value : PyStr) : Except Exc Aware := do
  let (secs, nanos) ← splitSeconds value
  let delta ← secondsDelta secs nanos
  Aware.epoch.add delta

def decodeTimestampTz (value : PyStr) : Except Exc Aware := do
  let parts := partition (ch ' ') value
  let (secs, nanos) ← splitSeconds parts.1
  let delta ← secondsDelta secs nanos
  let instant ← Aware.epoch.add delta
  if parts.2 = [] then pure instant
  else do
    let offset ← intOfText parts.2
    let delta ← TimeDelta.make ((offset - 1440) * 60000000)
    let tz ← timezone delta
    instant.astimezone tz

/-! ### Cells and rows -/

/-- `str(raw).strip().lower() in ("true", "1")`. -/
def decodeBoolean : Json → Bool
  | .bool b => b
  | .int n => n = 1
  | .str s => asciiLower (strip s) = py "true" || asciiLower (strip s) = py "1"
  | _ => false

/-- `bytes.fromhex`: digit pairs, ASCII whitespace allowed between them. -/
def fromHex : PyStr → Option Bytes
  | [] => some []
  | c :: cs =>
    if (9 ≤ c.val ∧ c.val ≤ 13) ∨ c.val = 32 then fromHex cs
    else
      match hexValue c, cs with
      | some hi, d :: ds =>
        match hexValue d with
        | some lo => (fromHex ds).map (((hi * 16 + lo).toUInt8) :: ·)
        | none => none
      | _, _ => none

def decodeBinary : Json → Except Exc Bytes
  | .str s =>
    match fromHex s with
    | some b => .ok b
    | none => .error (.valueError [lit "non-hexadecimal number found in fromhex() arg"])
  | value => .error (.typeError [lit "fromhex() argument must be str, not ", value])

/-- A JSON value as the Python value `json.loads` gives. -/
def Value.ofJson : Json → Value
  | .null => .none
  | .bool b => .bool b
  | .int n => .int n
  | .float x => .float x
  | .str s => .str s
  | .other type => .other type
  | j => .container j

def coerceValue (lib : Builtins) (raw : Json) (column : ColumnMeta) : Except Exc Value :=
  match raw with
  | .null => .ok .none
  | raw =>
    match column.kind with
    | .fixed => decodeFixed lib raw column.scale
    | .real => (lib.float raw).map .float
    | .text => .ok (.ofJson raw)
    | .boolean => .ok (.bool (decodeBoolean raw))
    | .binary => (decodeBinary raw).map .bytes
    | .date => (decodeDate raw).map .date
    | .time => do return .time (← decodeTime (← textOf raw))
    | .timestampNtz => do return .naive (← decodeTimestampNtz (← textOf raw))
    | .timestampLtz => do return .aware (← decodeTimestampLtz (← textOf raw))
    | .timestampTz => do return .aware (← decodeTimestampTz (← textOf raw))
    | .variant => (lib.loads raw).map .ofJson
    | .unknown => .ok (.ofJson raw)

/-- A row: its cells by column key, in insertion order. -/
abbrev Row := List (Key × Value)

/-- The dict comprehension of `coerce_row`, from the pairs already in the row. -/
def coerceCells (lib : Builtins) : Row → List ColumnMeta → List Json → Except Exc Row
  | row, column :: columns, cell :: cells =>
    match coerceValue lib cell column with
    | .error e => .error e
    | .ok value =>
      match column.name.key? with
      | none => .error (.typeError [lit "unhashable type"])
      | some key => coerceCells lib (assocSet row key value) columns cells
  | row, _, _ => .ok row

def rowShapeError (columns : List ColumnMeta) : Exc where
  cls := .request
  message := [lit "result row must be an array with ", .int columns.length, lit " values"]

def coerceRow (lib : Builtins) (rawRow : Json) (columns : List ColumnMeta) : Except Exc Row :=
  match rawRow with
  | .arr cells =>
    if cells.length = columns.length then coerceCells lib [] columns cells
    else .error (rowShapeError columns)
  | _ => .error (rowShapeError columns)

def coerceRows (lib : Builtins) (rawRows : List Json) (columns : List ColumnMeta) :
    Except Exc (List Row) := rawRows.mapM fun row => coerceRow lib row columns

/-- The keys of a row are those it had and those of the columns. -/
theorem coerceCells_keys {lib : Builtins} {row out : Row} {columns : List ColumnMeta}
    {cells : List Json} {keys : List Key} (hlength : cells.length = columns.length)
    (hkeys : columns.mapM (fun c => c.name.key?) = some keys)
    (hnodup : (row.map Prod.fst ++ keys).Nodup) (h : coerceCells lib row columns cells = .ok out) :
    out.map Prod.fst = row.map Prod.fst ++ keys := by
  induction columns generalizing row cells keys with
  | nil =>
    rw [List.mapM_nil] at hkeys
    cases hkeys
    cases cells with
    | nil =>
      cases h
      rw [List.append_nil]
    | cons cell cells => cases hlength
  | cons column columns ih =>
    cases cells with
    | nil => cases hlength
    | cons cell cells =>
      rw [List.mapM_cons] at hkeys
      obtain ⟨key, hkey, hkeys⟩ := Option.bind_eq_some_iff.mp hkeys
      obtain ⟨rest, hrest, hkeys⟩ := Option.bind_eq_some_iff.mp hkeys
      cases hkeys
      rw [coerceCells, hkey] at h
      cases hvalue : coerceValue lib cell column with
      | error e =>
        rw [hvalue] at h
        cases h
      | ok value =>
        rw [hvalue] at h
        have hnew : key ∉ row.map Prod.fst := fun hmem =>
          (List.nodup_append.mp hnodup).2.2 key hmem key (by simp) rfl
        have hmap : (assocSet row key value).map Prod.fst = row.map Prod.fst ++ [key] := by
          rw [assocSet_of_notMem value hnew, List.map_append]
          rfl
        have hout := ih (Nat.succ.inj hlength) hrest (by rw [hmap]; simpa using hnodup) h
        rw [hout, hmap, List.append_assoc]
        rfl

/-- **A row has one entry for each column.** -/
theorem coerceRow_keys {lib : Builtins} {raw : Json} {columns : List ColumnMeta} {row : Row}
    {keys : List Key} (hkeys : columns.mapM (fun c => c.name.key?) = some keys)
    (hnodup : keys.Nodup) (h : coerceRow lib raw columns = .ok row) : row.map Prod.fst = keys := by
  cases raw with
  | arr cells =>
    rw [coerceRow] at h
    by_cases hlength : cells.length = columns.length
    · rw [if_pos hlength] at h
      have hstart : ((([] : Row).map Prod.fst) ++ keys).Nodup := hnodup
      exact coerceCells_keys hlength hkeys hstart h
    · rw [if_neg hlength] at h
      cases h
  | _ => cases h

theorem validateColumnNames_of_nodup {columns : List ColumnMeta} {context : PyStr} {keys : List Key}
    (hkeys : columns.mapM (fun c => c.name.key?) = some keys) (h : keys.Nodup) :
    validateColumnNames columns context = .ok () := by
  rw [validateColumnNames, hkeys]
  exact if_pos h

/-- Repeated names are a configuration error, unless they cannot be sorted for its message. -/
theorem validateColumnNames_of_repeat {columns : List ColumnMeta} (context : PyStr) {keys : List Key}
    (hkeys : columns.mapM (fun c => c.name.key?) = some keys) (h : ¬ keys.Nodup) :
    ∃ e, validateColumnNames columns context = .error e ∧
      ∀ names, sortNames (duplicateNames (columns.map (·.name)) keys) = .ok names →
        e.cls = .config := by
  rw [validateColumnNames, hkeys]
  dsimp only
  rw [if_neg h]
  cases hsort : sortNames (duplicateNames (columns.map (·.name)) keys) with
  | error e => exact ⟨e, rfl, fun names hnames => by cases hnames⟩
  | ok names => exact ⟨_, rfl, fun _ _ => rfl⟩

theorem validateColumnNames_ok {columns : List ColumnMeta} {context : PyStr}
    (h : validateColumnNames columns context = .ok ()) :
    ∃ keys, columns.mapM (fun c => c.name.key?) = some keys ∧ keys.Nodup := by
  rw [validateColumnNames] at h
  split at h
  · cases h
  · next keys hkeys =>
    split at h
    · next hnodup => exact ⟨keys, hkeys, hnodup⟩
    · obtain ⟨_, _, h⟩ := bind_eq_ok.mp h
      cases h

end SnowflakeSqlApi
