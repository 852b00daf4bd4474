import SnowflakeSqlApi.Poll
import SnowflakeSqlApi.Types

/-!
# Results in partitions

`pagination.py` and the two queries over it.  `fetchAllPartitions` gathers the raw rows of
every partition before any is converted; `iterResultRows` converts a row when it is asked for
and fetches a partition when the one before it is used up, so that a run of it is the
`Stream` of what it fetched and yielded up to an exception.

They read the `data` of a partition differently: `rowsOf` takes anything falsy for
no rows, `streamData` insists on an array.
-/

namespace SnowflakeSqlApi

/-- `list(value)`. -/
def listOf : Json → Except Exc (List Json)
  | .arr xs => .ok xs
  | .str s => .ok (s.map fun c => .str [c])
  | .obj kvs => .ok (kvs.map fun kv => .str kv.1)
  | value => .error (.typeError [value, lit " is not iterable"])

/-- `len(value)`. -/
def lengthOf : Json → Except Exc Nat
  | .arr xs => .ok xs.length
  | .str s => .ok s.length
  | .obj kvs => .ok kvs.length
  | value => .error (.typeError [value, lit " has no len()"])

/-- `(body.get("resultSetMetaData") or {}).get`. -/
def resultMetadata (body : Dict) : Except Exc Dict :=
  match (body.get (py "resultSetMetaData")).orElse (.obj []) with
  | .obj metadata => .ok metadata
  | value => .error (.attributeError [value, lit " has no attribute 'get'"])

/-- `_columns_from`. -/
def columnsFrom (body : Dict) : Except Exc (List ColumnMeta) := do
  let metadata ← resultMetadata body
  let entries ← listOf (metadata.getD (py "rowType") (.arr []))
  let columns ← entries.mapM ColumnMeta.fromRowType
  validateColumnNames columns (py "results")
  pure columns

def partitionCount (firstBody : Dict) : Except Exc Nat := do
  let metadata ← resultMetadata firstBody
  lengthOf ((metadata.get (py "partitionInfo")).orElse (.arr []))

/-! ### All partitions at once -/

/-- How a client fetches: its transport, and what happens to the GET of each partition. -/
structure Fetcher where
  policy : RetryPolicy
  mode : Mode
  script : Nat → Script

/-- `transport.get_statement(statement_handle, partition=index)`. -/
def Fetcher.getStatement (f : Fetcher) (handle : Json) (index : Nat) :
    Except Exc StatementResponse :=
  (send f.policy f.mode (.getStatement handle (some index)) (f.script index)).2

/-- `_rows`. -/
def rowsOf (body : Dict) : Except Exc (List Json) :=
  listOf ((body.get (py "data")).orElse (.arr []))

/-- `for index in range(1, partition_count(first_body))`, `n` rounds being left. -/
def extendRows (f : Fetcher) (handle : Json) : Nat → Nat → List Json → Except Exc (List Json)
  | 0, _, rows => .ok rows
  | n + 1, index, rows => do
    let response ← f.getStatement handle index
    let more ← rowsOf response.body
    extendRows f handle n (index + 1) (rows ++ more)

def fetchAllPartitions (f : Fetcher) (handle : Json) (firstBody : Dict) :
    Except Exc (List Json) := do
  let rows ← rowsOf firstBody
  let count ← partitionCount firstBody
  extendRows f handle (count - 1) 1 rows

/-! ### Rows on demand -/

inductive StreamEvent
  | fetched (index : Nat)
  | yielded (row : Row)

/-- A drained generator: what it did, and the exception that ended it, if one did. -/
structure Stream where
  events : List StreamEvent
  stopped : Option Exc

namespace Stream

/-- One generator after another. -/
def andThen (first second : Stream) : Stream :=
  match first.stopped with
  | some _ => first
  | none => ⟨first.events ++ second.events, second.stopped⟩

def raise (e : Exc) : Stream := ⟨[], some e⟩

def rows (s : Stream) : List Row :=
  s.events.filterMap fun
    | .yielded row => some row
    | .fetched _ => none

/-- `list(generator)`. -/
def drain (s : Stream) : Except Exc (List Row) :=
  match s.stopped with
  | some e => .error e
  | none => .ok s.rows

end Stream

/-- `_stream_data`. -/
def streamData (body : Dict) : Except Exc (List Json) :=
  match body.get (py "data") with
  | .arr data => .ok data
  | _ => .error { cls := .request
                  message := [lit "result partition data must be an array of rows"] }

theorem streamData_eq_ok {body : Dict} {data : List Json} :
    streamData body = .ok data ↔ body.get (py "data") = .arr data := by
  rw [streamData]
  refine ⟨fun h => ?_, fun h => ?_⟩
  · split at h
    · next heq =>
      cases h
      exact heq
    · cases h
  · rw [h]

/-- `while offset < len(data): yield _stream_row(data[offset], columns)`. -/
def yieldRows (lib : Builtins) (columns : List ColumnMeta) : List Json → Stream
  | [] => ⟨[], none⟩
  | raw :: data =>
    match coerceRow lib raw columns with
    | .error e => .raise e
    | .ok row => (⟨[.yielded row], none⟩ : Stream).andThen (yieldRows lib columns data)

/-- The rounds of `iter_result_rows` after the first, `n` of them being left. -/
def iterPartitions (lib : Builtins) (f : Fetcher) (handle : Json) (columns : List ColumnMeta) :
    Nat → Nat → Stream
  | 0, _ => ⟨[], none⟩
  | n + 1, index =>
    (⟨[.fetched index], none⟩ : Stream).andThen <|
      match f.getStatement handle index with
      | .error e => .raise e
      | .ok response =>
        match streamData response.body with
        | .error e => .raise e
        | .ok data =>
          (yieldRows lib columns data).andThen (iterPartitions lib f handle columns n (index + 1))

def iterResultRows (lib : Builtins) (f : Fetcher) (handle : Json) (firstBody : Dict)
    (columns : List ColumnMeta) : Stream :=
  match partitionCount firstBody with
  | .error e => .raise e
  | .ok count =>
    match streamData firstBody with
    | .error e => .raise e
    | .ok data =>
      (yieldRows lib columns data).andThen
        (iterPartitions lib f handle columns (max 1 count - 1) 1)

/-! ### The queries -/

/-- The response of the finished statement. `polled` is what `_poll` comes to. -/
def finishedResponse (polled : Json → Except Exc StatementResponse)
    (response : StatementResponse) : Except Exc StatementResponse :=
  if response.isRunning then
    match response.statementHandle with
    | .null => .error { cls := .request, message := [lit "running statement has no handle"] }
    | handle => polled handle
  else .ok response

/-- `_prepare_result` with `poll=True`. -/
def prepareResult (polled : Json → Except Exc StatementResponse) (response : StatementResponse) :
    Except Exc (List ColumnMeta × Json × Dict) := do
  let response ← finishedResponse polled response
  let columns ← columnsFrom response.body
  match response.statementHandle with
  | .null => .error { cls := .request, message := [lit "completed statement has no handle"] }
  | handle => pure (columns, handle, response.body)

/-- `query`, from the reply to the submission on. -/
def query (lib : Builtins) (f : Fetcher) (polled : Json → Except Exc StatementResponse)
    (response : StatementResponse) : Except Exc (List Row) := do
  let (columns, handle, body) ← prepareResult polled response
  let rawRows ← fetchAllPartitions f handle body
  coerceRows lib rawRows columns

/-- `query_stream`, from the reply to the submission on. -/
def queryStream (lib : Builtins) (f : Fetcher) (polled : Json → Except Exc StatementResponse)
    (response : StatementResponse) : Stream :=
  match prepareResult polled response with
  | .error e => .raise e
  | .ok (columns, handle, body) => iterResultRows lib f handle body columns

end SnowflakeSqlApi
