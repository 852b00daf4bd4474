import SnowflakeSqlApi.Lib.Chunks
import SnowflakeSqlApi.Lib.Fallible
import SnowflakeSqlApi.Testing.Wire
import SnowflakeSqlApi.Transport

/-!
# The fake server

`FakeSnowflake` of `testing.py`: a registry of results, and the handler of the requests
a client sends to it.  A submit finds a registration and opens a statement under a new
handle; a status GET counts down the polls of its statement; a partition GET serves one
of its chunks.

A `Reg` has a chunk by construction, since `_result_response` reads the first.  What goes
through the fake is given by `Op`s, in any order.
-/

namespace SnowflakeSqlApi.Testing

/-! ### Replies -/

def statementsPath : PyStr := py "/api/v2/statements"

def fakeError (message : List Json) : Exc := .builtin "FakeSnowflakeError" message

/-- A row as it goes over the wire. -/
abbrev WireRow := List (Option PyStr)

def rowJson (row : WireRow) : Json := .arr (row.map fun cell => cell.elim .null .str)

def dataJson (data : List WireRow) : Json := .arr (data.map rowJson)

def statusUrl (handle : PyStr) : PyStr := statementsPath ++ [ch '/'] ++ handle

def okBody (rowType : List Json) (data : List WireRow) (partitions : Nat) (handle : PyStr)
    (stats : Option Json) : Except Exc Dict :=
  if partitions < 1 then .error (.valueError [lit "partitions must be >= 1"])
  else
    .ok ([
      (py "resultSetMetaData", .obj [
        (py "numRows", .int data.length),
        (py "format", .str (py "jsonv2")),
        (py "partitionInfo", .arr (.obj [(py "rowCount", .int data.length)]
          :: List.replicate (partitions - 1) (.obj [(py "rowCount", .int 0)]))),
        (py "rowType", .arr rowType)]),
      (py "data", dataJson data),
      (py "code", .str (py "090001")),
      (py "sqlState", .str (py "00000")),
      (py "statementHandle", .str handle),
      (py "statementStatusUrl", .str (statusUrl handle))]
      ++ stats.elim [] fun stats => [(py "stats", stats)])

def runningBody (handle : PyStr) : Dict := [
  (py "code", .str (py "333334")),
  (py "message", .str (py "Asynchronous execution in progress.")),
  (py "statementHandle", .str handle),
  (py "statementStatusUrl", .str (statusUrl handle))]

/-! ### Registrations -/

/-- `_Error`. -/
structure ErrorSpec where
  status : Nat
  message : PyStr
  code : Option PyStr := none
  sqlState : Option PyStr := none

/-- `sys.maxsize`, beyond which no list grows. -/
def maxSize : Nat := 9223372036854775807

/-- `_Reg`. -/
structure Reg where
  rowType : List Json
  chunks : List (List WireRow)
  pollsBeforeReady : Int := 0
  stats : Option Json := none
  error : Option ErrorSpec := none
  chunks_ne : chunks ≠ []
  chunks_le : chunks.length ≤ maxSize

/-- The index of a chunk is read back from its text. -/
theorem Reg.parseInt_index {reg : Reg} {index : Nat} {chunk : List WireRow}
    (h : reg.chunks[index]? = some chunk) : parseInt (strNat index) = some (index : Int) := by
  obtain ⟨hlt, -⟩ := List.getElem?_eq_some_iff.mp h
  have hle := reg.chunks_le
  rw [maxSize] at hle
  exact parseInt_strNat (fewDigits_of_lt (by omega))

/-- `_State`. -/
structure State where
  reg : Reg
  remainingPolls : Int

inductive RowInput
  | dict (entries : List (PyStr × Value))
  | positional (cells : List Value)

inductive ColumnSpec
  | name (name : PyStr)
  | entry (name : Option PyStr) (type : Option PyStr) (scale : Option Int)

/-- `_cell`. -/
def cell (row : RowInput) (name : PyStr) (index : Nat) : Except Exc Value :=
  match row with
  | .dict entries =>
    match entries.lookup name with
    | some value => .ok value
    | none => .error (.keyError [.str name])
  | .positional cells =>
    match cells[index]? with
    | some value => .ok value
    | none => .error (.builtin "IndexError" [lit "list index out of range"])

/-- `_infer_column`: the type of the first cell that is not `None`. -/
def inferColumn (name : PyStr) (index : Nat) : List RowInput → Except Exc (PyStr × Option Int)
  | [] => .ok (py "text", none)
  | row :: rows => do
    match ← cell row name index with
    | .none => inferColumn name index rows
    | value => pure (inferType value)

/-- One column of `_normalize_columns`. -/
structure Column where
  name : PyStr
  type : PyStr
  scale : Option Int

def inferred (rows : List RowInput) (name : PyStr) (index : Nat) : Except Exc Column := do
  let (type, scale) ← inferColumn name index rows
  pure ⟨name, type, scale⟩

def resolve (rows : List RowInput) (index : Nat) : ColumnSpec → Except Exc Column
  | .name name | .entry (some name) none _ => inferred rows name index
  | .entry (some name) (some type) scale => .ok ⟨name, type, scale⟩
  | .entry none _ _ => .error (.keyError [lit "name"])

/-- `_normalize_columns`. -/
def normalizeColumns (rows : List RowInput) (columns : Option (List ColumnSpec)) :
    Except Exc (List Column) :=
  match columns, rows with
  | some specs, rows => specs.zipIdx.mapM fun spec => resolve rows spec.2 spec.1
  | none, [] => .ok []
  | none, .positional _ :: _ => .error (fakeError [lit "positional rows require an explicit ",
      lit "`columns=` spec; pass dict rows to infer column names"])
  | none, .dict entries :: rest =>
    entries.zipIdx.mapM fun entry => inferred (.dict entries :: rest) entry.1.1 entry.2

/-- `_split`. -/
def split {α : Type} (data : List α) (partitions : Int) : Except Exc (List (List α)) :=
  if partitions < 1 then .error (.valueError [lit "partitions must be >= 1"])
  else if partitions = 1 then .ok [data]
  else if maxSize < partitions then .error (.builtin "MemoryError" [])
  else
    let size := -(-(data.length : Int) / partitions)
    .ok (Chunks.pad partitions.toNat (Chunks.slices (if size = 0 then 1 else size).toNat data))

/-- **Exactly so many chunks**, whatever the number of rows, and the rows in order. -/
theorem split_eq_ok {α : Type} {data : List α} {partitions : Int} {chunks : List (List α)}
    (h : split data partitions = .ok chunks) :
    1 ≤ partitions ∧ partitions ≤ maxSize ∧ chunks.length = partitions.toNat ∧
      chunks.flatten = data := by
  rw [split] at h
  split at h
  · cases h
  split at h
  · next hone =>
    cases h
    subst hone
    exact ⟨le_rfl, by decide, rfl, List.flatten_singleton⟩
  split at h
  · cases h
  · next hlow hone hhigh =>
    cases h
    have hceil : (data.length : Int) ≤ -(-(data.length : Int) / partitions) * partitions := by
      have hmod := Int.emod_nonneg (-(data.length : Int)) (show partitions ≠ 0 by omega)
      have hdiv := Int.mul_ediv_add_emod (-(data.length : Int)) partitions
      rw [Int.neg_mul, Int.mul_comm]
      omega
    generalize -(-(data.length : Int) / partitions) = size at hceil ⊢
    have hsize : 0 ≤ size := by
      by_contra hneg
      have hprod : size * partitions < 0 := Int.mul_neg_of_neg_of_pos (by omega) (by omega)
      omega
    have hpos : 0 < (if size = 0 then 1 else size).toNat := by
      split <;> omega
    have hlength : data.length ≤ partitions.toNat * (if size = 0 then 1 else size).toNat := by
      have hge : size * partitions ≤ (if size = 0 then 1 else size) * partitions := by
        refine Int.mul_le_mul_of_nonneg_right ?_ (by omega)
        split <;> omega
      zify
      rw [Int.toNat_of_nonneg (by omega), Int.toNat_of_nonneg (by split <;> omega), Int.mul_comm]
      omega
    refine ⟨by omega, by omega, Chunks.length_pad (Chunks.length_slices_le hpos hlength), ?_⟩
    rw [Chunks.flatten_pad, Chunks.flatten_slices hpos]

theorem split_ne_nil {α : Type} {data : List α} {partitions : Int} {chunks : List (List α)}
    (h : split data partitions = .ok chunks) : chunks ≠ [] := by
  obtain ⟨hpos, -, hlength, -⟩ := split_eq_ok h
  apply List.ne_nil_of_length_pos
  omega

theorem split_le {α : Type} {data : List α} {partitions : Int} {chunks : List (List α)}
    (h : split data partitions = .ok chunks) : chunks.length ≤ maxSize := by
  obtain ⟨-, hhigh, hlength, -⟩ := split_eq_ok h
  omega

/-- The arguments of a registration. -/
structure Registration where
  rows : List RowInput
  columns : Option (List ColumnSpec) := none
  partitions : Int := 1
  pollsBeforeReady : Int := 0
  stats : Option Json := none

namespace Column

def entry (column : Column) : Json :=
  .obj ([(py "name", .str column.name), (py "type", .str column.type), (py "nullable", .bool true)]
    ++ column.scale.elim [] fun scale => [(py "scale", .int scale)])

end Column

/-- One row of `wire`. -/
def encodeRow (conv : Conversions) (columns : List Column) (row : RowInput) : Except Exc WireRow :=
  columns.zipIdx.mapM fun column => do
    let value ← cell row column.1.name column.2
    encodeCell conv value column.1.type

/-- The wire rows of a registration, with its columns. -/
def wireRows (conv : Conversions) (r : Registration) : Except Exc (List Column × List WireRow) := do
  let columns ← normalizeColumns r.rows r.columns
  let wire ← r.rows.mapM (encodeRow conv columns)
  pure (columns, wire)

/-- `FakeSnowflake._build`. -/
def build (conv : Conversions) (r : Registration) : Except Exc Reg :=
  match wireRows conv r with
  | .error e => .error e
  | .ok (columns, wire) =>
    match h : split wire r.partitions with
    | .error e => .error e
    | .ok chunks => .ok {
        rowType := columns.map Column.entry
        chunks
        pollsBeforeReady := r.pollsBeforeReady
        stats := r.stats
        chunks_ne := split_ne_nil h
        chunks_le := split_le h }

/-- What `register_dml` registers. -/
def dmlReg (rowcount : Int) : Except Exc Reg := do
  let text ← intStr rowcount
  pure {
    rowType := []
    chunks := [[[some text]]]
    chunks_ne := by simp
    chunks_le := by simp [maxSize] }

/-- What `register_error` registers. -/
def errorReg (error : ErrorSpec) : Reg where
  rowType := []
  chunks := [[]]
  error := some error
  chunks_ne := by simp
  chunks_le := by decide

/-! ### The server -/

/-- An `httpx.Request`. `content` is what `json.loads` makes of the body. -/
structure HttpRequest where
  method : PyStr
  path : PyStr
  params : Params := []
  content : Except Exc Json

structure Fake where
  exact : List (PyStr × Reg) := []
  predicates : List ((Json → Bool) × Reg) := []
  state : List (PyStr × State) := []
  counter : Nat := 0
  requests : List HttpRequest := []

namespace Fake

variable (fake : Fake)

/-- `_lookup`. -/
def lookup (sql : Json) : Except Exc (Option Reg) :=
  match sql with
  | .arr _ | .obj _ => .error (.typeError [lit "unhashable type"])
  | sql =>
    let found := match sql with
      | .str s => fake.exact.lookup s
      | _ => none
    .ok (found.or ((fake.predicates.find? fun predicate => predicate.1 sql).map Prod.snd))

def handleText (n : Nat) : PyStr := py "stmt-" ++ strNat n

/-- `httpx.Response(status, json=body)`, as it is before it is encoded. -/
def response (status : Nat) (body : Dict) : Response where
  statusCode := status
  json := some (.obj body)

/-- `_result_response`. -/
def resultResponse (reg : Reg) (handle : PyStr) : Except Exc Response := do
  let body ← okBody reg.rowType (reg.chunks.head reg.chunks_ne) reg.chunks.length handle reg.stats
  pure (response 200 body)

/-- The reply to the submit of a statement that fails. -/
def errorResponse (error : ErrorSpec) (handle : PyStr) : Response :=
  response error.status [
    (py "message", .str error.message),
    (py "code", error.code.elim .null .str),
    (py "sqlState", error.sqlState.elim .null .str),
    (py "statementHandle", .str handle)]

/-- `json.loads(request.content).get("statement", "")`. -/
def statementOf (request : HttpRequest) : Except Exc Json := do
  match ← request.content with
  | .obj payload => pure (Dict.getD payload (py "statement") (.str []))
  | value => .error (.attributeError [value, lit " has no attribute 'get'"])

/-- `_on_submit` from the registration found on. -/
def openStatement (reg : Reg) (request : HttpRequest) : Except Exc Response × Fake :=
  let handle := handleText (fake.counter + 1)
  let fake := { fake with counter := fake.counter + 1 }
  match reg.error with
  | some error => (.ok (errorResponse error handle), fake)
  | none =>
    let fake := { fake with state := assocSet fake.state handle ⟨reg, reg.pollsBeforeReady⟩ }
    if request.params.lookup (py "async") = some (py "true") ∨ 0 < reg.pollsBeforeReady then
      (.ok (response 202 (runningBody handle)), fake)
    else (resultResponse reg handle, fake)

/-- `_on_submit`. -/
def onSubmit (request : HttpRequest) : Except Exc Response × Fake :=
  match statementOf request with
  | .error e => (.error e, fake)
  | .ok sql =>
    match fake.lookup sql with
    | .error e => (.error e, fake)
    | .ok none => (.error (fakeError [lit "no result registered for statement: ", sql]), fake)
    | .ok (some reg) => fake.openStatement reg request

/-- `path.rsplit("/", 1)[-1]`. -/
def lastSegment (path : PyStr) : PyStr := (path.reverse.takeWhile (· ≠ ch '/')).reverse

/-- The reply to a partition GET. -/
def partitionResponse (reg : Reg) (partition : PyStr) : Except Exc Response :=
  match intOfText partition with
  | .error e => .error e
  | .ok index =>
    if 0 ≤ index then
      match reg.chunks[index.toNat]? with
      | some chunk => .ok (response 200 [(py "data", dataJson chunk)])
      | none => .error (fakeError [lit "partition ", .int index, lit " out of range"])
    else .error (fakeError [lit "partition ", .int index, lit " out of range"])

/-- `_on_get`. -/
def onGet (request : HttpRequest) : Except Exc Response × Fake :=
  let handle := lastSegment request.path
  match fake.state.lookup handle with
  | none => (.error (fakeError [lit "unknown statement handle: ", .str handle]), fake)
  | some state =>
    match request.params.lookup (py "partition") with
    | some partition => (partitionResponse state.reg partition, fake)
    | none =>
      if 0 < state.remainingPolls then
        let state := { state with remainingPolls := state.remainingPolls - 1 }
        (.ok (response 202 (runningBody handle)),
          { fake with state := assocSet fake.state handle state })
      else (resultResponse state.reg handle, fake)

/-- `handle` from the request logged on. -/
def route (request : HttpRequest) : Except Exc Response × Fake :=
  if request.method = py "POST" ∧ request.path = statementsPath then fake.onSubmit request
  else if request.method = py "POST" ∧ py "/cancel" <:+ request.path then
    (.ok (response 200 [(py "code", .str (py "090001"))]), fake)
  else if request.method = py "GET" ∧ statementsPath ++ [ch '/'] <+: request.path then
    fake.onGet request
  else (.error (fakeError [lit "unexpected request: ", .str request.method, lit " ",
    .str request.path]), fake)

/-- `self.requests.append(request)`. -/
def log (request : HttpRequest) : Fake := { fake with requests := fake.requests ++ [request] }

/-- `FakeSnowflake.handle`. -/
def handle (request : HttpRequest) : Except Exc Response × Fake := (fake.log request).route request

end Fake

/-! ### What happens to a fake -/

/-- One thing a test does with a fake. -/
inductive Op
  | register (sql : PyStr) (r : Registration)
  | registerMatch (predicate : Json → Bool) (r : Registration)
  | registerDml (sql : PyStr) (rowcount : Int)
  | registerError (sql : PyStr) (error : ErrorSpec)
  | request (request : HttpRequest)

namespace Fake

variable (conv : Conversions)

/-- The reply, where the operation is a request, and the fake after it. -/
def step (fake : Fake) : Op → Except Exc (Option Response) × Fake
  | .register sql r =>
    match build conv r with
    | .error e => (.error e, fake)
    | .ok reg => (.ok none, { fake with exact := assocSet fake.exact sql reg })
  | .registerMatch predicate r =>
    match build conv r with
    | .error e => (.error e, fake)
    | .ok reg => (.ok none, { fake with predicates := fake.predicates ++ [(predicate, reg)] })
  | .registerDml sql rowcount =>
    match dmlReg rowcount with
    | .error e => (.error e, fake)
    | .ok reg => (.ok none, { fake with exact := assocSet fake.exact sql reg })
  | .registerError sql error =>
    (.ok none, { fake with exact := assocSet fake.exact sql (errorReg error) })
  | .request request => ((fake.handle request).1.map some, (fake.handle request).2)

/-- The fake after a sequence of operations. -/
def run (fake : Fake) : List Op → Fake
  | [] => fake
  | op :: ops => run (fake.step conv op).2 ops

/-- The operations with what each came to. -/
def trace (fake : Fake) : List Op → List (Op × Except Exc (Option Response))
  | [] => []
  | op :: ops => (op, (fake.step conv op).1) :: trace (fake.step conv op).2 ops

end Fake

end SnowflakeSqlApi.Testing
