import SnowflakeSqlApi.ClientBase

/-!
# Batch planning

`batches.py` up to `_BatchPlanner`: a single-pass source is cut into `INSERT`
statements that keep within a row and a byte limit.

The planner reads a record, measures what the body would become, and either adds the
record, keeps it for the next batch (`pending`), or raises.  A method that can raise
returns the state it leaves along with its result, since a `BatchWriteError` reports
counters of the state.

`iterCalls` and `nextCalls` are not attributes: they count the calls of `iter` and
`next` on the source, so that the position of the iterator is part of the state.
-/

namespace SnowflakeSqlApi

/-! ### Sources -/

/-- An object the iterator yields. -/
inductive Record
  | sequence (cells : List Value)
  /-- Not a `Sequence`, or text or bytes. -/
  | notSequence

/-- What a call of `next` does. -/
inductive Pull
  | row (r : Record)
  | raised (e : Exc)
  | stop

/-- A row source: the exception `iter` raises, if it raises one, and the outcome of each call of
`next`. -/
structure Source where
  iter : Option Exc := none
  next : Nat → Pull

/-! ### Progress -/

structure BatchSummary where
  index : Nat
  startRowIndex : Nat
  rowCount : Nat
  rowsAffected : Int

inductive BatchPhase
  | input
  | validation
  | submission
  | execution
  deriving DecidableEq

inductive BatchOutcome
  | notExecuted
  | failed
  | unknown
  | succeeded
  deriving DecidableEq

structure FailedBatch where
  index : Nat
  startRowIndex : Nat
  rowCount : Nat
  requestId : PyStr
  statementHandle : Json := .null
  submissionAttempts : Nat := 0

structure BatchWriteError where
  message : List Json
  completed : List BatchSummary
  nextRowIndex : Nat
  consumedRows : Nat
  failedBatch : Option FailedBatch
  phase : BatchPhase
  outcome : BatchOutcome
  cause : Exc

structure PreparedBatch where
  sql : PyStr
  params : List Value
  content : Bytes
  rowCount : Nat

def BatchPhase.text : BatchPhase → PyStr
  | input => py "input"
  | validation => py "validation"
  | submission => py "submission"
  | execution => py "execution"

/-! ### The planner -/

/-- The attributes of a `_BatchPlanner` that its constructor fixes. -/
structure PlannerConfig where
  sqlPrefix : PyStr
  placeholder : PyStr
  width : Nat
  maxRows : Nat
  maxBytes : Nat
  ctx : ClientContext

/-- `_BatchPlanner.__init__`. -/
def PlannerConfig.make (table : PyStr) (columns : List PyStr) (maxRows maxBytes : Int)
    (ctx : ClientContext) : Except Exc PlannerConfig :=
  if columns = [] then
    .error (.config [lit "insert_batches requires at least one column"])
  else if maxRows ≤ 0 then .error (.config [lit "max_rows", lit " must be a positive integer"])
  else if maxBytes ≤ 0 then .error (.config [lit "max_bytes", lit " must be a positive integer"])
  else if 200000 < maxRows then .error (.config [lit "max_rows must be <= 200000"])
  else do
    let sqlPrefix ← insertPrefix table columns
    pure {
      sqlPrefix
      placeholder := placeholderText columns.length
      width := columns.length
      maxRows := maxRows.toNat
      maxBytes := maxBytes.toNat
      ctx }

/-- A validated record: its cells and the encodings of their bindings. -/
abbrev EncodedRow := List Value × List Bytes

/-- The mutable attributes of a `_BatchPlanner`. -/
structure Planner where
  /-- `self.iterator is not None`. -/
  iterated : Bool := false
  iterCalls : Nat := 0
  nextCalls : Nat := 0
  context : Option Bytes := none
  singleOverhead : Nat := 0
  pending : Option EncodedRow := none
  exhausted : Bool := false
  consumedRows : Nat := 0
  confirmedRows : Nat := 0
  completed : List BatchSummary := []

namespace Planner

def error (p : Planner) (cause : Exc) (phase : BatchPhase)
    (outcome : BatchOutcome := .notExecuted) (failedBatch : Option FailedBatch := none) :
    BatchWriteError where
  message := [lit "batch write stopped during ", .str phase.text, lit ": "] ++ cause.message
  completed := p.completed
  nextRowIndex := p.confirmedRows
  consumedRows := p.consumedRows
  failedBatch := failedBatch
  phase := phase
  outcome := outcome
  cause := cause

end Planner

/-- The checks of `_record` on one record, and the encodings of its bindings. -/
def encodeRecord (width : Nat) : Record → Except Exc EncodedRow
  | .notSequence => .error (.config [lit "each row must be a positional sequence"])
  | .sequence cells =>
    if cells.length ≠ width then
      .error (.config [lit "each row must have ", .int width, lit " values, got ",
        .int cells.length])
    else do
      let bindings ← toBindings cells
      let encoded ← bindings.mapM fun kb => encode kb.2.toJson
      pure (cells, encoded)

/-- `b",".join(_encode(str(offset + i)) + b":" + value ...)`. -/
def fragment (values : List Bytes) (offset : Nat) : Except Exc Bytes := do
  let parts ← (values.mapIdx fun i value => (offset + (i + 1), value)).mapM fun kv => do
    let key ← encode (.str (strNat kv.1))
    pure (key ++ 58 :: kv.2)
  pure ([44].intercalate parts)

/-- A bytes literal. -/
def bytes (s : String) : Bytes := (py s).map asciiByte

/-- `_body`, on the cached context. -/
def body (context : Bytes) (sql : PyStr) (bindings : Bytes) : Except Exc Bytes := do
  let statement ← encode (.str sql)
  pure (bytes "\x7b\"statement\":" ++ statement ++ context ++ bytes ",\"bindings\":\x7b" ++ bindings
    ++ bytes "\x7d\x7d")

/-- The context slice: the encoded payload without its statement and without its braces. -/
def contextBytes (ctx : ClientContext) : Except Exc Bytes := do
  let payload ← ctx.buildPayload [] []
  let encoded ← encode (.obj (payload.del (py "statement")))
  let inner := (encoded.drop 1).dropLast
  pure (if inner = [] then [] else 44 :: inner)

namespace PlannerConfig

/-- The context slice and the size of a body without bindings, computed for the first record. -/
def freshContext (cfg : PlannerConfig) : Except Exc (Bytes × Nat) := do
  let context ← contextBytes cfg.ctx
  let whole ← body context (cfg.sqlPrefix ++ cfg.placeholder) []
  pure (context, whole.length)

end PlannerConfig

namespace Planner

/-- `if self.iterator is None: self.iterator = iter(self.source)`. -/
def startIteration (src : Source) (p : Planner) : Except BatchWriteError Unit × Planner :=
  if p.iterated then (.ok (), p)
  else
    match src.iter with
    | some e => (.error (p.error e .input), { p with iterCalls := p.iterCalls + 1 })
    | none => (.ok (), { p with iterated := true, iterCalls := p.iterCalls + 1 })

/-- The rest of `_record`, with an iterator. -/
def pullRecord (cfg : PlannerConfig) (src : Source) (p : Planner) :
    Except BatchWriteError (Option EncodedRow) × Planner :=
  let called := { p with nextCalls := p.nextCalls + 1 }
  match src.next p.nextCalls with
  | .stop => (.ok none, { called with exhausted := true })
  | .raised e => (.error (called.error e .input), called)
  | .row r =>
    let consumed := { called with consumedRows := p.consumedRows + 1 }
    match encodeRecord cfg.width r with
    | .ok encoded => (.ok (some encoded), consumed)
    | .error e => (.error (consumed.error e .validation), consumed)

/-- `_record`. -/
def record (cfg : PlannerConfig) (src : Source) (p : Planner) :
    Except BatchWriteError (Option EncodedRow) × Planner :=
  if p.exhausted then (.ok none, p)
  else
    match p.startIteration src with
    | (.error e, p) => (.error e, p)
    | (.ok (), p) => p.pullRecord cfg src

/-- The pending record, or a new one. -/
def takeRecord (cfg : PlannerConfig) (src : Source) (p : Planner) :
    Except BatchWriteError (Option EncodedRow) × Planner :=
  match p.pending with
  | some encoded => (.ok (some encoded), { p with pending := none })
  | none => p.record cfg src

/-- The cached context and single overhead, or fresh ones. -/
def currentContext (cfg : PlannerConfig) (p : Planner) : Except Exc (Bytes × Nat) :=
  match p.context with
  | some context => .ok (context, p.singleOverhead)
  | none => cfg.freshContext

end Planner

/-- The local variables of `next_batch`. -/
structure Buffer where
  params : List Value := []
  fragments : List Bytes := []
  rowCount : Nat := 0
  size : Nat := 0

namespace Planner

/-- The `try` block of `next_batch`: the record is added to the buffer, or kept as pending (`none`)
where it would exceed the byte limit. It changes no counter; where it raises, only the cached
context is lost. -/
def consider (cfg : PlannerConfig) (encoded : EncodedRow) (buf : Buffer) (p : Planner) :
    Except Exc (Option Buffer × Planner) := do
  let (context, overhead) ← p.currentContext cfg
  let p := { p with context := some context, singleOverhead := overhead }
  let first ← fragment encoded.2 0
  let singleSize := overhead + first.length
  if cfg.maxBytes < singleSize then
    .error (.config [lit "row ", .int (p.consumedRows - 1 : Int), lit " exceeds max_bytes=",
      .int cfg.maxBytes])
  else do
    let piece ← if buf.rowCount = 0 then .ok first else fragment encoded.2 buf.params.length
    let candidate :=
      if buf.rowCount = 0 then singleSize
      else buf.size + 2 + cfg.placeholder.length + 1 + piece.length
    if cfg.maxBytes < candidate then .ok (none, { p with pending := some encoded })
    else .ok (some {
      params := buf.params ++ encoded.1
      fragments := buf.fragments ++ [piece]
      rowCount := buf.rowCount + 1
      size := candidate }, p)

/-- The loop of `next_batch`. The first argument is the number of rows still allowed. -/
def fill (cfg : PlannerConfig) (src : Source) :
    Nat → Buffer → Planner → Except BatchWriteError Buffer × Planner
  | 0, buf, p => (.ok buf, p)
  | n + 1, buf, p =>
    match p.takeRecord cfg src with
    | (.error e, p) => (.error e, p)
    | (.ok none, p) => (.ok buf, p)
    | (.ok (some encoded), p) =>
      match p.consider cfg encoded buf with
      | .error e => (.error (p.error e .validation), p)
      | .ok (none, p) => (.ok buf, p)
      | .ok (some buf, p) => fill cfg src n buf p

end Planner

/-- What `next_batch` and `insert_batches` raise: a `BatchWriteError`, or an exception that no
handler wraps. -/
inductive Raised
  | stopped (e : BatchWriteError)
  | escaped (e : Exc)

namespace Planner

/-- The end of `next_batch`: the statement of a non-empty buffer. -/
def flush (cfg : PlannerConfig) (buf : Buffer) (p : Planner) :
    Except Raised (Option PreparedBatch) :=
  if buf.rowCount = 0 then .ok none
  else
    let sql := cfg.sqlPrefix ++ join (py ", ") (List.replicate buf.rowCount cfg.placeholder)
    match body (p.context.getD []) sql ([44].intercalate buf.fragments) with
    | .error e => .error (.escaped e)
    | .ok content =>
      if content.length ≠ buf.size ∨ cfg.maxBytes < content.length then
        .error (.stopped (p.error
          (.config [lit "batch body exceeds its measured byte budget"]) .validation))
      else .ok (some { sql, params := buf.params, content, rowCount := buf.rowCount })

def nextBatch (cfg : PlannerConfig) (src : Source) (p : Planner) :
    Except Raised (Option PreparedBatch) × Planner :=
  match fill cfg src cfg.maxRows {} p with
  | (.error e, p) => (.error (.stopped e), p)
  | (.ok buf, p) => (flush cfg buf p, p)

def confirm (p : Planner) (batch : PreparedBatch) (rowsAffected : Int) : Planner :=
  { p with
    completed := p.completed ++ [{
      index := p.completed.length
      startRowIndex := p.confirmedRows
      rowCount := batch.rowCount
      rowsAffected }]
    confirmedRows := p.confirmedRows + batch.rowCount }

end Planner

end SnowflakeSqlApi
