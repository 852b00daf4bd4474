import SnowflakeSqlApi.Batches.Planner
import SnowflakeSqlApi.Poll
import SnowflakeSqlApi.Submission
import SnowflakeSqlApi.Types

/-!
# Importing in batches

`insert_batches` of the synchronous client: each batch of the planner is submitted under a
fresh identity, polled if it is still running, and confirmed with the count its reply gives.
`_BatchExecution` keeps what is known of a submission and classifies the exception that
ends it.

What happens to a batch is given by a `SubmissionScript`.  A run keeps, for each
submission, the requests it issued, so that it can be compared with what a server did
with them.
-/

namespace SnowflakeSqlApi

/-! ### The count of a reply -/

/-- `value[0]`. -/
def itemZero : Json → Except Exc Json
  | .arr (x :: _) => .ok x
  | .str (c :: _) => .ok (.str [c])
  | .arr [] | .str [] => .error (.builtin "IndexError" [lit "index out of range"])
  | .obj _ => .error (.keyError [.int 0])
  | value => .error (.typeError [value, lit " is not subscriptable"])

def affectedCount (strict : Bool) (value : Json) : Except Exc Int := do
  let plain := match value with
    | .int _ | .str _ => true
    | _ => false
  if strict && !plain then .error (.valueError [lit "rows-affected count must be an integer"])
  else
    let count ← intOf value
    if strict && count < 0 then
      .error (.valueError [lit "rows-affected count must be nonnegative"])
    else pure count

def statKeys : List PyStr := [py "numRowsInserted", py "numRowsUpdated", py "numRowsDeleted"]

/-- The counts in `stats`, `none` where it has none of the keys. -/
def statsTotal (strict : Bool) (stats : Dict) : Except Exc (Option Int) := do
  let counts ← (statKeys.filterMap stats.get?).mapM (affectedCount strict)
  pure (if counts = [] then none else some counts.sum)

/-- `except (ValueError, TypeError)`. -/
def Exc.isValueOrTypeError (e : Exc) : Bool :=
  e.cls = .foreign (py "ValueError") || e.cls = .foreign (py "TypeError")

/-- The count in the first cell of `data`, `none` where there is no such cell. -/
def dataCount (strict : Bool) (data : Json) : Except Exc (Option Int) := do
  if data.truthy then
    let first ← itemZero data
    if first.truthy then
      match itemZero first >>= affectedCount strict with
      | .ok count => pure (some count)
      | .error e => if !strict && e.isValueOrTypeError then pure none else .error e
    else pure none
  else pure none

/-- `_rows_affected`. -/
def rowsAffected (strict : Bool) (body : Dict) : Except Exc Int := do
  let total ← match body.get (py "stats") with
    | .obj stats => statsTotal strict stats
    | _ => pure none
  match total with
  | some total => pure total
  | none =>
    match ← dataCount strict (body.get (py "data")) with
    | some count => pure count
    | none =>
      if strict then .error (.valueError [lit "response has no rows-affected count"]) else pure 0

/-! ### One submission -/

/-- `_BatchExecution`. -/
structure BatchExecution where
  failed : FailedBatch
  phase : BatchPhase := .submission
  succeeded : Bool := false

namespace BatchExecution

/-- `_BatchExecution.__init__`. `requestId` is the text of a fresh UUID. -/
def start (p : Planner) (batch : PreparedBatch) (requestId : PyStr) : BatchExecution where
  failed := {
    index := p.completed.length
    startRowIndex := p.confirmedRows
    rowCount := batch.rowCount
    requestId }

def received (x : BatchExecution) (handle : Json) (attempts : Option Nat) (running : Bool) :
    BatchExecution where
  failed := { x.failed with statementHandle := handle, submissionAttempts := attempts.getD 0 }
  phase := if !running || (match handle with | .null => false | _ => true) then .execution
    else x.phase
  succeeded := !running

/-- The failed batch with what its exception knows. -/
def failedWith (x : BatchExecution) (cause : Exc) : FailedBatch :=
  let handle := cause.statementHandle.orElse ((cause.cause.map (·.statementHandle)).getD .null)
  { x.failed with
    submissionAttempts := cause.submissionAttempts.getD x.failed.submissionAttempts
    statementHandle := handle.orElse x.failed.statementHandle }

/-- The reply refused the request before it was executed. -/
def isRefusal (cause : Exc) : Bool :=
  cause.submissionAttempts = some 0 || (cause.cls = .auth && cause.statusCode = some 401) ||
    (cause.cls.isRequest && [some 400, some 401, some 403].contains cause.statusCode)

/-- The phase and the outcome of a submission that `cause` ends. -/
def classify (x : BatchExecution) (cause : Exc) : BatchPhase × BatchOutcome :=
  let outcome : BatchOutcome := if x.succeeded then .succeeded else .unknown
  let first :=
    if !x.succeeded && (x.failedWith cause).submissionAttempts ≤ 1 then
      if cause.cls = .programming then (.execution, .failed)
      else if x.phase = .submission && isRefusal cause then (x.phase, .notExecuted)
      else (x.phase, outcome)
    else (x.phase, outcome)
  (if cause.cls = .programming then .execution else first.1, first.2)

def error (x : BatchExecution) (p : Planner) (cause : Exc) : BatchWriteError :=
  p.error cause (x.classify cause).1 (x.classify cause).2 (some (x.failedWith cause))

end BatchExecution

/-- A synchronous client, as far as `insert_batches` reads it. -/
structure InsertClient where
  policy : RetryPolicy
  pollInterval : ℚ
  statementTimeout : Option Nat

/-- What happens to one batch: the exception of the `on_query` hook, the fresh identity, the
submission, and the poll from the given time on. -/
structure SubmissionScript where
  notifyError : Option Exc := none
  requestId : Uuid
  post : Script
  pollStarted : ℚ := 0
  rounds : List Round := []
  cancelReply : Script

/-- A submission: what it issued, what is known of it, and the count of its reply or the exception
that ended it; `none` while it is polled. -/
structure Submission where
  batch : PreparedBatch
  posts : List Exchange
  polls : List PollAction := []
  execution : BatchExecution
  outcome : Option (Except Exc Int)

namespace Submission

/-- The requests of a submission, in order. -/
def exchanges (s : Submission) : List Exchange := s.posts ++ s.polls.flatMap PollAction.exchanges

end Submission

namespace InsertClient

variable (c : InsertClient)

def pollCall (handle : Json) (started : ℚ) : PollCall where
  policy := c.policy
  pollInterval := c.pollInterval
  handle := handle
  timeout := c.statementTimeout.map fun (t : Nat) => ⟨t, .int t⟩
  cancelOnTimeout := true
  started := started

/-- The request of a batch. -/
def batchRequest (requestId : PyStr) (batch : PreparedBatch) : Request :=
  .submit requestId false false (.content batch.content)

/-- The `try` block of `insert_batches`. -/
def submitBatch (s : SubmissionScript) (batch : PreparedBatch) (x : BatchExecution) : Submission :=
  let sent := send c.policy .sync (batchRequest s.requestId.str batch) s.post
  match sent.2 with
  | .error e => { batch, posts := sent.1, execution := x, outcome := some (.error e) }
  | .ok response =>
    let x := x.received response.statementHandle response.submissionAttempts response.isRunning
    if response.isRunning then
      match response.statementHandle with
      | .null =>
        { batch, posts := sent.1, execution := x
          outcome := some (.error
            { cls := .request, message := [lit "running statement has no handle"] }) }
      | handle =>
        let run := poll (c.pollCall handle s.pollStarted) s.cancelReply s.rounds
        match run.outcome with
        | .returned response =>
          { batch, posts := sent.1, polls := run.actions
            execution := { x with succeeded := true }
            outcome := some (rowsAffected true response.body) }
        | .raised e =>
          { batch, posts := sent.1, polls := run.actions, execution := x
            outcome := some (.error e) }
        | .cancelled | .waiting =>
          { batch, posts := sent.1, polls := run.actions, execution := x, outcome := none }
    else
      { batch, posts := sent.1, execution := x
        outcome := some (rowsAffected true response.body) }

end InsertClient

/-! ### The import -/

inductive InsertEnd
  | returned (batches : List BatchSummary)
  | raised (e : Raised)
  /-- Not at its end. -/
  | pending

/-- A run of `insert_batches`: its submissions, the planner as it is left, and the end. -/
structure InsertRun where
  submissions : List Submission
  planner : Planner
  outcome : InsertEnd

/-- The loop of `insert_batches`, for as many batches as there are scripts. -/
def insertLoop (cfg : PlannerConfig) (src : Source) (c : InsertClient) :
    List SubmissionScript → Planner → InsertRun
  | scripts, p =>
    match p.nextBatch cfg src with
    | (.error e, p) => ⟨[], p, .raised e⟩
    | (.ok none, p) => ⟨[], p, .returned p.completed⟩
    | (.ok (some batch), p) =>
      match scripts with
      | [] => ⟨[], p, .pending⟩
      | s :: scripts =>
        match s.notifyError with
        | some e => ⟨[], p, .raised (.stopped (p.error e .validation))⟩
        | none =>
          let submission := c.submitBatch s batch (.start p batch s.requestId.str)
          match submission.outcome with
          | none => ⟨[submission], p, .pending⟩
          | some (.error e) =>
            ⟨[submission], p, .raised (.stopped (submission.execution.error p e))⟩
          | some (.ok affected) =>
            let rest := insertLoop cfg src c scripts (p.confirm batch affected)
            { rest with submissions := submission :: rest.submissions }

/-- `insert_batches`. -/
def insertBatches (c : InsertClient) (ctx : ClientContext) (table : PyStr) (columns : List PyStr)
    (src : Source) (maxRows maxBytes : Int) (scripts : List SubmissionScript) :
    Except Exc InsertRun := do
  let cfg ← PlannerConfig.make table columns maxRows maxBytes ctx
  pure (insertLoop cfg src c scripts {})

end SnowflakeSqlApi
