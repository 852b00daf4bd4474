import SnowflakeSqlApi.Transport

/-!
# Polling a statement

`_poll` of both clients: ask for a statement until it has finished, or until the wait
runs out, which cancels the statement if the client owns it.  In the asynchronous client
the task can be cancelled at any `await`, and then a statement it owns is cancelled
by a request in a task of its own (`_cancel_after_task_cancel`).

A run is the list of what the poll did and how it left.  What the poll meets is given
by `Round`s, and the run may be seen up to any of them (`PollEnd.waiting`).
-/

namespace SnowflakeSqlApi

/-- A length of time as an `int` or a `float`: its value, and what an f-string shows of it. -/
structure Seconds where
  value : ℚ
  shown : Json

/-- `DEFAULT_POLL_TIMEOUT`. -/
def defaultPollTimeout : Seconds :=
  ⟨600, .float ⟨py "600.0", some 600, by simpa using fewDigits_of_lt (n := 600) (by decide)⟩⟩

/-- `CANCEL_ON_TASK_CANCEL_TIMEOUT`. -/
def cancelOnTaskCancelTimeout : ℚ := 5

/-- A call of `_poll`: the client, the arguments, and the clock as it starts. -/
structure PollCall where
  policy : RetryPolicy
  pollInterval : ℚ
  handle : Json
  timeout : Option Seconds
  cancelOnTimeout : Bool
  started : ℚ

/-- What a poll does. Requests come with what was issued of them. -/
inductive PollAction
  /-- `get_statement(handle)`. -/
  | get (issued : List Exchange)
  | sleep
  /-- `cancel(handle)`. -/
  | cancel (issued : List Exchange)
  /-- A `CancelledError` enters the poll. -/
  | taskCancelled
  /-- `cancel(handle)` is given to a task of its own, which runs at the next `await`. -/
  | scheduled
  /-- That task is cancelled as it takes too long. -/
  | abandoned

namespace PollAction

def isGet : PollAction → Bool
  | get _ => true
  | _ => false

def isCancel : PollAction → Bool
  | cancel _ => true
  | _ => false

/-- The requests of an action. -/
def exchanges : PollAction → List Exchange
  | get issued | cancel issued => issued
  | _ => []

/-- The requests of an action are for this statement. -/
def About (handle : Json) : PollAction → Prop
  | get issued => ∀ x ∈ issued, x.request.target = .status handle
  | cancel issued => ∀ x ∈ issued, x.request.target = .cancel handle
  | _ => True

end PollAction

inductive PollEnd
  | returned (response : StatementResponse)
  | raised (e : Exc)
  /-- The `CancelledError` is raised again. -/
  | cancelled
  | waiting

/-- A run so far. -/
structure PollRun where
  actions : List PollAction
  outcome : PollEnd

namespace PollRun

/-- How often `cancel` was called. -/
def cancels (run : PollRun) : Nat := run.actions.countP PollAction.isCancel

def gets (run : PollRun) : Nat := run.actions.countP PollAction.isGet

def after (run : PollRun) (actions : List PollAction) : PollRun :=
  { run with actions := actions ++ run.actions }

@[simp] theorem after_after (run : PollRun) (actions actions' : List PollAction) :
    (run.after actions).after actions' = run.after (actions' ++ actions) := by
  rw [after, after, after, List.append_assoc]

theorem cancels_after (run : PollRun) (actions : List PollAction) :
    (run.after actions).cancels = actions.countP PollAction.isCancel + run.cancels :=
  List.countP_append

theorem gets_after (run : PollRun) (actions : List PollAction) :
    (run.after actions).gets = actions.countP PollAction.isGet + run.gets :=
  List.countP_append

end PollRun

/-- One round of a poll: what happens to its GET, and the clock read after the reply. -/
structure Round where
  reply : Script
  clock : ℚ

namespace PollCall

variable (c : PollCall)

def wait : Seconds := c.timeout.getD defaultPollTimeout

def deadline : ℚ := c.started + c.wait.value

def timeoutError : Exc where
  cls := .timeout
  message := [lit "statement ", c.handle, lit " did not finish within ", c.wait.shown, lit "s"]

/-- `_record_cancel_failure`. -/
def recordCancelFailure (error : Exc) (handle : Json) (exc : Exc) : Exc :=
  { error with
    cancelError := some exc
    notes := error.notes ++ [[lit "cancelling ", handle, lit " after the timeout failed: ",
      .other exc.cls.name]] }

def get (mode : Mode) (reply : Script) : List Exchange × Except Exc StatementResponse :=
  send c.policy mode (.getStatement c.handle) reply

def cancel (mode : Mode) (reply : Script) : List Exchange × Except Exc StatementResponse :=
  send c.policy mode (.cancelStatement c.handle) reply

/-- The error of a timeout, with what came of its cancel. -/
def timeoutAfter (result : Except Exc StatementResponse) : Exc :=
  match result with
  | .error e => recordCancelFailure c.timeoutError c.handle e
  | .ok _ =>
    { c.timeoutError with
      notes := c.timeoutError.notes ++ [[lit "cancellation requested for ", c.handle]] }

end PollCall

/-! ### The synchronous client -/

/-- `SnowflakeClient._poll`. -/
def poll (c : PollCall) (cancelReply : Script) : List Round → PollRun
  | [] => ⟨[], .waiting⟩
  | round :: rounds =>
    let issued := (c.get .sync round.reply).1
    match (c.get .sync round.reply).2 with
    | .error e => ⟨[.get issued], .raised e⟩
    | .ok response =>
      if !response.isRunning then ⟨[.get issued], .returned response⟩
      else if c.deadline ≤ round.clock then
        if c.cancelOnTimeout then
          ⟨[.get issued, .cancel (c.cancel .sync cancelReply).1],
            .raised (c.timeoutAfter (c.cancel .sync cancelReply).2)⟩
        else ⟨[.get issued], .raised c.timeoutError⟩
      else
        match SnowflakeSqlApi.sleep .sync c.pollInterval with
        | .error e => ⟨[.get issued, .sleep], .raised e⟩
        | .ok () => (poll c cancelReply rounds).after [.get issued, .sleep]

/-! ### The asynchronous client -/

/-- A call of the asynchronous transport. The task may be cancelled at it, after some requests. -/
structure AsyncCall where
  reply : Script
  cutOff : Option Nat := none

structure AsyncRound extends Round where
  /-- The task is cancelled at the GET, after so many requests. -/
  cutOff : Option Nat := none
  /-- The task is cancelled at the sleep. -/
  sleepCutOff : Bool := false

/-- One turn of the wait for the cancel request: the clock of the event loop before it, and whether
the request has finished after it. The wait absorbs a further cancellation of the task. -/
structure Turn where
  clock : ℚ
  finished : Bool

/-- What `_cancel_after_task_cancel` meets: the loop's clock as it starts, what happens to the request
and how much of it is issued, and the turns. -/
structure Cleanup where
  started : ℚ
  reply : Script
  issued : Nat
  turns : List Turn

def Cleanup.deadline (cleanup : Cleanup) : ℚ := cleanup.started + cancelOnTaskCancelTimeout

/-- The loop of `_cancel_after_task_cancel`. The request, in the task made for it, begins at the first
`await`: `begun` says it has. The second part says whether the loop has ended. -/
def awaitCancel (deadline : ℚ) (request : PollAction) :
    Bool → List Turn → List PollAction × Bool
  | _, [] => ([], false)
  | begun, turn :: turns =>
    if deadline ≤ turn.clock then ([.abandoned], true)
    else
      let begins := if begun then [] else [request]
      if turn.finished then (begins, true)
      else
        (begins ++ (awaitCancel deadline request true turns).1,
          (awaitCancel deadline request true turns).2)

/-- `_cancel_after_task_cancel`. -/
def cancelAfterTaskCancel (c : PollCall) (cleanup : Cleanup) : List PollAction × Bool :=
  let issued := (c.cancel .async cleanup.reply).1.take cleanup.issued
  let wait := awaitCancel cleanup.deadline (.cancel issued) false cleanup.turns
  (.scheduled :: wait.1, wait.2)

/-- How the loop of the asynchronous `_poll` is left. -/
inductive LoopExit
  | returned (response : StatementResponse)
  | raised (e : Exc)
  | broke
  | cancelled
  | waiting

/-- The loop of the asynchronous `_poll`. -/
def asyncPollLoop (c : PollCall) : List AsyncRound → List PollAction × LoopExit
  | [] => ([], .waiting)
  | round :: rounds =>
    let issued := (c.get .async round.reply).1
    match round.cutOff with
    | some n => ([.get (issued.take n)], .cancelled)
    | none =>
      match (c.get .async round.reply).2 with
      | .error e => ([.get issued], .raised e)
      | .ok response =>
        if !response.isRunning then ([.get issued], .returned response)
        else if c.deadline ≤ round.clock then ([.get issued], .broke)
        else if round.sleepCutOff then ([.get issued, .sleep], .cancelled)
        else
          match SnowflakeSqlApi.sleep .async c.pollInterval with
          | .error e => ([.get issued, .sleep], .raised e)
          | .ok () =>
            ([.get issued, .sleep] ++ (asyncPollLoop c rounds).1, (asyncPollLoop c rounds).2)

/-- `except asyncio.CancelledError` of the asynchronous `_poll`. -/
def onTaskCancel (c : PollCall) (cleanup : Cleanup) : PollRun :=
  if c.cancelOnTimeout then
    ⟨.taskCancelled :: (cancelAfterTaskCancel c cleanup).1,
      if (cancelAfterTaskCancel c cleanup).2 then .cancelled else .waiting⟩
  else ⟨[.taskCancelled], .cancelled⟩

/-- `AsyncSnowflakeClient._poll`. -/
def asyncPoll (c : PollCall) (cancelCall : AsyncCall) (cleanup : Cleanup)
    (rounds : List AsyncRound) : PollRun :=
  let actions := (asyncPollLoop c rounds).1
  match (asyncPollLoop c rounds).2 with
  | .returned response => ⟨actions, .returned response⟩
  | .raised e => ⟨actions, .raised e⟩
  | .waiting => ⟨actions, .waiting⟩
  | .cancelled => (onTaskCancel c cleanup).after actions
  | .broke =>
    if c.cancelOnTimeout then
      let issued := (c.cancel .async cancelCall.reply).1
      match cancelCall.cutOff with
      | some n => (onTaskCancel c cleanup).after (actions ++ [.cancel (issued.take n)])
      | none =>
        ⟨actions ++ [.cancel issued],
          .raised (c.timeoutAfter (c.cancel .async cancelCall.reply).2)⟩
    else ⟨actions, .raised c.timeoutError⟩

end SnowflakeSqlApi
