import SnowflakeSqlApi.Lib.Fallible
import SnowflakeSqlApi.Retry

/-!
# The transport

`transport.py`: the requests of the statements API, the reading of a reply, and the
retry loop `_send` that both clients share up to the way they wait.

The network is a `Script`: for each attempt of a call what happens to it.  A run of the
loop is the list of the requests it issued, each with what came of it, and the result of the
call.  `send_result` says what any run comes to; every later result about a call is
read off it.
-/

namespace SnowflakeSqlApi

/-! ### Replies -/

/-- An `httpx.Response`: `json` is `none` where `response.json()` raises `ValueError`. -/
structure Response where
  statusCode : Nat
  json : Option Json
  text : PyStr := []
  retryAfter : Option PyStr := none

/-- `StatementResponse`. -/
structure StatementResponse where
  statusCode : Nat
  body : Dict
  submissionAttempts : Option Nat := none
  submissionHandle : Json := .null

namespace StatementResponse

def isRunning (r : StatementResponse) : Bool := r.statusCode = 202

def statementHandle (r : StatementResponse) : Json :=
  (r.body.get (py "statementHandle")).orElse r.submissionHandle

end StatementResponse

namespace Response

/-- `_json_body`. -/
def jsonBody (r : Response) : Dict :=
  match r.json with
  | none => [(py "message", .str (r.text.take 500))]
  | some (.obj parsed) => parsed
  | some parsed => [(py "data", parsed)]

/-- The handle a reply names. -/
def handle (r : Response) : Json := r.jsonBody.get (py "statementHandle")

/-- A typed error with the fields of the reply's envelope. -/
def errorOf (r : Response) (cls : ExcClass) (default : PyStr) : Exc where
  cls := cls
  message := [r.jsonBody.getD (py "message") (.str default)]
  statusCode := some r.statusCode
  code := r.jsonBody.get (py "code")
  sqlState := r.jsonBody.get (py "sqlState")
  statementHandle := r.handle

/-- `f"HTTP {status}"`. -/
def httpText (r : Response) : PyStr := py "HTTP " ++ strNat r.statusCode

/-- `_interpret`. -/
def interpret (r : Response) : Except Exc StatementResponse :=
  if r.statusCode = 200 ∨ r.statusCode = 202 then
    .ok { statusCode := r.statusCode, body := r.jsonBody }
  else if r.statusCode = 422 then .error (r.errorOf .programming (py "SQL execution error"))
  else if r.statusCode = 401 then .error (r.errorOf .auth (py "authentication failed"))
  else if r.statusCode = 403 then .error (r.errorOf .forbidden (py "request forbidden"))
  else .error (r.errorOf .request r.httpText)

theorem interpret_ok {r : Response} {response : StatementResponse} (h : r.interpret = .ok response) :
    r.statusCode = 200 ∨ r.statusCode = 202 := by
  by_contra hstatus
  rw [interpret, if_neg hstatus] at h
  split at h
  · cases h
  · split at h
    · cases h
    · split at h <;> cases h

/-- The class of an error is that of the status. -/
theorem interpret_error {r : Response} {e : Exc} (h : r.interpret = .error e) :
    e.statusCode = some r.statusCode ∧ r.statusCode ≠ 200 ∧ r.statusCode ≠ 202 ∧
      (e.cls = .programming ∧ r.statusCode = 422 ∨ e.cls = .auth ∧ r.statusCode = 401 ∨
        e.cls = .forbidden ∧ r.statusCode = 403 ∨ e.cls = .request ∧ r.statusCode ≠ 422) := by
  rw [interpret] at h
  by_cases hok : r.statusCode = 200 ∨ r.statusCode = 202
  · rw [if_pos hok] at h
    cases h
  rw [if_neg hok] at h
  rw [not_or] at hok
  by_cases h422 : r.statusCode = 422
  · rw [if_pos h422] at h
    cases h
    exact ⟨rfl, hok.1, hok.2, .inl ⟨rfl, h422⟩⟩
  rw [if_neg h422] at h
  by_cases h401 : r.statusCode = 401
  · rw [if_pos h401] at h
    cases h
    exact ⟨rfl, hok.1, hok.2, .inr (.inl ⟨rfl, h401⟩)⟩
  rw [if_neg h401] at h
  by_cases h403 : r.statusCode = 403
  · rw [if_pos h403] at h
    cases h
    exact ⟨rfl, hok.1, hok.2, .inr (.inr (.inl ⟨rfl, h403⟩))⟩
  rw [if_neg h403] at h
  cases h
  exact ⟨rfl, hok.1, hok.2, .inr (.inr (.inr ⟨rfl, h422⟩))⟩

/-- `_retry_error`. -/
def retryError (r : Response) : Exc := r.errorOf .request r.httpText

end Response

/-! ### Requests -/

/-- The path of a request; its method follows from it. -/
inductive Target
  /-- `POST /api/v2/statements`. -/
  | statements
  /-- `GET /api/v2/statements/{handle}`. -/
  | status (handle : Json)
  /-- `POST /api/v2/statements/{handle}/cancel`. -/
  | cancel (handle : Json)

inductive Body
  | none
  | json (payload : Dict)
  | content (bytes : Bytes)

/-- The query parameters of a request, in order. -/
abbrev Params := List (PyStr × PyStr)

/-- What `_send` is called with. `params` is `none` where the call passes none. -/
structure Request where
  target : Target
  params : Option Params := none
  body : Body := .none
  isSubmit : Bool := false

namespace Request

/-- `_submit_params`. -/
def submitParams (requestId : PyStr) (asyncExec retry : Bool) : Params :=
  [(py "requestId", requestId)] ++ (if retry then [(py "retry", py "true")] else [])
    ++ (if asyncExec then [(py "async", py "true")] else [])

def submit (requestId : PyStr) (asyncExec retry : Bool) (body : Body) : Request where
  target := .statements
  params := some (submitParams requestId asyncExec retry)
  body := body
  isSubmit := true

/-- `get_statement`. -/
def getStatement (handle : Json) (partition : Option Nat := none) : Request where
  target := .status handle
  params := some (partition.elim [] fun n => [(py "partition", strNat n)])

/-- `cancel`. -/
def cancelStatement (handle : Json) : Request where
  target := .cancel handle

/-- `{**params, "retry": "true"}`, before the attempts of a submit after the first. -/
def again (request : Request) : Request :=
  if request.isSubmit then
    { request with params := request.params.map fun p => assocSet p (py "retry") (py "true") }
  else request

/-- The request of the given attempt. -/
def attempt (request : Request) (attempt : Nat) : Request :=
  if attempt = 0 then request else request.again

end Request

/-! ### The retry loop -/

/-- What happens to one attempt of a call. -/
inductive Event
  /-- Signing the token fails, before anything is sent. -/
  | tokenError (name : PyStr)
  /-- The request raises the named `httpx.TransportError`. -/
  | lost (name : PyStr)
  /-- The request raises an exception of another class. -/
  | failed (name : PyStr)
  | answered (r : Response)

structure Attempt where
  draw : Draw
  event : Event

/-- What happens to the attempts of a call. -/
abbrev Script := Nat → Attempt

/-- A request that was issued, and what came of it. -/
structure Exchange where
  request : Request
  event : Event

/-- The local variables of `_send`. -/
structure LoopState where
  attempts : Nat := 0
  knownHandle : Json := .null
  lastExc : Option Exc := none
  retryResponse : Option Response := none

def transportError (name : PyStr) : Exc := { cls := .transport name, message := [] }

def foreignError (name : PyStr) : Exc := { cls := .foreign name, message := [] }

namespace RetryPolicy

/-- The wait before an attempt. -/
def wait (policy : RetryPolicy) (mode : Mode) (draw : Draw) (attempt : Nat)
    (retryResponse : Option Response) : Except Exc Unit :=
  match attempt with
  | 0 => .ok ()
  | attempt + 1 => do
    let delay ← policy.delayFor draw attempt (retryResponse.map (·.statusCode))
      (retryResponse.bind (·.retryAfter))
    sleep mode delay

end RetryPolicy

/-- The body of the `try` block of `_send` from attempt `attempt` on, `n` attempts being left. -/
def attemptFrom (policy : RetryPolicy) (mode : Mode) (request : Request) (script : Script) :
    Nat → Nat → LoopState → List Exchange × LoopState × Except Exc StatementResponse
  | 0, _, st =>
    ([], st, .error { cls := .retry, cause := st.lastExc
                      message := [lit "retries exhausted after ", .int policy.maxAttempts,
                        lit " attempts"] })
  | n + 1, attempt, st =>
    match policy.wait mode (script attempt).draw attempt st.retryResponse with
    | .error e => ([], st, .error e)
    | .ok () =>
      let sent := { st with attempts := st.attempts + 1, retryResponse := none }
      let exchange := ⟨request.attempt attempt, (script attempt).event⟩
      match (script attempt).event with
      | .tokenError name => ([], { st with retryResponse := none }, .error (foreignError name))
      | .failed name => ([exchange], sent, .error (foreignError name))
      | .lost name =>
        let (rest, out) := attemptFrom policy mode request script n (attempt + 1)
          { sent with lastExc := some (transportError name) }
        (exchange :: rest, out)
      | .answered r =>
        if policy.shouldRetryStatus r.statusCode then
          let (rest, out) := attemptFrom policy mode request script n (attempt + 1)
            { sent with
              lastExc := some r.retryError
              retryResponse := some r
              knownHandle :=
                if request.isSubmit && r.handle.truthy then r.handle else sent.knownHandle }
          (exchange :: rest, out)
        else ([exchange], sent, r.interpret)

/-- What `_send` writes on the result of the loop, or on the exception that leaves it. -/
def annotate (isSubmit : Bool) (attempts : Nat) (knownHandle : Json) :
    Except Exc StatementResponse → Except Exc StatementResponse
  | .ok result => .ok { result with
      submissionAttempts := if isSubmit then some attempts else none
      submissionHandle := knownHandle }
  | .error e => .error { e with
      submissionAttempts := if isSubmit then some attempts else none
      statementHandle :=
        if knownHandle.truthy && !e.statementHandle.truthy then knownHandle else e.statementHandle }

/-- `_send`. -/
def send (policy : RetryPolicy) (mode : Mode) (request : Request) (script : Script) :
    List Exchange × Except Exc StatementResponse :=
  let (exchanges, st, result) :=
    attemptFrom policy mode request script policy.maxAttempts.toNat 0 {}
  (exchanges, annotate request.isSubmit st.attempts st.knownHandle result)

/-! ### What a call comes to -/

/-- The loop goes on after this event. -/
def Event.Retried (policy : RetryPolicy) : Event → Prop
  | .lost _ => True
  | .answered r => policy.shouldRetryStatus r.statusCode = true
  | .tokenError _ | .failed _ => False

/-- What a retried event leaves as `last_exc`. -/
def Event.exception : Event → Option Exc
  | .lost name => some (transportError name)
  | .answered r => some r.retryError
  | .tokenError _ | .failed _ => none

def Event.response : Event → Option Response
  | .answered r => some r
  | _ => none

/-- The handle of the reply, if there is one. -/
def Event.handle (e : Event) : Json := e.response.elim .null Response.handle

namespace Script

variable (script : Script)

/-- The latest non-empty handle among the replies to the first `k` attempts. -/
def latestHandle : Nat → Json
  | 0 => .null
  | k + 1 => (script k).event.handle.orElse (latestHandle k)

/-- The handle that a call carries to attempt `k`. -/
def carried (isSubmit : Bool) (k : Nat) : Json := if isSubmit then script.latestHandle k else .null

def lastExc : Nat → Option Exc
  | 0 => none
  | k + 1 => (script k).event.exception

def retryResponse : Nat → Option Response
  | 0 => none
  | k + 1 => (script k).event.response

/-- The variables of the loop after `k` retried attempts. -/
def stateAt (isSubmit : Bool) (k : Nat) : LoopState :=
  ⟨k, script.carried isSubmit k, script.lastExc k, script.retryResponse k⟩

/-- The first `k` attempts, as issued. -/
def exchanges (request : Request) (k : Nat) : List Exchange :=
  (List.range k).map fun i => ⟨request.attempt i, (script i).event⟩

theorem exchanges_succ (request : Request) (k : Nat) : script.exchanges request (k + 1) =
    script.exchanges request k ++ [⟨request.attempt k, (script k).event⟩] := by
  rw [exchanges, List.range_succ, List.map_append]
  rfl

@[simp] theorem exchanges_length (request : Request) (k : Nat) :
    (script.exchanges request k).length = k := by
  rw [exchanges, List.length_map, List.length_range]

theorem latestHandle_truthy_or (k : Nat) :
    (script.latestHandle k).truthy = true ∨ script.latestHandle k = .null := by
  induction k with
  | zero => exact .inr rfl
  | succ k ih =>
    rw [latestHandle]
    by_cases h : (script k).event.handle.truthy = true
    · rw [Json.orElse_of_truthy h]
      exact .inl h
    · rw [Json.orElse_of_not_truthy (by simpa using h)]
      exact ih

theorem carried_truthy_or (isSubmit : Bool) (k : Nat) :
    (script.carried isSubmit k).truthy = true ∨ script.carried isSubmit k = .null := by
  cases isSubmit with
  | false => exact .inr rfl
  | true => exact script.latestHandle_truthy_or k

end Script

/-- The error of a call whose attempts are used up. -/
def retriesExhausted (policy : RetryPolicy) (cause : Option Exc) : Exc where
  cls := .retry
  cause := cause
  message := [lit "retries exhausted after ", .int policy.maxAttempts, lit " attempts"]

/-- **What a call comes to**: attempts are retried up to one that is not, or until none is left; a
wait that raises ends the call as well. -/
inductive SendResult (policy : RetryPolicy) (mode : Mode) (request : Request) (script : Script) :
    List Exchange × Except Exc StatementResponse → Prop
  | answered {k : Nat} {r : Response} : k < policy.maxAttempts.toNat →
      (∀ i < k, (script i).event.Retried policy) → (script k).event = .answered r →
      policy.shouldRetryStatus r.statusCode = false →
      SendResult policy mode request script (script.exchanges request (k + 1),
        annotate request.isSubmit (k + 1) (script.carried request.isSubmit k) r.interpret)
  | tokenError {k : Nat} {name : PyStr} : k < policy.maxAttempts.toNat →
      (∀ i < k, (script i).event.Retried policy) → (script k).event = .tokenError name →
      SendResult policy mode request script (script.exchanges request k,
        annotate request.isSubmit k (script.carried request.isSubmit k)
          (.error (foreignError name)))
  | failed {k : Nat} {name : PyStr} : k < policy.maxAttempts.toNat →
      (∀ i < k, (script i).event.Retried policy) → (script k).event = .failed name →
      SendResult policy mode request script (script.exchanges request (k + 1),
        annotate request.isSubmit (k + 1) (script.carried request.isSubmit k)
          (.error (foreignError name)))
  | exhausted : (∀ i < policy.maxAttempts.toNat, (script i).event.Retried policy) →
      SendResult policy mode request script (script.exchanges request policy.maxAttempts.toNat,
        annotate request.isSubmit policy.maxAttempts.toNat
          (script.carried request.isSubmit policy.maxAttempts.toNat)
          (.error (retriesExhausted policy (script.lastExc policy.maxAttempts.toNat))))
  | interrupted {k : Nat} {e : Exc} : k < policy.maxAttempts.toNat →
      (∀ i < k, (script i).event.Retried policy) →
      policy.wait mode (script k).draw k (script.retryResponse k) = .error e →
      SendResult policy mode request script (script.exchanges request k,
        annotate request.isSubmit k (script.carried request.isSubmit k) (.error e))

section Loop

variable {policy : RetryPolicy} {mode : Mode} {request : Request} {script : Script}

theorem carried_succ (k : Nat) {r : Response} (h : (script k).event = .answered r) :
    script.carried request.isSubmit (k + 1) =
      if request.isSubmit && r.handle.truthy then r.handle
      else script.carried request.isSubmit k := by
  cases hs : request.isSubmit with
  | false => rfl
  | true =>
    rw [Script.carried, if_pos rfl, Script.carried, if_pos rfl, Script.latestHandle, h]
    rfl

theorem retried_succ {k : Nat} (h : ∀ i < k, (script i).event.Retried policy)
    (hk : (script k).event.Retried policy) : ∀ i < k + 1, (script i).event.Retried policy := by
  intro i hi
  by_cases hlt : i < k
  · exact h i hlt
  · obtain rfl : i = k := by omega
    exact hk

variable (policy mode request script) in
/-- A call whose loop has come to attempt `k`, with `n` attempts left. -/
def callFrom (n k : Nat) : List Exchange × Except Exc StatementResponse :=
  let (exchanges, st, result) :=
    attemptFrom policy mode request script n k (script.stateAt request.isSubmit k)
  (script.exchanges request k ++ exchanges,
    annotate request.isSubmit st.attempts st.knownHandle result)

theorem send_eq_callFrom_zero : send policy mode request script =
    callFrom policy mode request script policy.maxAttempts.toNat 0 := by
  have hcarried : script.carried request.isSubmit 0 = .null := by
    cases request.isSubmit <;> rfl
  rw [callFrom, Script.stateAt, hcarried]
  rfl

/-- The loop comes to the next attempt where one is retried. -/
theorem callFrom_succ {n k : Nat}
    (hwait : policy.wait mode (script k).draw k (script.retryResponse k) = .ok ())
    (hretried : (script k).event.Retried policy) :
    callFrom policy mode request script (n + 1) k =
      callFrom policy mode request script n (k + 1) := by
  rw [callFrom, attemptFrom, Script.stateAt, hwait]
  dsimp only
  cases hevent : (script k).event with
  | tokenError name | failed name =>
    rw [hevent] at hretried
    exact hretried.elim
  | lost name =>
    have hcarried : script.carried request.isSubmit (k + 1) =
        script.carried request.isSubmit k := by
      rw [Script.carried, Script.carried, Script.latestHandle, hevent]
      rfl
    rw [callFrom]
    dsimp only
    rw [Script.exchanges_succ, List.append_assoc, List.singleton_append,
      Script.stateAt, hcarried, Script.lastExc, Script.retryResponse, hevent]
    rfl
  | answered r =>
    have hretry : policy.shouldRetryStatus r.statusCode = true := by
      rw [hevent] at hretried
      exact hretried
    rw [callFrom]
    dsimp only
    rw [if_pos hretry, Script.exchanges_succ, List.append_assoc, List.singleton_append,
      Script.stateAt, carried_succ k hevent, Script.lastExc, Script.retryResponse, hevent]
    rfl

/-- The loop ends where the wait raises. -/
theorem callFrom_interrupted {n k : Nat} {e : Exc}
    (hwait : policy.wait mode (script k).draw k (script.retryResponse k) = .error e) :
    callFrom policy mode request script (n + 1) k = (script.exchanges request k,
      annotate request.isSubmit k (script.carried request.isSubmit k) (.error e)) := by
  rw [callFrom, attemptFrom, Script.stateAt, hwait]
  dsimp only
  rw [List.append_nil]

/-- The loop ends with a reply that is not retried. -/
theorem callFrom_answered {n k : Nat} {r : Response}
    (hwait : policy.wait mode (script k).draw k (script.retryResponse k) = .ok ())
    (hevent : (script k).event = .answered r)
    (hdone : policy.shouldRetryStatus r.statusCode = false) :
    callFrom policy mode request script (n + 1) k = (script.exchanges request (k + 1),
      annotate request.isSubmit (k + 1) (script.carried request.isSubmit k) r.interpret) := by
  rw [callFrom, attemptFrom, Script.stateAt, hwait, Script.exchanges_succ, hevent]
  dsimp only
  rw [hdone, if_neg Bool.false_ne_true]

variable (policy mode request script) in
/-- The loop from attempt `k` on, in the state that `k` retried attempts leave. -/
theorem callFrom_result {n k : Nat} (hn : k + n = policy.maxAttempts.toNat)
    (hretried : ∀ i < k, (script i).event.Retried policy) :
    SendResult policy mode request script (callFrom policy mode request script n k) := by
  induction n generalizing k with
  | zero =>
    rw [Nat.add_zero] at hn
    subst hn
    rw [callFrom, attemptFrom]
    dsimp only
    rw [List.append_nil]
    exact .exhausted hretried
  | succ n ih =>
    have hk : k < policy.maxAttempts.toNat := by omega
    cases hwait : policy.wait mode (script k).draw k (script.retryResponse k) with
    | error e =>
      rw [callFrom_interrupted hwait]
      exact .interrupted hk hretried hwait
    | ok _ =>
      by_cases hstep : (script k).event.Retried policy
      · rw [callFrom_succ hwait hstep]
        exact ih (by omega) (retried_succ hretried hstep)
      cases hevent : (script k).event with
      | tokenError name =>
        rw [callFrom, attemptFrom, Script.stateAt, hwait, hevent]
        dsimp only
        rw [List.append_nil]
        exact .tokenError hk hretried hevent
      | failed name =>
        rw [callFrom, attemptFrom, Script.stateAt, hwait, hevent]
        dsimp only
        rw [← hevent, ← Script.exchanges_succ]
        exact .failed hk hretried hevent
      | lost name =>
        rw [hevent] at hstep
        exact absurd trivial hstep
      | answered r =>
        have hdone : policy.shouldRetryStatus r.statusCode = false := by
          rw [hevent] at hstep
          simpa [Event.Retried] using hstep
        rw [callFrom_answered hwait hevent hdone]
        exact .answered hk hretried hevent hdone

/-- **Every run of `_send`.** -/
theorem send_result (policy : RetryPolicy) (mode : Mode) (request : Request) (script : Script) :
    SendResult policy mode request script (send policy mode request script) := by
  rw [send_eq_callFrom_zero]
  exact callFrom_result policy mode request script (Nat.zero_add _)
    fun i hi => absurd hi (Nat.not_lt_zero i)

/-- A call comes to every attempt before which all are retried and no wait raises. -/
theorem send_eq_callFrom {k : Nat} (hk : k ≤ policy.maxAttempts.toNat)
    (hretried : ∀ i < k, (script i).event.Retried policy)
    (hwaited : ∀ i < k, policy.wait mode (script i).draw i (script.retryResponse i) = .ok ()) :
    send policy mode request script =
      callFrom policy mode request script (policy.maxAttempts.toNat - k) k := by
  induction k with
  | zero => exact send_eq_callFrom_zero
  | succ k ih =>
    have hleft : policy.maxAttempts.toNat - k = policy.maxAttempts.toNat - (k + 1) + 1 := by omega
    rw [ih (by omega) (fun i hi => hretried i (by omega)) (fun i hi => hwaited i (by omega)),
      hleft, callFrom_succ (hwaited k (by omega)) (hretried k (by omega))]

/-- A call whose first reply is not retried. -/
theorem send_answered {r : Response} (hattempts : 0 < policy.maxAttempts)
    (hevent : (script 0).event = .answered r) (hdone : policy.shouldRetryStatus r.statusCode = false) :
    send policy mode request script =
      ([⟨request.attempt 0, .answered r⟩], annotate request.isSubmit 1 .null r.interpret) := by
  obtain ⟨attempts, hleft⟩ : ∃ k, policy.maxAttempts.toNat = k + 1 :=
    ⟨policy.maxAttempts.toNat - 1, by omega⟩
  rw [send, hleft, attemptFrom]
  dsimp only [RetryPolicy.wait]
  rw [hevent]
  dsimp only
  rw [hdone]
  rfl

/-- Only exceptions of Python itself leave a wait. -/
theorem wait_error_builtin {draw : Draw} {k : Nat} {retryResponse : Option Response} {e : Exc}
    (h : policy.wait mode draw k retryResponse = .error e) : e.IsBuiltin := by
  cases k with
  | zero => cases h
  | succ attempt =>
    rw [RetryPolicy.wait] at h
    rcases bind_eq_error.mp h with h | ⟨delay, _, h⟩
    · exact RetryPolicy.delayFor_error_builtin h
    · exact sleep_error_builtin h

/-- The requests of a call are its first attempts, in order. -/
theorem exists_send_exchanges (policy : RetryPolicy) (mode : Mode) (request : Request)
    (script : Script) : ∃ k, (send policy mode request script).1 = script.exchanges request k := by
  have hresult := send_result policy mode request script
  generalize send policy mode request script = out at hresult
  cases hresult with
  | answered _ _ _ _ => exact ⟨_, rfl⟩
  | tokenError _ _ _ => exact ⟨_, rfl⟩
  | failed _ _ _ => exact ⟨_, rfl⟩
  | exhausted _ => exact ⟨_, rfl⟩
  | interrupted _ _ _ => exact ⟨_, rfl⟩

theorem Request.attempt_target (request : Request) (i : Nat) :
    (request.attempt i).target = request.target := by
  rw [Request.attempt]
  split
  · rfl
  · rw [Request.again]
    split <;> rfl

/-- The requests of a call go where it does. -/
theorem send_target : ∀ x ∈ (send policy mode request script).1,
    x.request.target = request.target := by
  obtain ⟨k, hk⟩ := exists_send_exchanges policy mode request script
  rw [hk]
  intro x hx
  obtain ⟨i, _, rfl⟩ := List.mem_map.mp hx
  exact Request.attempt_target request i

/-- The transport never raises a `SnowflakeTimeoutError`. -/
theorem send_cls_ne_timeout {e : Exc} (h : (send policy mode request script).2 = .error e) :
    e.cls ≠ .timeout := by
  have hresult := send_result policy mode request script
  generalize send policy mode request script = out at h hresult
  cases hresult with
  | @answered k r _ _ _ _ =>
    cases hinterpret : r.interpret with
    | ok response =>
      rw [hinterpret] at h
      cases h
    | error e' =>
      obtain ⟨_, _, _, hcls⟩ := Response.interpret_error hinterpret
      rw [hinterpret] at h
      cases h
      rcases hcls with ⟨h, _⟩ | ⟨h, _⟩ | ⟨h, _⟩ | ⟨h, _⟩ <;> simp [h]
  | tokenError _ _ _ => cases h; simp [foreignError]
  | failed _ _ _ => cases h; simp [foreignError]
  | exhausted _ => cases h; simp [retriesExhausted]
  | interrupted _ _ hwait =>
    obtain ⟨name, hname⟩ := (wait_error_builtin hwait).foreign
    cases h
    simp [hname]

end Loop

end SnowflakeSqlApi
