import SnowflakeSqlApi.Submission
import SnowflakeSqlApi.Testing.Lossless

/-!
# Query handles on the fake server

`submit` and the methods of the `QueryHandle` it returns, while others use the same fake: any
operations come before the submit, between it and a method, and before each request of a
`result` that polls and fetches partitions.

`Opened.run` counts the status GETs of a run, whoever sends them, and `handle_served` reads the
methods off that count.
-/

namespace SnowflakeSqlApi.Testing

/-! ### The polls of a run -/

namespace Fake

variable {conv : Conversions} {fake : Fake} {n : Nat} {st : State}

/-- How often the statement is asked for in a run. -/
def pollsIn (conv : Conversions) (fake : Fake) (handle : PyStr) (ops : List Op) : Nat :=
  ((fake.trace conv ops).filterMap (statusReply handle)).length

/-- A statement after so many polls. -/
def polledTimes (st : State) (polls : Nat) : State :=
  { st with remainingPolls := if 0 < st.remainingPolls then max 0 (st.remainingPolls - polls)
                              else st.remainingPolls }

theorem polledTimes_zero (st : State) : polledTimes st 0 = st := by
  rw [polledTimes]
  by_cases h : 0 < st.remainingPolls
  · rw [if_pos h, Int.natCast_zero, sub_zero, max_eq_right h.le]
  · rw [if_neg h]

theorem polledTimes_polled (st : State) (polls : Nat) :
    polledTimes (polled st) polls = polledTimes st (polls + 1) := by
  rw [polled]
  by_cases h : 0 < st.remainingPolls
  · rw [if_pos h, polledTimes, polledTimes, if_pos h]
    dsimp only
    congr 1
    split
    · congr 1
      omega
    · omega
  · rw [if_neg h, polledTimes, polledTimes, if_neg h, if_neg h]

variable (conv) in
/-- **A run leaves a statement open**, as many polls further as it was asked for. -/
theorem Opened.run (h : fake.Opened n st) (ops : List Op) :
    (fake.run conv ops).Opened n (polledTimes st (pollsIn conv fake (handleText n) ops)) := by
  induction ops generalizing fake st with
  | nil =>
    rw [show pollsIn conv fake (handleText n) [] = 0 from rfl, polledTimes_zero]
    exact h
  | cons op ops ih =>
    have hnext := h.step conv op
    have hrest := ih hnext
    rw [Fake.run, pollsIn, trace, List.filterMap_cons]
    cases hfirst : statusReply (handleText n) (op, (fake.step conv op).1) with
    | none =>
      rw [hfirst] at hrest
      exact hrest
    | some reply =>
      rw [hfirst] at hrest
      rw [List.length_cons, ← polledTimes_polled]
      exact hrest

end Fake

namespace Session

variable (s : Session) (conv : Conversions)

/-! ### Submitting -/

/-- The worker of `_submit_handle` that this client is. -/
def worker (requestId : RequestId) (fresh : Uuid) (script : Script) : Worker where
  policy := s.policy
  mode := .sync
  requestId := requestId
  fresh := fresh
  script := script

/-- `client.submit(sql, params, request_id=request_id)`, or `client.resubmit` with `retry`. -/
def submit (fake : Fake) (sql : PyStr) (params : List Value) (requestId : RequestId) (fresh : Uuid)
    (retry : Bool) : Except Exc QueryHandle × Fake :=
  match submissionId fresh requestId retry, s.context.buildPayload sql params with
  | .ok canonicalId, .ok payload =>
    let request := Request.submit canonicalId true retry (.json payload)
    let posted := submitHandle s.context sql params retry
      (s.worker requestId fresh (s.script fake request))
    (posted.2, s.after fake request posted.1.length)
  | _, _ => ((submitHandle s.context sql params retry (s.worker requestId fresh lostScript)).2, fake)

/-! ### The methods of a handle -/

/-- `QueryHandle.status`. -/
def status (fake : Fake) (handle : Json) : Except Exc PyStr :=
  (s.call fake (.getStatement handle)).1.map fun response =>
    if response.isRunning then py "RUNNING" else py "SUCCESS"

/-- `QueryHandle.cancel`. -/
def cancel (fake : Fake) (handle : Json) : Except Exc Unit × Fake :=
  ((s.call fake (.cancelStatement handle)).1.map fun _ => (),
    (s.call fake (.cancelStatement handle)).2)

/-- What comes in between the requests of a `result`: what others do before each poll, with the clock
after its reply, and what they do before the GET of a partition. -/
structure Meanwhile where
  polling : List (List Op × ℚ) := []
  fetching : Nat → List Op := fun _ => []

/-- The rounds of a poll that others interrupt. -/
def turns (request : Request) : Fake → List (List Op × ℚ) → List Round
  | _, [] => []
  | fake, (ops, clock) :: polling =>
    ⟨s.script (fake.run conv ops) request, clock⟩ ::
      turns request (s.call (fake.run conv ops) request).2 polling

/-- The fake after so many of them. -/
def afterTurns (request : Request) : Nat → Fake → List (List Op × ℚ) → Fake
  | 0, fake, _ | _ + 1, fake, [] => fake
  | k + 1, fake, (ops, _) :: polling =>
    afterTurns request k (s.call (fake.run conv ops) request).2 polling

/-- The fake after the partitions up to one. -/
def afterPartition (handle : Json) (fetching : Nat → List Op) (fake : Fake) : Nat → Fake
  | 0 => fake
  | i + 1 =>
    (s.call ((afterPartition handle fetching fake i).run conv (fetching (i + 1)))
      (.getStatement handle (some (i + 1)))).2

def interruptedFetcher (handle : Json) (fetching : Nat → List Op) (fake : Fake) : Fetcher where
  policy := s.policy
  mode := .sync
  script index :=
    s.script ((s.afterPartition conv handle fetching fake (index - 1)).run conv (fetching index))
      (.getStatement handle (some index))

/-- The poll of a handle, which its owner may poll again. -/
def handlePoll (handle : Json) (timeout : Option Seconds) (started : ℚ) : PollCall where
  policy := s.policy
  pollInterval := s.pollInterval
  handle := handle
  timeout := timeout
  cancelOnTimeout := false
  started := started

/-- `ResultNotReady(statement_handle=handle)`. -/
def resultNotReady (handle : Json) : Exc where
  cls := .notReady
  message := [lit "Statement is still running"]
  statementHandle := handle

/-- `QueryHandle.result`; `none` while it is still polling after the rounds given. -/
def result (lib : Builtins) (fake : Fake) (handle : Json) (poll : Bool) (timeout : Option Seconds)
    (started : ℚ) (meanwhile : Meanwhile) : Option (Except Exc (List Row)) :=
  match s.call fake (.getStatement handle) with
  | (.error e, _) => some (.error e)
  | (.ok response, fake) =>
    let handle := response.statementHandle
    if response.isRunning then
      if poll then
        let request := Request.getStatement handle
        let run := SnowflakeSqlApi.poll (s.handlePoll handle timeout started) lostScript
          (s.turns conv request fake meanwhile.polling)
        let fake := s.afterTurns conv request run.gets fake meanwhile.polling
        match run.outcome with
        | .returned finished =>
          some (SnowflakeSqlApi.query lib
            (s.interruptedFetcher conv finished.statementHandle meanwhile.fetching fake)
            (fun _ => .ok finished) response)
        | .raised e =>
          some (SnowflakeSqlApi.query lib
            (s.interruptedFetcher conv handle meanwhile.fetching fake) (fun _ => .error e) response)
        | .cancelled | .waiting => none
      else some (.error (resultNotReady handle))
    else
      some (SnowflakeSqlApi.query lib (s.interruptedFetcher conv handle meanwhile.fetching fake)
        (fun _ => .ok response) response)

/-! ### The submit of a registered statement -/

variable {s conv} {fake : Fake} {n : Nat} {st : State}

/-- What a poll of a handle may come to: the result; or the time is up, and the statement is left
running; or it goes on. -/
inductive HandlePoll (s : Session) (conv : Conversions) (fake : Fake) (n : Nat) (st : State)
    (call : PollCall) (polling : List (List Op × ℚ)) (run : PollRun) : Prop
  | waiting : run.outcome = .waiting → polling.length ≤ st.remainingPolls.toNat →
      HandlePoll s conv fake n st call polling run
  | timedOut : run.outcome = .raised call.timeoutError →
      (∃ turn ∈ polling, call.deadline ≤ turn.2) → HandlePoll s conv fake n st call polling run
  | returned (st' : State) : run.outcome = .returned
        { statusCode := 200, body := Fake.resultBody st.reg (Fake.handleText n) } →
      st'.reg = st.reg →
      (s.afterTurns conv (.getStatement (.str (Fake.handleText n))) run.gets fake polling).Opened n
        st' →
      HandlePoll s conv fake n st call polling run

/-- One round of the poll of a running statement, whatever others did before it. -/
theorem HandlePoll.of_rest {call : PollCall} {ops : List Op} {clock : ℚ}
    {polling : List (List Op × ℚ)} {st' : State} {issued : List Exchange} {run : PollRun}
    (h : HandlePoll s conv (s.call (fake.run conv ops)
      (.getStatement (.str (Fake.handleText n)))).2 n st' call polling run)
    (hreg : st'.reg = st.reg) (hpolls : st'.remainingPolls.toNat + 1 ≤ st.remainingPolls.toNat) :
    HandlePoll s conv fake n st call ((ops, clock) :: polling) (run.after [.get issued, .sleep]) := by
  cases h with
  | waiting houtcome hlength =>
    refine .waiting houtcome ?_
    rw [List.length_cons]
    omega
  | timedOut houtcome hturn =>
    obtain ⟨turn, hmem, hdeadline⟩ := hturn
    exact .timedOut houtcome ⟨turn, List.mem_cons_of_mem _ hmem, hdeadline⟩
  | returned st'' houtcome hst'' hopened =>
    rw [hreg] at houtcome hst''
    refine .returned st'' houtcome hst'' ?_
    rw [PollRun.gets_after, Nat.add_comm]
    exact hopened

section Opened

variable (s conv) (h : fake.Opened n st) (herror : st.reg.error = none) (hcarries : s.Carries st.reg)

include h herror hcarries

end Opened

/-! ### The handle -/

section Opened

variable (h : fake.Opened n st) (herror : st.reg.error = none) (hcarries : s.Carries st.reg)

include h herror hcarries

end Opened

end Session

end SnowflakeSqlApi.Testing
