import SnowflakeSqlApi.Batches.Insert
import SnowflakeSqlApi.PollSpec

/-!
# What a submission knows

The requests of a submission and their replies are evidence of what became of its
statement: a 200 for a POST, or for a GET of a handle that a POST was given, says that it
is committed (`Submission.Accepted`); a refusal or a 422 says that it is not
(`Submission.Rejected`).

`submitBatch_sound` is the soundness of `_BatchExecution` against this evidence: a count
and the outcome `succeeded` come with the first kind, `not_executed` and `failed` with the
second.
-/

namespace SnowflakeSqlApi

/-! ### Evidence -/

/-- The request was answered with this status. -/
def Exchange.Answered (x : Exchange) (status : Nat) : Prop :=
  ∃ r, x.event = .answered r ∧ r.statusCode = status

namespace Submission

/-- The requests of the poll. -/
def gets (s : Submission) : List Exchange := s.polls.flatMap PollAction.exchanges

/-- A GET of a handle that a POST of the submission was given was answered with this status. -/
def Polled (s : Submission) (status : Nat) : Prop :=
  ∃ handle, handle.truthy = true ∧ (∃ x ∈ s.posts, x.event.handle = handle) ∧
    ∃ x ∈ s.gets, x.request.target = .status handle ∧ x.Answered status

/-- A reply says that the statement is committed. -/
def Accepted (s : Submission) : Prop := (∃ x ∈ s.posts, x.Answered 200) ∨ s.Polled 200

/-- No request was made, the only one was refused, or a reply says that the statement failed. -/
def Rejected (s : Submission) : Prop :=
  s.posts = [] ∨ (∃ x, s.posts = [x] ∧ ∃ status ∈ [400, 401, 403], x.Answered status) ∨
    (∃ x ∈ s.posts, x.Answered 422) ∨ s.Polled 422

end Submission

/-! ### One call -/

section Call

variable {policy : RetryPolicy} {mode : Mode} {request : Request} {script : Script}

theorem annotate_eq_ok {isSubmit : Bool} {attempts : Nat} {known : Json}
    {result : Except Exc StatementResponse} {response : StatementResponse}
    (h : annotate isSubmit attempts known result = .ok response) :
    ∃ plain, result = .ok plain ∧ response.statusCode = plain.statusCode ∧
      response.body = plain.body ∧ response.submissionHandle = known := by
  cases result with
  | error e => cases h
  | ok plain =>
    cases h
    exact ⟨plain, rfl, rfl, rfl, rfl⟩

theorem annotate_eq_error {isSubmit : Bool} {attempts : Nat} {known : Json}
    {result : Except Exc StatementResponse} {e : Exc}
    (h : annotate isSubmit attempts known result = .error e) :
    ∃ plain, result = .error plain ∧ e.cls = plain.cls ∧ e.statusCode = plain.statusCode ∧
      e.submissionAttempts = if isSubmit then some attempts else none := by
  cases result with
  | ok response => cases h
  | error plain =>
    cases h
    exact ⟨plain, rfl, rfl, rfl, rfl⟩

theorem exchange_mem_exchanges {k i : Nat} (hi : i < k) :
    ⟨request.attempt i, (script i).event⟩ ∈ script.exchanges request k :=
  List.mem_map.mpr ⟨i, List.mem_range.mpr hi, rfl⟩

theorem Request.attempt_body (request : Request) (i : Nat) :
    (request.attempt i).body = request.body := by
  rw [Request.attempt]
  split
  · rfl
  · rw [Request.again]
    split <;> rfl

/-- The response of a call is its last reply. -/
theorem send_ok {response : StatementResponse}
    (h : (send policy mode request script).2 = .ok response) : ∃ k r,
      (send policy mode request script).1 = script.exchanges request (k + 1) ∧
        (script k).event = .answered r ∧ response.statusCode = r.statusCode ∧
        (r.statusCode = 200 ∨ r.statusCode = 202) ∧ response.body = r.jsonBody ∧
        response.submissionHandle = script.carried request.isSubmit k := by
  have hresult := send_result policy mode request script
  generalize send policy mode request script = out at h hresult
  cases hresult with
  | @answered k r _ _ hevent _ =>
    obtain ⟨plain, hplain, hstatus, hbody, hhandle⟩ := annotate_eq_ok h
    rw [Response.interpret] at hplain
    by_cases hok : r.statusCode = 200 ∨ r.statusCode = 202
    · rw [if_pos hok] at hplain
      cases hplain
      exact ⟨k, r, rfl, hevent, hstatus, hok, hbody, hhandle⟩
    · rw [if_neg hok] at hplain
      split at hplain
      · cases hplain
      · split at hplain
        · cases hplain
        · split at hplain <;> cases hplain
  | tokenError _ _ _ => cases h
  | failed _ _ _ => cases h
  | exhausted _ => cases h
  | interrupted _ _ _ => cases h

/-- An error of a call is that of its last reply, or says nothing of a reply. -/
theorem send_error {e : Exc} (h : (send policy mode request script).2 = .error e) :
    e.submissionAttempts =
        (if request.isSubmit then some (send policy mode request script).1.length else none) ∧
      ((∃ k r plain, (send policy mode request script).1 = script.exchanges request (k + 1) ∧
          (script k).event = .answered r ∧ r.interpret = .error plain ∧ e.cls = plain.cls ∧
          e.statusCode = plain.statusCode) ∨
        e.cls = .retry ∨ ∃ name, e.cls = .foreign name) := by
  have hresult := send_result policy mode request script
  generalize send policy mode request script = out at h hresult
  cases hresult with
  | @answered k r _ _ hevent _ =>
    obtain ⟨plain, hplain, hcls, hstatus, hattempts⟩ := annotate_eq_error h
    exact ⟨by rw [hattempts, Script.exchanges_length],
      .inl ⟨k, r, plain, rfl, hevent, hplain, hcls, hstatus⟩⟩
  | tokenError _ _ _ | failed _ _ _ =>
    cases h
    exact ⟨by rw [Script.exchanges_length], .inr (.inr ⟨_, rfl⟩)⟩
  | exhausted _ =>
    cases h
    exact ⟨by rw [Script.exchanges_length], .inr (.inl rfl)⟩
  | interrupted _ _ hwait =>
    obtain ⟨name, hname⟩ := (wait_error_builtin hwait).foreign
    cases h
    exact ⟨by rw [Script.exchanges_length], .inr (.inr ⟨name, hname⟩)⟩

/-- A finished response was answered with 200. -/
theorem send_finished {response : StatementResponse}
    (h : (send policy mode request script).2 = .ok response) (hfinished : response.isRunning = false) :
    ∃ i, ∃ x ∈ (send policy mode request script).1,
      x.request = request.attempt i ∧ x.Answered 200 := by
  obtain ⟨k, r, hexchanges, hevent, hstatus, hok, _, _⟩ := send_ok h
  rw [StatementResponse.isRunning, hstatus] at hfinished
  have h200 : r.statusCode = 200 := hok.resolve_right (by simpa using hfinished)
  rw [hexchanges]
  exact ⟨k, _, exchange_mem_exchanges (Nat.lt_succ_self k), rfl, r, hevent, h200⟩

/-- A programming error was answered with 422. -/
theorem send_programming {e : Exc} (h : (send policy mode request script).2 = .error e)
    (hcls : e.cls = .programming) :
    ∃ i, ∃ x ∈ (send policy mode request script).1,
      x.request = request.attempt i ∧ x.Answered 422 := by
  obtain ⟨_, ⟨k, r, plain, hexchanges, hevent, hplain, hcls', _⟩ | hcls' | ⟨name, hcls'⟩⟩ :=
    send_error h
  · rw [hcls] at hcls'
    obtain ⟨_, _, _, hclass⟩ := Response.interpret_error hplain
    rw [← hcls'] at hclass
    have h422 : r.statusCode = 422 := by simpa using hclass
    rw [hexchanges]
    exact ⟨k, _, exchange_mem_exchanges (Nat.lt_succ_self k), rfl, r, hevent, h422⟩
  · rw [hcls] at hcls'
    cases hcls'
  · rw [hcls] at hcls'
    cases hcls'

/-- **A refusal** comes before the first request, or answers the only one. -/
theorem send_refusal {e : Exc} (h : (send policy mode request script).2 = .error e)
    (hsubmit : request.isSubmit = true)
    (hlen : (send policy mode request script).1.length ≤ 1)
    (hrefusal : BatchExecution.isRefusal e = true) :
    (send policy mode request script).1 = [] ∨ ∃ x, (send policy mode request script).1 = [x] ∧
      ∃ status ∈ [400, 401, 403], x.Answered status := by
  obtain ⟨hattempts, hreply⟩ := send_error h
  rw [if_pos hsubmit] at hattempts
  by_cases hzero : (send policy mode request script).1.length = 0
  · exact .inl (List.eq_nil_of_length_eq_zero hzero)
  right
  rw [BatchExecution.isRefusal, hattempts] at hrefusal
  have hone : (some (send policy mode request script).1.length = some 0) = False := by
    simpa using hzero
  simp only [hone, decide_false, Bool.false_or, Bool.or_eq_true, Bool.and_eq_true,
    decide_eq_true_eq, List.contains_iff_mem] at hrefusal
  rcases hreply with ⟨k, r, plain, hexchanges, hevent, hplain, _, hstatus⟩ | hcls | ⟨name, hcls⟩
  · obtain ⟨hcode, _, _, _⟩ := Response.interpret_error hplain
    rw [hstatus, hcode] at hrefusal
    have hmem : r.statusCode ∈ [400, 401, 403] := by
      rcases hrefusal with ⟨_, h401⟩ | ⟨_, hmem⟩
      · rw [Option.some.inj h401]
        simp
      · simpa using hmem
    rw [hexchanges, Script.exchanges_length] at hlen
    obtain rfl : k = 0 := by omega
    exact ⟨_, hexchanges, _, hmem, r, hevent, rfl⟩
  · rw [hcls] at hrefusal
    simp [ExcClass.isRequest] at hrefusal
  · rw [hcls] at hrefusal
    simp [ExcClass.isRequest] at hrefusal

/-- The handle of a response is one that a reply of the call gave, or missing. -/
theorem send_handle {response : StatementResponse} (hsubmit : request.isSubmit = true)
    (h : (send policy mode request script).2 = .ok response) :
    response.statementHandle = .null ∨ response.statementHandle.truthy = true ∧
      ∃ x ∈ (send policy mode request script).1, x.event.handle = response.statementHandle := by
  obtain ⟨k, r, hexchanges, hevent, _, _, hbody, hcarried⟩ := send_ok h
  rw [StatementResponse.statementHandle, hbody, hcarried, hexchanges, hsubmit, Script.carried,
    if_pos rfl]
  change r.handle.orElse _ = .null ∨ (r.handle.orElse _).truthy = true ∧
    ∃ x ∈ script.exchanges request (k + 1), x.event.handle = r.handle.orElse _
  by_cases htruthy : r.handle.truthy = true
  · rw [Json.orElse_of_truthy htruthy]
    refine .inr ⟨htruthy, _, exchange_mem_exchanges (Nat.lt_succ_self k), ?_⟩
    rw [hevent]
    rfl
  · rw [Json.orElse_of_not_truthy (by simpa using htruthy)]
    have hlatest : ∀ n ≤ k, script.latestHandle n = .null ∨ (script.latestHandle n).truthy = true ∧
        ∃ x ∈ script.exchanges request (k + 1), x.event.handle = script.latestHandle n := by
      intro n hn
      induction n with
      | zero => exact .inl rfl
      | succ n ih =>
        rw [Script.latestHandle]
        by_cases hhandle : (script n).event.handle.truthy = true
        · rw [Json.orElse_of_truthy hhandle]
          exact .inr ⟨hhandle, _, exchange_mem_exchanges (by omega), rfl⟩
        · rw [Json.orElse_of_not_truthy (by simpa using hhandle)]
          exact ih (by omega)
    exact hlatest k le_rfl

end Call

/-! ### One poll -/

section Poll

variable {c : PollCall}

/-- A request of the poll: of its GETs, or of its cancel. -/
def PollCall.Issues (c : PollCall) (x : Exchange) : Prop :=
  x.request.target = .status c.handle ∨ x.request.target = .cancel c.handle

theorem issues_get {mode : Mode} {reply : Script} : ∀ x ∈ (c.get mode reply).1, c.Issues x :=
  fun x hx => .inl (send_target x hx)

theorem issues_cancel {mode : Mode} {reply : Script} : ∀ x ∈ (c.cancel mode reply).1, c.Issues x :=
  fun x hx => .inr (send_target x hx)

theorem issues_waitedActions {mode : Mode} (rounds : List AsyncRound) :
    ∀ x ∈ (waitedActions c mode rounds).flatMap PollAction.exchanges, c.Issues x := by
  induction rounds with
  | nil => exact fun x hx => absurd hx List.not_mem_nil
  | cons round rounds ih =>
    intro x hx
    have hcons : waitedActions c mode (round :: rounds) =
        [.get (c.get mode round.reply).1, .sleep] ++ waitedActions c mode rounds := rfl
    rw [hcons, List.flatMap_append] at hx
    rcases List.mem_append.mp hx with hx | hx
    · exact issues_get x (by simpa [PollAction.exchanges] using hx)
    · exact ih x hx

/-- **What a poll knows**: it returns on a 200, and its programming errors are a 422. -/
structure PollRun.Knows (c : PollCall) (run : PollRun) : Prop where
  issues : ∀ x ∈ run.actions.flatMap PollAction.exchanges, c.Issues x
  returned : ∀ response, run.outcome = .returned response →
    ∃ x ∈ run.actions.flatMap PollAction.exchanges,
      x.request.target = .status c.handle ∧ x.Answered 200
  programming : ∀ e, run.outcome = .raised e → e.cls = .programming →
    ∃ x ∈ run.actions.flatMap PollAction.exchanges,
      x.request.target = .status c.handle ∧ x.Answered 422

/-- Rounds that are waited out change nothing in this. -/
theorem PollRun.Knows.after {run : PollRun} (h : run.Knows c) {actions : List PollAction}
    (hactions : ∀ x ∈ actions.flatMap PollAction.exchanges, c.Issues x) :
    (run.after actions).Knows c := by
  have hsplit : (run.after actions).actions.flatMap PollAction.exchanges =
      actions.flatMap PollAction.exchanges ++ run.actions.flatMap PollAction.exchanges :=
    List.flatMap_append
  refine ⟨?_, ?_, ?_⟩
  · rw [hsplit]
    intro x hx
    rcases List.mem_append.mp hx with hx | hx
    · exact hactions x hx
    · exact h.issues x hx
  · rw [hsplit]
    intro response hresponse
    obtain ⟨x, hx, hknown⟩ := h.returned response hresponse
    exact ⟨x, List.mem_append_right _ hx, hknown⟩
  · rw [hsplit]
    intro e he hcls
    obtain ⟨x, hx, hknown⟩ := h.programming e he hcls
    exact ⟨x, List.mem_append_right _ hx, hknown⟩

/-- A poll that no task cancellation can cut leaves with what its last round knows. -/
theorem Stops.knows {mode : Mode} {cancelCall : AsyncCall} {cleanup : Cleanup} {round : AsyncRound}
    {left : PollRun} (h : Stops c mode cancelCall cleanup round left) (hcut : round.cutOff = none)
    (hsleep : round.sleepCutOff = false) (hcancel : cancelCall.cutOff = none) : left.Knows c := by
  have hget : ∀ more : List PollAction, (∀ x ∈ more.flatMap PollAction.exchanges, c.Issues x) →
      ∀ x ∈ (.get (c.get mode round.reply).1 :: more).flatMap PollAction.exchanges, c.Issues x := by
    intro more hmore x hx
    rw [List.flatMap_cons] at hx
    rcases List.mem_append.mp hx with hx | hx
    · exact issues_get x hx
    · exact hmore x hx
  have hnone : ∀ x ∈ ([] : List PollAction).flatMap PollAction.exchanges, c.Issues x :=
    fun x hx => absurd hx List.not_mem_nil
  cases h with
  | @returned response _ hreply hfinished =>
    refine ⟨hget [] hnone, fun _ _ => ?_, fun e he => by cases he⟩
    obtain ⟨i, x, hx, hrequest, h200⟩ := send_finished hreply hfinished
    refine ⟨x, List.mem_append_left _ hx, ?_, h200⟩
    rw [hrequest]
    exact Request.attempt_target _ i
  | @failed e _ hreply =>
    refine ⟨hget [] hnone, (fun response hresponse => by cases hresponse), fun e' he hcls => ?_⟩
    cases he
    obtain ⟨i, x, hx, hrequest, h422⟩ := send_programming hreply hcls
    refine ⟨x, List.mem_append_left _ hx, ?_, h422⟩
    rw [hrequest]
    exact Request.attempt_target _ i
  | sleepFailed _ _ hsleep =>
    refine ⟨hget [.sleep] (by simp [PollAction.exchanges]), (fun response hresponse => by cases hresponse),
      fun e he hcls => ?_⟩
    obtain ⟨name, hname⟩ := (sleep_error_builtin hsleep).foreign
    cases he
    rw [hname] at hcls
    cases hcls
  | timedOut _ _ =>
    refine ⟨hget [] hnone, (fun response hresponse => by cases hresponse), fun e he hcls => ?_⟩
    cases he
    cases hcls
  | timedOutOwned _ _ _ =>
    refine ⟨hget [.cancel _] ?_, (fun response hresponse => by cases hresponse), fun e he hcls => ?_⟩
    · intro x hx
      exact issues_cancel x (by simpa [PollAction.exchanges] using hx)
    · cases he
      rw [timeoutAfter_cls] at hcls
      cases hcls
  | cutAtGet h =>
    rw [hcut] at h
    cases h
  | cutAtSleep _ h =>
    rw [hsleep] at h
    cases h
  | cutAtCancel _ _ h =>
    rw [hcancel] at h
    cases h

theorem poll_knows (c : PollCall) (cancelReply : Script) (rounds : List Round) :
    (poll c cancelReply rounds).Knows c := by
  rcases (poll_polls c cancelReply ⟨0, cancelReply, 0, []⟩).cases rounds with
    ⟨_, hall⟩ | ⟨before, round, rest, left, _, _, hleft, hend⟩
  · rw [hall]
    exact ⟨issues_waitedActions _, (fun response hresponse => by cases hresponse),
      fun e he => by cases he⟩
  · rw [hend]
    exact (hleft.knows rfl rfl rfl).after (issues_waitedActions _)

end Poll

/-! ### One submission -/

/-- When `_BatchExecution` gives each outcome. -/
theorem classify_cases (x : BatchExecution) (e : Exc) :
    match (x.classify e).2 with
    | .succeeded => x.succeeded = true
    | .failed => (x.failedWith e).submissionAttempts ≤ 1 ∧ e.cls = .programming
    | .notExecuted => (x.failedWith e).submissionAttempts ≤ 1 ∧ x.phase = .submission ∧
        BatchExecution.isRefusal e = true
    | .unknown => x.succeeded = false := by
  rw [BatchExecution.classify]
  cases hsucceeded : x.succeeded with
  | true => rfl
  | false =>
    by_cases hattempts : (x.failedWith e).submissionAttempts ≤ 1
    · by_cases hcls : e.cls = .programming
      · simp [hattempts, hcls]
      · by_cases hrefusal : x.phase = .submission ∧ BatchExecution.isRefusal e = true
        · simp [hattempts, hcls, hrefusal]
        · simp [hattempts, hcls, hrefusal]
    · simp [hattempts]

/-- What a submission issues, whatever becomes of it. -/
structure Submission.Issues (c : InsertClient) (script : SubmissionScript) (batch : PreparedBatch)
    (start : FailedBatch) (s : Submission) : Prop where
  batch_eq : s.batch = batch
  posts : s.posts =
    (send c.policy .sync (InsertClient.batchRequest script.requestId.str batch) script.post).1
  gets : ∀ x ∈ s.gets, x.request.target ≠ .statements
  startRowIndex : s.execution.failed.startRowIndex = start.startRowIndex
  rowCount : s.execution.failed.rowCount = start.rowCount

/-- **What is known of a submission** holds: of its count, and of the outcome of its error. -/
structure Submission.Sound (s : Submission) : Prop where
  counted : ∀ affected, s.outcome = some (.ok affected) → s.Accepted
  succeeded : ∀ e, s.outcome = some (.error e) → (s.execution.classify e).2 = .succeeded →
    s.Accepted
  rejected : ∀ e, s.outcome = some (.error e) →
    (s.execution.classify e).2 = .notExecuted ∨ (s.execution.classify e).2 = .failed → s.Rejected

namespace Submission.Sound

variable {s : Submission}

/-- A statement that has finished is committed, whether or not its count can be read. -/
theorem of_accepted (haccepted : s.Accepted) (hsucceeded : s.execution.succeeded = true) :
    s.Sound := by
  refine ⟨fun _ _ => haccepted, fun _ _ _ => haccepted, fun e _ hout => ?_⟩
  rw [BatchExecution.classify, hsucceeded] at hout
  rcases hout with hout | hout <;> cases hout

/-- Nothing is said of a submission that is not at its end. -/
theorem of_none (h : s.outcome = none) : s.Sound := by
  refine ⟨fun _ hout => ?_, fun _ hout => ?_, fun _ hout => ?_⟩
  all_goals
    rw [h] at hout
    cases hout

/-- An error says something when it is a refusal or a programming error, after one request. -/
theorem of_error {e : Exc} (h : s.outcome = some (.error e)) (hopen : s.execution.succeeded = false)
    (hrefusal : (s.execution.failedWith e).submissionAttempts ≤ 1 →
      s.execution.phase = .submission → BatchExecution.isRefusal e = true → s.Rejected)
    (hprogramming : e.cls = .programming → s.Rejected) : s.Sound := by
  have hcases := classify_cases s.execution e
  refine ⟨fun _ hout => ?_, fun e' he hout => ?_, fun e' he hout => ?_⟩
  · rw [h] at hout
    cases hout
  · rw [h] at he
    cases he
    rw [hout, hopen] at hcases
    cases hcases
  · rw [h] at he
    cases he
    rcases hout with hout | hout
    · rw [hout] at hcases
      exact hrefusal hcases.1 hcases.2.1 hcases.2.2
    · rw [hout] at hcases
      exact hprogramming hcases.2

end Submission.Sound

section Submission

variable (c : InsertClient) (script : SubmissionScript) (batch : PreparedBatch)

/-- A submission posts its batch and nothing else. -/
theorem Submission.Issues.content {c : InsertClient} {script : SubmissionScript}
    {batch : PreparedBatch} {start : FailedBatch} {s : Submission}
    (h : s.Issues c script batch start) : ∀ x ∈ s.exchanges, x.request.target = .statements →
      x.request.body = .content s.batch.content := by
  intro x hx htarget
  rcases List.mem_append.mp hx with hx | hx
  · obtain ⟨k, hk⟩ := exists_send_exchanges c.policy .sync
      (InsertClient.batchRequest script.requestId.str batch) script.post
    rw [h.posts, hk] at hx
    obtain ⟨i, _, rfl⟩ := List.mem_map.mp hx
    rw [h.batch_eq]
    exact Request.attempt_body _ i
  · exact absurd htarget (h.gets x hx)

/-- The requests of a poll are no submissions. -/
theorem PollRun.Knows.target_ne {call : PollCall} {run : PollRun} (h : run.Knows call) :
    ∀ x ∈ run.actions.flatMap PollAction.exchanges, x.request.target ≠ .statements := by
  intro x hx htarget
  rcases h.issues x hx with hissued | hissued
  · rw [htarget] at hissued
    cases hissued
  · rw [htarget] at hissued
    cases hissued

/-- A reply with a handle moves a submission to its execution. -/
theorem received_phase (x : BatchExecution) (attempts : Option Nat) (running : Bool) {handle : Json}
    (h : handle ≠ .null) : (x.received handle attempts running).phase = .execution := by
  rw [BatchExecution.received]
  · exact if_pos (Bool.or_true _)
  · exact h

/-- A submission is sound, whatever is known before it, as long as it has not succeeded. -/
theorem submitBatch_sound_of {x : BatchExecution} (hopen : x.succeeded = false) :
    (c.submitBatch script batch x).Issues c script batch x.failed ∧
      (c.submitBatch script batch x).Sound := by
  rw [InsertClient.submitBatch]
  generalize hrequest : InsertClient.batchRequest script.requestId.str batch = request
  have hsubmit : request.isSubmit = true := by rw [← hrequest]; rfl
  have hunpolled : ∀ y ∈ ([] : List Exchange), y.request.target ≠ .statements :=
    fun y hy => absurd hy List.not_mem_nil
  cases hsent : (send c.policy .sync request script.post).2 with
  | error e =>
    refine ⟨⟨rfl, by rw [hrequest], hunpolled, rfl, rfl⟩, .of_error rfl hopen ?_ fun hcls => ?_⟩
    · intro hattempts _ hrefusal
      obtain ⟨hcount, _⟩ := send_error hsent
      rw [if_pos hsubmit] at hcount
      rw [BatchExecution.failedWith, hcount] at hattempts
      rcases send_refusal hsent hsubmit hattempts hrefusal with hnone | hrefused
      · exact .inl hnone
      · exact .inr (.inl hrefused)
    · obtain ⟨_, y, hy, _, h422⟩ := send_programming hsent hcls
      exact .inr (.inr (.inl ⟨y, hy, h422⟩))
  | ok response =>
    dsimp only
    cases hrunning : response.isRunning with
    | false =>
      obtain ⟨_, y, hy, _, h200⟩ := send_finished hsent hrunning
      simp only [Bool.false_eq_true, ↓reduceIte]
      exact ⟨⟨rfl, by rw [hrequest], hunpolled, rfl, rfl⟩, .of_accepted (.inl ⟨y, hy, h200⟩) rfl⟩
    | true =>
      have hhandle := send_handle hsubmit hsent
      simp only [↓reduceIte]
      generalize response.statementHandle = handle at hhandle
      split
      · refine ⟨⟨rfl, by rw [hrequest], hunpolled, rfl, rfl⟩, .of_error rfl rfl ?_ fun hcls => ?_⟩
        · exact fun _ _ hrefusal => absurd hrefusal (by decide)
        · cases hcls
      · rename_i hnull
        obtain ⟨htruthy, hgiven⟩ := hhandle.resolve_left hnull
        have hphase := received_phase x response.submissionAttempts true hnull
        have hknows := poll_knows (c.pollCall handle script.pollStarted) script.cancelReply
          script.rounds
        generalize poll _ script.cancelReply script.rounds = run at hknows
        have hgets := hknows.target_ne
        cases hend : run.outcome with
        | returned finished =>
          exact ⟨⟨rfl, by rw [hrequest], hgets, rfl, rfl⟩,
            .of_accepted (.inr ⟨_, htruthy, hgiven, hknows.returned _ hend⟩) rfl⟩
        | raised e =>
          refine ⟨⟨rfl, by rw [hrequest], hgets, rfl, rfl⟩, .of_error rfl rfl ?_ fun hcls => ?_⟩
          · intro _ hsubmission
            rw [hphase] at hsubmission
            cases hsubmission
          · exact .inr (.inr (.inr ⟨_, htruthy, hgiven, hknows.programming _ hend hcls⟩))
        | cancelled => exact ⟨⟨rfl, by rw [hrequest], hgets, rfl, rfl⟩, .of_none rfl⟩
        | waiting => exact ⟨⟨rfl, by rw [hrequest], hgets, rfl, rfl⟩, .of_none rfl⟩

/-- **A submission of a batch is sound.** -/
theorem submitBatch_sound (p : Planner) :
    (c.submitBatch script batch (.start p batch script.requestId.str)).Issues c script batch
        (BatchExecution.start p batch script.requestId.str).failed ∧
      (c.submitBatch script batch (.start p batch script.requestId.str)).Sound :=
  submitBatch_sound_of c script batch rfl

end Submission

end SnowflakeSqlApi
