import SnowflakeSqlApi.Batches.Import
import SnowflakeSqlApi.Batches.Readback
import SnowflakeSqlApi.Testing.Execution

/-!
# Imports on the fake server

`client.insert_batches` on a fake, as a test of an application has it.  Each request of the import
goes to the fake in the state that the requests before it have left, and the fake finds the
statement of a batch in the bytes of its body.

What is registered for the statements decides each submission (`ServedAs`).  The requests of a run
leave the registrations alone, so the induction over it needs nothing else of the fake.
-/

namespace SnowflakeSqlApi.Testing

namespace Session

variable (s : Session)

/-- What a batch meets beside the fake: its identity, and the clocks of its polls. -/
structure Turn where
  requestId : Uuid
  started : ℚ
  clocks : List ℚ

/-- The client, as far as `insert_batches` reads it. -/
def importer : InsertClient where
  policy := s.policy
  pollInterval := s.pollInterval
  statementTimeout := s.context.statementTimeout

/-- The handle of a reply, for the requests that follow it. -/
def handleOf : Except Exc StatementResponse → Json
  | .ok response => response.statementHandle
  | .error _ => .null

/-- What the fake answers to a batch and to the polls of its statement. -/
def turnScript (fake : Fake) (turn : Turn) (batch : PreparedBatch) : SubmissionScript :=
  let request := InsertClient.batchRequest turn.requestId.str batch
  let called := s.call fake request
  { requestId := turn.requestId
    post := s.script fake request
    pollStarted := turn.started
    rounds := s.rounds (.getStatement (handleOf called.1)) called.2 turn.clocks
    cancelReply := s.script called.2 (.cancelStatement (handleOf called.1)) }

/-- The fake after some requests. -/
def afterRequests (fake : Fake) (exchanges : List Exchange) : Fake :=
  exchanges.foldl (fun fake x => (fake.handle (s.channel.http x.request)).2) fake

/-- The scripts of an import, one for each batch there is. -/
def importScripts (cfg : PlannerConfig) (src : Source) :
    List Turn → Planner → Fake → List SubmissionScript
  | [], _, _ => []
  | turn :: turns, p, fake =>
    match p.nextBatch cfg src with
    | (.ok (some batch), p) =>
      let script := s.turnScript fake turn batch
      let submission := s.importer.submitBatch script batch (.start p batch script.requestId.str)
      match submission.outcome with
      | some (.ok affected) =>
        script :: importScripts cfg src turns (p.confirm batch affected)
          (s.afterRequests fake submission.exchanges)
      | _ => [script]
    | _ => []

/-- `client.insert_batches(table, columns, source)`, and the fake after it. -/
def insertBatches (fake : Fake) (table : PyStr) (columns : List PyStr) (src : Source)
    (maxRows maxBytes : Int) (turns : List Turn) : Except Exc (InsertRun × Fake) := do
  let cfg ← PlannerConfig.make table columns maxRows maxBytes s.context
  let run := insertLoop cfg src s.importer (s.importScripts cfg src turns {} fake) {}
  pure (run, s.afterRequests fake (run.submissions.flatMap Submission.exchanges))

/-- The fake decodes a body as `json.loads` does. -/
def ReadsJson (codec : Encoding → Bytes → Option PyStr) (float : PyStr → PyFloat) : Prop :=
  ∀ content json, loadsBytes codec float content = some json → s.channel.loads content = .ok json

/-! ### The requests -/

variable {s} {fake : Fake}

theorem afterRequests_append (fake : Fake) (xs ys : List Exchange) :
    s.afterRequests fake (xs ++ ys) = s.afterRequests (s.afterRequests fake xs) ys :=
  List.foldl_append

/-- Requests register nothing, and are logged. -/
theorem afterRequests_spec (s : Session) (fake : Fake) (exchanges : List Exchange) :
    (s.afterRequests fake exchanges).exact = fake.exact ∧
      (s.afterRequests fake exchanges).predicates = fake.predicates ∧
      (s.afterRequests fake exchanges).requests =
        fake.requests ++ exchanges.map fun x => s.channel.http x.request := by
  induction exchanges generalizing fake with
  | nil => exact ⟨rfl, rfl, (List.append_nil _).symm⟩
  | cons x exchanges ih =>
    obtain ⟨hexact, hpredicates, hrequests⟩ := ih (fake.handle (s.channel.http x.request)).2
    obtain ⟨hexact', hpredicates'⟩ := Fake.handle_registers fake (s.channel.http x.request)
    refine ⟨hexact.trans hexact', hpredicates.trans hpredicates', ?_⟩
    rw [afterRequests, List.foldl_cons]
    rw [afterRequests] at hrequests
    rw [hrequests, Fake.handle_requests, List.append_assoc]
    rfl

theorem lookup_afterRequests (exchanges : List Exchange) (sql : Json) :
    (s.afterRequests fake exchanges).lookup sql = fake.lookup sql := by
  obtain ⟨hexact, hpredicates, -⟩ := afterRequests_spec s fake exchanges
  exact Fake.lookup_of_registers hexact hpredicates sql

/-- The fake reads the statement of a batch. -/
theorem submits_batch {codec : Encoding → Bytes → Option PyStr} {float : PyStr → PyFloat}
    {table : PyStr} {columns : List PyStr} {rows : List (List Value)} {batch : PreparedBatch}
    (hjson : s.ReadsJson codec float) (hctx : s.context.Loads float)
    (hagrees : batch.Agrees table columns s.context rows) (requestId : PyStr) :
    s.Submits batch.sql (InsertClient.batchRequest requestId batch) := by
  obtain ⟨payload, -, -, hloads, hreads⟩ := @PreparedBatch.Agrees.reads codec _ _ _ _ _ _ hagrees hctx
  have hcontent := hjson batch.content (.obj payload) hloads
  have hstatement : Fake.statementOf ⟨py "POST", statementsPath, [], s.channel.loads batch.content⟩ =
      .ok (.str batch.sql) := by
    rw [Fake.statementOf, hcontent]
    show Except.ok (Dict.getD payload (py "statement") (.str [])) = _
    rw [Dict.getD, hreads.statement]
    rfl
  refine ⟨rfl, fun k => ?_, fun k => ?_⟩
  · cases k <;> exact ⟨rfl, rfl⟩
  · cases k <;> exact hstatement

/-! ### One submission -/

end Session

/-- The count that a registration comes to, read strictly. -/
def Reg.counted (reg : Reg) : Except Exc Int := rowsAffected true (Fake.resultBody reg [])

namespace Session

/-- A registration that is served within the clocks of a turn. -/
structure Turn.Serves (turn : Turn) (reg : Reg) : Prop where
  polls : reg.error = none → reg.pollsBeforeReady.toNat < turn.clocks.length
  status : ∀ error, reg.error = some error → error.status ≠ 200 ∧ error.status ≠ 202

/-- **What a registration makes of a submission**: its count after one POST, or its error after as many
as its status has. -/
structure ServedAs (s : Session) (reg : Reg) (submission : Submission) : Prop where
  served : reg.error = none → submission.posts.length = 1 ∧ submission.outcome = some reg.counted
  refused : ∀ error, reg.error = some error →
    submission.posts.length = error.submissions s.policy ∧
      ∃ issued, submission.outcome = some (.error (error.raised s.policy issued))

variable {s : Session} {fake : Fake} {turn : Turn} {batch : PreparedBatch} {reg : Reg}

theorem ServedAs.ended {submission : Submission} (h : s.ServedAs reg submission) :
    ∃ result, submission.outcome = some result := by
  cases herror : reg.error with
  | none => exact ⟨_, (h.served herror).2⟩
  | some error =>
    obtain ⟨-, issued, houtcome⟩ := h.refused error herror
    exact ⟨_, houtcome⟩

theorem submitBatch_served (x : BatchExecution)
    (hsubmits : s.Submits batch.sql (InsertClient.batchRequest turn.requestId.str batch))
    (hlookup : fake.lookup (.str batch.sql) = .ok (some reg)) (herror : reg.error = none)
    (hcarries : s.Carries reg) (hpolls : reg.pollsBeforeReady.toNat < turn.clocks.length)
    (hclocks : ∀ clock ∈ turn.clocks, clock < (s.pollCall .null turn.started).deadline) :
    (s.importer.submitBatch (s.turnScript fake turn batch) batch x).posts.length = 1 ∧
      (s.importer.submitBatch (s.turnScript fake turn batch) batch x).outcome = some reg.counted := by
  obtain ⟨sent, response, next, hsend, hcall, hsettles⟩ := send_settles s
    (InsertClient.batchRequest turn.requestId.str batch) hsubmits.isSubmit (hsubmits.http 0)
    (hsubmits.statement 0) (plain_requestId turn.requestId.str) hlookup herror hcarries hpolls hclocks
  have hsend' : send s.importer.policy .sync
      (InsertClient.batchRequest (s.turnScript fake turn batch).requestId.str batch)
      (s.turnScript fake turn batch).post = ([sent], .ok response) := hsend
  have hpoll : poll (s.importer.pollCall response.statementHandle
        (s.turnScript fake turn batch).pollStarted)
      (s.turnScript fake turn batch).cancelReply (s.turnScript fake turn batch).rounds =
      poll (s.pollCall response.statementHandle turn.started)
        (s.script next (.cancelStatement response.statementHandle))
        (s.rounds (.getStatement response.statementHandle) next turn.clocks) := by
    rw [turnScript, hcall]
    rfl
  rw [InsertClient.submitBatch, hsend']
  dsimp only
  cases hsettles with
  | polled hrun houtcome =>
    rw [statementHandle_running] at hpoll
    rw [if_pos (isRunning_running _ _), statementHandle_running]
    dsimp only
    rw [hpoll, hrun, houtcome]
    exact ⟨rfl, rfl⟩
  | finished =>
    rw [if_neg (not_isRunning_finished _ _)]
    exact ⟨rfl, rfl⟩

theorem submitBatch_refused (x : BatchExecution) {error : ErrorSpec}
    (hsubmits : s.Submits batch.sql (InsertClient.batchRequest turn.requestId.str batch))
    (hlookup : fake.lookup (.str batch.sql) = .ok (some reg)) (herror : reg.error = some error)
    (hcarries : s.Carries reg) (hstatus : error.status ≠ 200 ∧ error.status ≠ 202)
    (hwaits : s.policy.CanWait .sync) :
    (s.importer.submitBatch (s.turnScript fake turn batch) batch x).posts.length =
        error.submissions s.policy ∧
      (s.importer.submitBatch (s.turnScript fake turn batch) batch x).outcome =
        some (.error (error.raised s.policy fake.counter)) := by
  obtain ⟨hlength, hsend⟩ := send_refused hsubmits hlookup herror hcarries hstatus hwaits
  have hlength' : (send s.importer.policy .sync
      (InsertClient.batchRequest (s.turnScript fake turn batch).requestId.str batch)
      (s.turnScript fake turn batch).post).1.length = _ := hlength
  have hsend' : (send s.importer.policy .sync
      (InsertClient.batchRequest (s.turnScript fake turn batch).requestId.str batch)
      (s.turnScript fake turn batch).post).2 = _ := hsend
  rw [InsertClient.submitBatch]
  dsimp only
  rw [hsend']
  exact ⟨hlength', rfl⟩

/-- **A submission is what is registered for it.** -/
theorem submitBatch_servedAs (x : BatchExecution)
    (hsubmits : s.Submits batch.sql (InsertClient.batchRequest turn.requestId.str batch))
    (hlookup : fake.lookup (.str batch.sql) = .ok (some reg)) (hcarries : s.Carries reg)
    (hserves : turn.Serves reg)
    (hclocks : ∀ clock ∈ turn.clocks, clock < (s.pollCall .null turn.started).deadline)
    (hwaits : s.policy.CanWait .sync) :
    s.ServedAs reg (s.importer.submitBatch (s.turnScript fake turn batch) batch x) where
  served herror :=
    submitBatch_served x hsubmits hlookup herror hcarries (hserves.polls herror) hclocks
  refused error herror := by
    obtain ⟨hposts, houtcome⟩ :=
      submitBatch_refused x hsubmits hlookup herror hcarries (hserves.status error herror) hwaits
    exact ⟨hposts, _, houtcome⟩

/-! ### The log -/

/-- Only a request for a statement is a submit. -/
theorem not_isSubmit {request : Request} (h : request.target ≠ .statements) :
    ¬ (s.channel.http request).IsSubmit := by
  rintro ⟨hmethod, hpath⟩
  obtain ⟨target, params, body, isSubmit⟩ := request
  cases target with
  | statements => exact h rfl
  | status handle =>
    have hget : py "GET" = py "POST" := hmethod
    revert hget
    decide
  | cancel handle =>
    have hlonger : (statusUrl (s.channel.handleText handle) ++ py "/cancel").length =
        statementsPath.length := congrArg List.length hpath
    rw [statusUrl, List.length_append, List.length_append, List.length_append] at hlonger
    have hcancel : 0 < (py "/cancel").length := by decide
    omega

/-- The requests of a submission are in the log, each POST as its statement. -/
theorem submittedStatements_submission {script : SubmissionScript} {start : FailedBatch}
    {submission : Submission} (hissues : submission.Issues s.importer script batch start)
    (hsubmits : s.Submits batch.sql (InsertClient.batchRequest script.requestId.str batch))
    {before : List Json} (hbefore : fake.submittedStatements = .ok before) :
    (s.afterRequests fake submission.exchanges).submittedStatements =
      .ok (before ++ List.replicate submission.posts.length (.str batch.sql)) := by
  have hposts : ∀ x ∈ submission.posts, (s.channel.http x.request).IsSubmit ∧
      Fake.statementOf (s.channel.http x.request) = .ok (.str batch.sql) := by
    obtain ⟨k, hk⟩ := exists_send_exchanges s.importer.policy .sync
      (InsertClient.batchRequest script.requestId.str batch) script.post
    rw [hissues.posts, hk]
    intro x hx
    obtain ⟨i, -, rfl⟩ := List.mem_map.mp hx
    exact ⟨hsubmits.http i, hsubmits.statement i⟩
  have hstatements := @Fake.statements_of_submits batch.sql
    (submission.posts.map fun x => s.channel.http x.request) fun http hhttp => by
      obtain ⟨x, hx, rfl⟩ := List.mem_map.mp hhttp
      exact hposts x hx
  have hnone : ((submission.polls.flatMap PollAction.exchanges).map fun x =>
      s.channel.http x.request).filter (fun request => request.IsSubmit) = [] := by
    rw [List.filter_eq_nil_iff]
    intro http hhttp hsubmit
    obtain ⟨x, hx, rfl⟩ := List.mem_map.mp hhttp
    exact not_isSubmit (hissues.gets x hx) (of_decide_eq_true hsubmit)
  refine Fake.submittedStatements_of_log (afterRequests_spec s fake submission.exchanges).2.2 ?_
    hbefore
  rw [List.length_map] at hstatements
  rw [Submission.exchanges, List.map_append, List.filter_append, hnone, List.append_nil]
  exact hstatements

/-! ### The import -/

/-- **An import is what is registered for its statements**: so is each submission, and the log has its
statement once for each POST; and it comes to its end unless it is out of turns. -/
structure ImportServed (s : Session) (fake : Fake) (turns : List Turn) (run : InsertRun) : Prop where
  log {before : List Json} : fake.submittedStatements = .ok before →
    (s.afterRequests fake (run.submissions.flatMap Submission.exchanges)).submittedStatements =
      .ok (before ++ run.submissions.flatMap fun x =>
        List.replicate x.posts.length (.str x.batch.sql))
  served : ∀ x ∈ run.submissions, ∃ reg, fake.lookup (.str x.batch.sql) = .ok (some reg) ∧
    s.ServedAs reg x
  ends : run.outcome = .pending → run.submissions.length = turns.length

namespace ImportServed

variable {turns : List Turn} {run : InsertRun}

theorem of_nil (hnone : run.submissions = []) (hends : run.outcome = .pending → turns = []) :
    s.ImportServed fake turns run := by
  refine ⟨fun hbefore => ?_, fun x hx => ?_, fun h => ?_⟩
  · rw [hnone, List.flatMap_nil, List.flatMap_nil, List.append_nil]
    exact hbefore
  · rw [hnone] at hx
    cases hx
  · rw [hnone, hends h]
    rfl

theorem cons {submission : Submission} (hserved : s.ServedAs reg submission)
    (hlookup : fake.lookup (.str submission.batch.sql) = .ok (some reg))
    (hlog : ∀ {before : List Json}, fake.submittedStatements = .ok before →
      (s.afterRequests fake submission.exchanges).submittedStatements =
        .ok (before ++ List.replicate submission.posts.length (.str submission.batch.sql)))
    (h : s.ImportServed (s.afterRequests fake submission.exchanges) turns run) :
    s.ImportServed fake (turn :: turns) { run with submissions := submission :: run.submissions } := by
  refine ⟨fun hbefore => ?_, fun x hx => ?_, fun hpending => ?_⟩
  · rw [List.flatMap_cons, List.flatMap_cons, afterRequests_append, ← List.append_assoc]
    exact h.log (hlog hbefore)
  · rcases List.mem_cons.mp hx with rfl | hx
    · exact ⟨reg, hlookup, hserved⟩
    · obtain ⟨reg, hreg, hserved⟩ := h.served x hx
      rw [lookup_afterRequests] at hreg
      exact ⟨reg, hreg, hserved⟩
  · exact congrArg (· + 1) (h.ends hpending)

end ImportServed

section Import

variable {cfg : PlannerConfig} {src : Source} {table : PyStr} {columns : List PyStr}
  {codec : Encoding → Bytes → Option PyStr} {float : PyStr → PyFloat}

/-- The induction is on the turns; the requests of a batch leave the registrations alone. -/
theorem insertLoop_served (hcfg : cfg.MadeFor table columns) (hsame : cfg.ctx = s.context)
    (hjson : s.ReadsJson codec float) (hctx : s.context.Loads float) (hwaits : s.policy.CanWait .sync)
    (turns : List Turn)
    (hclocks : ∀ turn ∈ turns, ∀ clock ∈ turn.clocks,
      clock < (s.pollCall .null turn.started).deadline)
    {p : Planner} {k : Nat} {fake : Fake} (hat : p.At cfg src k)
    (hregistered : ∀ i rows sql params, src.Lists i rows →
      insertStatement table columns rows = .ok (some (sql, params)) →
      ∃ reg, fake.lookup (.str sql) = .ok (some reg) ∧ s.Carries reg ∧
        ∀ turn ∈ turns, turn.Serves reg) :
    s.ImportServed fake turns
      (insertLoop cfg src s.importer (s.importScripts cfg src turns p fake) p) := by
  induction turns generalizing p k fake with
  | nil =>
    have hspec := nextBatch_spec hcfg.width_ne hcfg.placeholder hcfg.maxRows_pos hat
    rw [importScripts, insertLoop]
    generalize p.nextBatch cfg src = called at hspec
    cases hspec <;> exact .of_nil rfl fun _ => rfl
  | cons turn turns ih =>
    have hspec := nextBatch_spec hcfg.width_ne hcfg.placeholder hcfg.maxRows_pos hat
    rw [importScripts, insertLoop]
    generalize p.nextBatch cfg src = called at hspec
    cases hspec with
    | ended | faulted =>
      refine .of_nil rfl fun h => ?_
      cases h
    | @batch q b rows hne hrows hcarries hfits hclose hnext hprogress =>
      have hagrees := hcarries.agrees hcfg hne hrows.valid
      rw [hsame] at hagrees
      have hsubmits := submits_batch hjson hctx hagrees turn.requestId.str
      obtain ⟨reg, hlookup, hcarries, hserves⟩ := hregistered k _ _ _ hrows.lists hagrees.statement
      have hserved := submitBatch_servedAs (.start q b turn.requestId.str) hsubmits hlookup hcarries
        (hserves turn List.mem_cons_self) (hclocks turn List.mem_cons_self) hwaits
      have hissues := (submitBatch_sound s.importer (s.turnScript fake turn b) b q).1
      have hid : (s.turnScript fake turn b).requestId = turn.requestId := rfl
      have hhook : (s.turnScript fake turn b).notifyError = none := rfl
      rw [hid] at hissues
      dsimp only
      rw [hid]
      generalize hsubmission : s.importer.submitBatch (s.turnScript fake turn b) b
        (.start q b turn.requestId.str) = submission at hserved hissues
      have hlog : ∀ {before : List Json}, fake.submittedStatements = .ok before →
          (s.afterRequests fake submission.exchanges).submittedStatements =
            .ok (before ++ List.replicate submission.posts.length (.str submission.batch.sql)) := by
        intro before hbefore
        rw [hissues.batch_eq]
        exact submittedStatements_submission hissues hsubmits hbefore
      rw [← hissues.batch_eq] at hlookup
      obtain ⟨result, houtcome⟩ := hserved.ended
      rw [houtcome]
      cases result with
      | error e =>
        dsimp only
        rw [hhook]
        dsimp only
        rw [hid, hsubmission, houtcome]
        have hended : s.ImportServed (s.afterRequests fake submission.exchanges) turns
            ⟨[], q, .raised (.stopped (submission.execution.error q e))⟩ := by
          refine .of_nil rfl fun h => ?_
          cases h
        exact .cons hserved hlookup hlog hended
      | ok affected =>
        dsimp only
        rw [hhook]
        dsimp only
        rw [hid, hsubmission, houtcome]
        dsimp only
        refine .cons hserved hlookup hlog (ih (fun t ht => hclocks t (List.mem_cons_of_mem _ ht))
          (hnext.confirm b affected) fun i rows sql params hlists hstatement => ?_)
        obtain ⟨reg, hreg, hcarries, hserves⟩ := hregistered i rows sql params hlists hstatement
        exact ⟨reg, (lookup_afterRequests _ _).trans hreg, hcarries,
          fun t ht => hserves t (List.mem_cons_of_mem _ ht)⟩

/-- **An import on the fake is what is registered for its statements.** On a fake used in any way
before, `submitted_statements` has the statement of each batch, in order and as often as it was
posted: once where a result is registered, which the import then counts however often it polls in
time, and as often as the policy makes it where an error is, with which the import stops. It does not
hang. -/
theorem import_served (s : Session) (conv : Conversions) {ops : List Op} {maxRows maxBytes : Int}
    {turns : List Turn} {before : List Json} {run : InsertRun} {next : Fake}
    (hjson : s.ReadsJson codec float) (hctx : s.context.Loads float) (hwaits : s.policy.CanWait .sync)
    (hclocks : ∀ turn ∈ turns, ∀ clock ∈ turn.clocks,
      clock < (s.pollCall .null turn.started).deadline)
    (hregistered : ∀ i rows sql params, src.Lists i rows →
      insertStatement table columns rows = .ok (some (sql, params)) →
      ∃ reg, registered conv sql ops = some reg ∧ s.Carries reg ∧ ∀ turn ∈ turns, turn.Serves reg)
    (hbefore : (Fake.run conv {} ops).submittedStatements = .ok before)
    (hrun : s.insertBatches (Fake.run conv {} ops) table columns src maxRows maxBytes turns =
      .ok (run, next)) :
    next.submittedStatements = .ok (before ++ run.submissions.flatMap fun x =>
        List.replicate x.posts.length (.str x.batch.sql)) ∧
      (∀ x ∈ run.submissions, ∃ reg, registered conv x.batch.sql ops = some reg ∧
        s.ServedAs reg x) ∧
      run.EndsBySubmissions ∧
      (run.outcome = .pending → run.submissions.length = turns.length) := by
  obtain ⟨cfg, hmake, hrun⟩ := bind_eq_ok.mp hrun
  cases hrun
  have hlookup := fun sql => Fake.lookup_run conv sql ops
  have hserved := insertLoop_served (madeFor_of_make hmake) (ctx_of_make hmake) hjson hctx hwaits turns
    hclocks (Planner.at_initial cfg src) fun i rows sql params hlists hstatement => by
      obtain ⟨reg, hreg, hserved⟩ := hregistered i rows sql params hlists hstatement
      exact ⟨reg, (hlookup sql).trans (congrArg Except.ok hreg), hserved⟩
  refine ⟨hserved.log hbefore, fun x hx => ?_,
    insertLoop_endsBySubmissions (madeFor_of_make hmake) _, hserved.ends⟩
  obtain ⟨reg, hreg, hservedAs⟩ := hserved.served x hx
  rw [hlookup] at hreg
  exact ⟨reg, Except.ok.inj hreg, hservedAs⟩

end Import

/-! ### An import of two batches -/

/-- A client whose fake reads bodies. -/
def importSession : Session :=
  { sampleSession with
    channel := { sampleSession.channel with
      loads content :=
        (loadsBytes (fun _ _ => none) .nonFinite content).elim (.error (.valueError [])) .ok }
    context := pairContext }

theorem carries_importSession (reg : Reg) : importSession.Carries reg :=
  ⟨fun _ _ => rfl, fun _ _ _ => rfl, fun _ _ _ => rfl⟩

/-- One row is inserted, as a second poll says. -/
def countRows : Registration where
  rows := [.dict [(py "N", .int 1)]]
  pollsBeforeReady := 1

def countReg : Reg where
  rowType := [.obj [(py "name", .str (py "N")), (py "type", .str (py "fixed")),
    (py "nullable", .bool true), (py "scale", .int 0)]]
  chunks := [[[some (py "1")]]]
  pollsBeforeReady := 1
  chunks_ne := by simp
  chunks_le := by decide

def countOps : List Op := [.registerMatch (fun _ => true) countRows]

theorem registered_countOps (sql : PyStr) :
    registered refusingConversions sql countOps = some countReg := rfl

def twoTurns : List Turn := [⟨sampleUuid, 0, [0, 0]⟩, ⟨sampleUuid, 0, [0, 0]⟩]

theorem import_served_twoTurns : ∃ (run : InsertRun) (next : Fake),
    importSession.insertBatches (Fake.run refusingConversions {} countOps) hostileTable hostileColumns
      pairSource 3 273 twoTurns = .ok (run, next) ∧
    next.submittedStatements = .ok ([] ++ run.submissions.flatMap fun x =>
      List.replicate x.posts.length (.str x.batch.sql)) := by
  have hjson : importSession.ReadsJson (fun _ _ => none) .nonFinite := by
    intro content json hjson
    show Option.elim (loadsBytes _ _ content) _ Except.ok = _
    rw [hjson]
    rfl
  have hclocks : ∀ turn ∈ twoTurns, ∀ clock ∈ turn.clocks,
      clock < (importSession.pollCall .null turn.started).deadline := by
    intro turn hturn clock hclock
    have hsame : turn = ⟨sampleUuid, 0, [0, 0]⟩ := by simpa [twoTurns] using hturn
    subst hsame
    have hzero : clock = 0 := by simpa using hclock
    subst hzero
    show (0 : ℚ) < 0 + 30
    norm_num
  have hserves : ∀ turn ∈ twoTurns, turn.Serves countReg := by
    intro turn hturn
    have hsame : turn = ⟨sampleUuid, 0, [0, 0]⟩ := by simpa [twoTurns] using hturn
    subst hsame
    refine ⟨fun _ => by decide, fun error herror => ?_⟩
    cases herror
  have hrun : importSession.insertBatches (Fake.run refusingConversions {} countOps) hostileTable
      hostileColumns pairSource 3 273 twoTurns = .ok _ :=
    bind_eq_ok.mpr ⟨pairConfig, make_pairConfig, rfl⟩
  exact ⟨_, _, hrun, (import_served importSession refusingConversions hjson (loads_pairContext _)
    canWait_sampleSession hclocks (fun _ _ sql _ _ _ =>
      ⟨countReg, registered_countOps sql, carries_importSession countReg, hserves⟩)
    (show Fake.submittedStatements _ = .ok [] from rfl) hrun).1⟩

end Session

end SnowflakeSqlApi.Testing
