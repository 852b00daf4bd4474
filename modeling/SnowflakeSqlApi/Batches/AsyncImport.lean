import SnowflakeSqlApi.Batches.Outcome
import SnowflakeSqlApi.Parity

/-!
# Importing in batches, asynchronously

`insert_batches` of the asynchronous client: the loop of the synchronous one, whose task can be
cancelled while a batch is submitted and while it is polled.  A `CancelledError` is no
`Exception`, so it leaves the loop as it is, without a `BatchWriteError`.

`asyncInsert_cutShort` compares the two loops: a run is the synchronous one, or that run up to
some request of one batch.  `asyncInsert_cancelled` is what a cancelled import has
committed.
-/

namespace SnowflakeSqlApi

open Ledger

/-- What happens to one batch, as a `SubmissionScript`; the task may be cancelled during the
submission, after so many requests. -/
structure AsyncSubmissionScript where
  notifyError : Option Exc := none
  requestId : Uuid
  post : Script
  cutOff : Option Nat := none
  pollStarted : ℚ := 0
  rounds : List AsyncRound := []
  cancelCall : AsyncCall
  cleanup : Cleanup

/-- A submission, and whether the `CancelledError` left it. -/
structure AsyncSubmission extends Submission where
  cancelled : Bool := false

/-- How an asynchronous import ends. -/
inductive AsyncInsertEnd
  | left (outcome : InsertEnd)
  /-- The `CancelledError` leaves the loop. -/
  | cancelled

structure AsyncInsertRun where
  submissions : List Submission
  planner : Planner
  outcome : AsyncInsertEnd

namespace InsertClient

variable (c : InsertClient)

/-- The `try` block of the asynchronous `insert_batches` from its poll on. -/
def asyncPolled (batch : PreparedBatch) (posts : List Exchange) (x : BatchExecution)
    (run : PollRun) : AsyncSubmission :=
  match run.outcome with
  | .returned response =>
    { batch, posts, polls := run.actions, execution := { x with succeeded := true }
      outcome := some (rowsAffected true response.body) }
  | .raised e => { batch, posts, polls := run.actions, execution := x, outcome := some (.error e) }
  | .cancelled =>
    { batch, posts, polls := run.actions, execution := x, outcome := none, cancelled := true }
  | .waiting => { batch, posts, polls := run.actions, execution := x, outcome := none }

/-- The `try` block of the asynchronous `insert_batches`. -/
def asyncSubmitBatch (s : AsyncSubmissionScript) (batch : PreparedBatch) (x : BatchExecution) :
    AsyncSubmission :=
  let sent := send c.policy .async (batchRequest s.requestId.str batch) s.post
  match s.cutOff with
  | some n => { batch, posts := sent.1.take n, execution := x, outcome := none, cancelled := true }
  | none =>
    match sent.2 with
    | .error e => { batch, posts := sent.1, execution := x, outcome := some (.error e) }
    | .ok response =>
      let x := x.received response.statementHandle response.submissionAttempts response.isRunning
      if response.isRunning then
        match response.statementHandle with
        | .null =>
          { batch, posts := sent.1, execution := x
            outcome := some (.error
              { cls := .request, message := [lit "running statement has no handle"] }) }
        | handle =>
          let run := asyncPoll (c.pollCall handle s.pollStarted) s.cancelCall s.cleanup s.rounds
          asyncPolled batch sent.1 x run
      else
        { batch, posts := sent.1, execution := x
          outcome := some (rowsAffected true response.body) }

end InsertClient

/-- The loop of the asynchronous `insert_batches`. -/
def asyncInsertLoop (cfg : PlannerConfig) (src : Source) (c : InsertClient) :
    List AsyncSubmissionScript → Planner → AsyncInsertRun
  | scripts, p =>
    match p.nextBatch cfg src with
    | (.error e, p) => ⟨[], p, .left (.raised e)⟩
    | (.ok none, p) => ⟨[], p, .left (.returned p.completed)⟩
    | (.ok (some batch), p) =>
      match scripts with
      | [] => ⟨[], p, .left .pending⟩
      | s :: scripts =>
        match s.notifyError with
        | some e => ⟨[], p, .left (.raised (.stopped (p.error e .validation)))⟩
        | none =>
          let submission := c.asyncSubmitBatch s batch (.start p batch s.requestId.str)
          match submission.outcome with
          | none =>
            ⟨[submission.toSubmission], p,
              if submission.cancelled then .cancelled else .left .pending⟩
          | some (.error e) =>
            ⟨[submission.toSubmission], p,
              .left (.raised (.stopped (submission.execution.error p e)))⟩
          | some (.ok affected) =>
            let rest := asyncInsertLoop cfg src c scripts (p.confirm batch affected)
            { rest with submissions := submission.toSubmission :: rest.submissions }

/-- `insert_batches` of the asynchronous client. -/
def asyncInsertBatches (c : InsertClient) (ctx : ClientContext) (table : PyStr)
    (columns : List PyStr) (src : Source) (maxRows maxBytes : Int)
    (scripts : List AsyncSubmissionScript) : Except Exc AsyncInsertRun := do
  let cfg ← PlannerConfig.make table columns maxRows maxBytes ctx
  pure (asyncInsertLoop cfg src c scripts {})

/-! ### One submission -/

/-- The script without cancellations. -/
def AsyncSubmissionScript.uncut (s : AsyncSubmissionScript) : SubmissionScript where
  notifyError := s.notifyError
  requestId := s.requestId
  post := s.post
  pollStarted := s.pollStarted
  rounds := s.rounds.map AsyncRound.toRound
  cancelReply := s.cancelCall.reply

/-- The task is not cancelled at this batch. -/
structure AsyncSubmissionScript.Undisturbed (s : AsyncSubmissionScript) : Prop where
  post : s.cutOff = none
  cancel : s.cancelCall.cutOff = none
  rounds : ∀ round ∈ s.rounds, round.Undisturbed

/-- A client whose sleeps all succeed. -/
structure InsertClient.CanSleep (c : InsertClient) : Prop where
  waits : c.policy.CanWait .sync
  sleeps : sleep .sync c.pollInterval = .ok ()

/-- The client, with other waits. -/
def InsertClient.withWaits (c : InsertClient) (policy : RetryPolicy) (interval : ℚ) : InsertClient :=
  { c with policy := policy, pollInterval := interval }

/-- A submission that the task cancellation has cut short: it has issued the first requests of the
other, and then perhaps requests to cancel the statement, by the handle that a reply to its POST
gave. -/
structure Submission.CutOf (s full : Submission) : Prop where
  batch_eq : s.batch = full.batch
  outcome : s.outcome = none
  requests : ∃ issued later, s.exchanges = issued ++ later ∧ issued <+: full.exchanges ∧
    ∀ x ∈ later, x.request.target = .cancel s.execution.failed.statementHandle ∧
      ∃ y ∈ s.posts, y.event.handle = s.execution.failed.statementHandle

section Submissions

variable {c : InsertClient} {policy : RetryPolicy} {interval : ℚ}

/-- What the submission of a batch issues, whatever becomes of it. -/
theorem submitBatch_posts (c : InsertClient) (s : SubmissionScript) (batch : PreparedBatch)
    (x : BatchExecution) : (c.submitBatch s batch x).batch = batch ∧
      (c.submitBatch s batch x).posts =
        (send c.policy .sync (InsertClient.batchRequest s.requestId.str batch) s.post).1 := by
  rw [InsertClient.submitBatch]
  dsimp only
  split
  · exact ⟨rfl, rfl⟩
  · split
    · split
      · exact ⟨rfl, rfl⟩
      · split
        · exact ⟨rfl, rfl⟩
        · exact ⟨rfl, rfl⟩
        · exact ⟨rfl, rfl⟩
        · exact ⟨rfl, rfl⟩
    · exact ⟨rfl, rfl⟩

/-- A poll that is cut short cuts its submission short. -/
theorem asyncPolled_cutShort {handle : Json} {full run : PollRun}
    (h : PollRun.CutShort handle full run) (hsync : full.outcome ≠ .cancelled)
    (batch : PreparedBatch) {posts : List Exchange} {y : BatchExecution}
    (hhandle : y.failed.statementHandle = handle) (hnamed : ∃ z ∈ posts, z.event.handle = handle)
    {fullSubmission : Submission}
    (hfull : fullSubmission = match full.outcome with
      | .returned response =>
        { batch, posts, polls := full.actions
          execution := { y with succeeded := true }
          outcome := some (rowsAffected true response.body) }
      | .raised e =>
        { batch, posts, polls := full.actions, execution := y, outcome := some (.error e) }
      | .cancelled | .waiting =>
        { batch, posts, polls := full.actions, execution := y, outcome := none }) :
    ((InsertClient.asyncPolled batch posts y run).toSubmission = fullSubmission ∧
        (InsertClient.asyncPolled batch posts y run).cancelled = false) ∨
      (InsertClient.asyncPolled batch posts y run).CutOf fullSubmission ∧
        .taskCancelled ∈ run.actions := by
  have hissues : fullSubmission.batch = batch ∧ fullSubmission.exchanges = posts ++ full.exchanges := by
    rw [hfull]
    cases full.outcome with
    | returned response => exact ⟨rfl, rfl⟩
    | raised e => exact ⟨rfl, rfl⟩
    | cancelled => exact ⟨rfl, rfl⟩
    | waiting => exact ⟨rfl, rfl⟩
  cases h with
  | whole =>
    rw [InsertClient.asyncPolled, hfull]
    cases hend : full.outcome with
    | returned response => exact .inl ⟨rfl, rfl⟩
    | raised e => exact .inl ⟨rfl, rfl⟩
    | waiting => exact .inl ⟨rfl, rfl⟩
    | cancelled => exact absurd hend hsync
  | cut issued later hmem houtcome hexchanges hissued hlater =>
    have hrequests : (InsertClient.asyncPolled batch posts y run).exchanges =
        (posts ++ issued) ++ later := by
      rw [List.append_assoc, ← hexchanges, InsertClient.asyncPolled]
      rcases houtcome with hend | hend
      · rw [hend]
        rfl
      · rw [hend]
        rfl
    have hcancels : ∀ x ∈ later, x.request.target =
        .cancel (InsertClient.asyncPolled batch posts y run).execution.failed.statementHandle ∧
          ∃ z ∈ (InsertClient.asyncPolled batch posts y run).posts, z.event.handle =
            (InsertClient.asyncPolled batch posts y run).execution.failed.statementHandle := by
      intro x hx
      rw [InsertClient.asyncPolled]
      rcases houtcome with hend | hend
      · rw [hend]
        exact ⟨(hlater x hx).trans (by rw [hhandle]), by rw [hhandle]; exact hnamed⟩
      · rw [hend]
        exact ⟨(hlater x hx).trans (by rw [hhandle]), by rw [hhandle]; exact hnamed⟩
    refine .inr ⟨⟨?_, ?_, posts ++ issued, later, hrequests, ?_, hcancels⟩, hmem⟩
    · rw [hissues.1, InsertClient.asyncPolled]
      rcases houtcome with hend | hend
      · rw [hend]
      · rw [hend]
    · rw [InsertClient.asyncPolled]
      rcases houtcome with hend | hend
      · rw [hend]
      · rw [hend]
    · rw [hissues.2]
      exact (List.prefix_append_right_inj _).mpr hissued

/-- **A submission is that of the synchronous client, or it is cut short.** -/
theorem asyncSubmitBatch_cutShort (h : c.policy.WaitsAs policy)
    (hsleep : sleep .sync interval = .ok ()) (s : AsyncSubmissionScript)
    (batch : PreparedBatch) (x : BatchExecution) :
    ((c.asyncSubmitBatch s batch x).toSubmission =
          (c.withWaits policy interval).submitBatch s.uncut batch x ∧
        (c.asyncSubmitBatch s batch x).cancelled = false) ∨
      (c.asyncSubmitBatch s batch x).CutOf
          ((c.withWaits policy interval).submitBatch s.uncut batch x) ∧ ¬ s.Undisturbed := by
  have hsend := send_async h (InsertClient.batchRequest s.requestId.str batch) s.post
  obtain ⟨hbatch, hposts⟩ := submitBatch_posts (c.withWaits policy interval) s.uncut batch x
  rw [InsertClient.asyncSubmitBatch, hsend]
  dsimp only
  cases hcut : s.cutOff with
  | some n =>
    refine .inr ⟨⟨hbatch.symm, rfl, _, [], (List.append_nil _).symm, ?_, ?_⟩, fun hs => ?_⟩
    · rw [Submission.exchanges, Submission.exchanges, hposts, List.flatMap_nil, List.append_nil]
      exact (List.take_prefix _ _).trans (List.prefix_append _ _)
    · exact fun y hy => absurd hy List.not_mem_nil
    · rw [hs.post] at hcut
      cases hcut
  | none =>
    rw [InsertClient.submitBatch]
    have hnamed : ∀ response, (send policy .sync
        (InsertClient.batchRequest s.requestId.str batch) s.post).2 = .ok response → _ :=
      fun response => send_handle rfl
    generalize hsent : send policy .sync (InsertClient.batchRequest s.requestId.str batch) s.post =
      sent at hnamed
    have hsent' : send (c.withWaits policy interval).policy .sync
        (InsertClient.batchRequest s.uncut.requestId.str batch) s.uncut.post = sent := hsent
    rw [hsent']
    dsimp only
    cases hreply : sent.2 with
    | error e => exact .inl ⟨rfl, rfl⟩
    | ok response =>
      have hnamed := hnamed response hreply
      dsimp only
      by_cases hrunning : response.isRunning = true
      · rw [if_pos hrunning, if_pos hrunning]
        have hhandle : (x.received response.statementHandle response.submissionAttempts
          response.isRunning).failed.statementHandle = response.statementHandle := rfl
        generalize x.received response.statementHandle response.submissionAttempts
          response.isRunning = y at hhandle
        generalize response.statementHandle = handle at hhandle hnamed
        cases handle with
        | null => exact .inl ⟨rfl, rfl⟩
        | _ =>
          have hnamed := (hnamed.resolve_left Json.noConfusion).2
          have hpoll := fun handle => @asyncPoll_cutShort (c.pollCall handle s.pollStarted) policy
            interval h hsleep s.cancelCall s.cleanup s.rounds
          refine (asyncPolled_cutShort (hpoll _) (poll_ne_cancelled _ _ _) batch hhandle hnamed
            rfl).imp id ?_
          rintro ⟨hcutOf, hmem⟩
          refine ⟨hcutOf, fun hs => ?_⟩
          exact taskCancelled_notMem_asyncPoll _ s.cleanup hs.cancel hs.rounds hmem
      · rw [if_neg hrunning, if_neg hrunning]
        exact .inl ⟨rfl, rfl⟩

end Submissions

/-! ### The runs -/

section Runs

variable (cfg : PlannerConfig) (src : Source) (c : InsertClient)

/-- How a run of the asynchronous import from position `s` on compares with the synchronous one: it is
the same, or some batches are confirmed and the submission of the next one is cut short. -/
inductive AsyncInsertRun.CutShort (scripts : List AsyncSubmissionScript) (p : Planner) (s : Nat)
    (full : InsertRun) : AsyncInsertRun → Prop
  | whole : CutShort scripts p s full ⟨full.submissions, full.planner, .left full.outcome⟩
  | cut {done : List (Submission × List EncodedRow)} {q p' : Planner} {t : Nat} {b : PreparedBatch}
      {rows : List EncodedRow} {script : SubmissionScript} {submission : Submission}
      {outcome : AsyncInsertEnd} : Imported cfg src c p s done q t →
      q.SameProgress p' → b.TakenAt cfg src t rows →
      submission.CutOf (c.submitBatch script b (.start p' b script.requestId.str)) →
      outcome = .cancelled ∨ outcome = .left .pending →
      (∃ rest, full.submissions =
        done.map Prod.fst ++ c.submitBatch script b (.start p' b script.requestId.str) :: rest) →
      (∃ s ∈ scripts, ¬ s.Undisturbed) →
      CutShort scripts p s full ⟨done.map Prod.fst ++ [submission], p', outcome⟩

variable {cfg src c} {table : PyStr} {columns : List PyStr}

/-- A confirmed submission before the rest of both runs. -/
theorem AsyncInsertRun.CutShort.cons {script : AsyncSubmissionScript}
    {scripts : List AsyncSubmissionScript} {p p' : Planner} {s : Nat} {b : PreparedBatch}
    {rows : List EncodedRow} {affected : Int} {full : InsertRun} {run : AsyncInsertRun}
    (htaken : b.TakenAt cfg src s rows) (hsame : p.SameProgress p')
    (hnotify : script.uncut.notifyError = none)
    (houtcome : (c.submitBatch script.uncut b (.start p' b script.requestId.str)).outcome =
      some (.ok affected))
    (h : AsyncInsertRun.CutShort cfg src c scripts (p'.confirm b affected) (s + rows.length) full
      run) :
    AsyncInsertRun.CutShort cfg src c (script :: scripts) p s
      { full with submissions :=
          c.submitBatch script.uncut b (.start p' b script.requestId.str) :: full.submissions }
      { run with submissions :=
          c.submitBatch script.uncut b (.start p' b script.requestId.str) :: run.submissions } := by
  cases h with
  | whole => exact .whole
  | cut himported hsame' htaken' hcut hend hfull hdisturbed =>
    obtain ⟨rest, hfull⟩ := hfull
    obtain ⟨s, hs, hdisturbed⟩ := hdisturbed
    have hcons := Imported.cons htaken hsame hnotify rfl houtcome himported
    refine .cut hcons hsame' htaken' hcut hend ⟨rest, ?_⟩
      ⟨s, List.mem_cons_of_mem _ hs, hdisturbed⟩
    rw [hfull]
    rfl

/-- **A task cancellation only cuts an import short.** The induction is on the scripts. -/
theorem asyncInsertLoop_cutShort {policy : RetryPolicy} {interval : ℚ}
    (hcfg : cfg.MadeFor table columns) (hwaits : c.policy.WaitsAs policy)
    (hsleep : sleep .sync interval = .ok ()) (scripts : List AsyncSubmissionScript) {p : Planner}
    {s : Nat} (h : p.At cfg src s) :
    AsyncInsertRun.CutShort cfg src (c.withWaits policy interval) scripts p s
      (insertLoop cfg src (c.withWaits policy interval) (scripts.map AsyncSubmissionScript.uncut) p)
      (asyncInsertLoop cfg src c scripts p) := by
  induction scripts generalizing p s with
  | nil =>
    rw [List.map_nil, insertLoop, asyncInsertLoop]
    rcases p.nextBatch cfg src with ⟨_ | _ | batch, q⟩
    · exact .whole
    · exact .whole
    · exact .whole
  | cons script scripts ih =>
    have hspec := nextBatch_spec hcfg.width_ne hcfg.placeholder hcfg.maxRows_pos h
    rw [List.map_cons, insertLoop, asyncInsertLoop]
    generalize p.nextBatch cfg src = called at hspec
    cases hspec with
    | ended _ _ _ => exact .whole
    | faulted _ _ _ _ _ _ => exact .whole
    | @batch p' b rows hne hrows hcarries hfits hclose hat hsame =>
      have htaken : b.TakenAt cfg src s rows := ⟨hne, hrows, hcarries, hfits, hclose⟩
      dsimp only
      have hhook : script.uncut.notifyError = script.notifyError := rfl
      rw [hhook]
      cases hnotify : script.notifyError with
      | some e => exact .whole
      | none =>
        dsimp only
        have hid : script.uncut.requestId = script.requestId := rfl
        rw [hid]
        rcases asyncSubmitBatch_cutShort hwaits hsleep script b
            (.start p' b script.requestId.str) with ⟨hwhole, hcancelled⟩ | ⟨hcut, hdisturbed⟩
        · rw [hcancelled, hwhole]
          cases houtcome : ((c.withWaits policy interval).submitBatch script.uncut b
              (.start p' b script.requestId.str)).outcome with
          | none => exact .whole
          | some result =>
            cases result with
            | error e => exact .whole
            | ok affected =>
              exact .cons htaken hsame (hhook.trans hnotify) houtcome (ih (hat.confirm b affected))
        · have hfound : ∃ s ∈ script :: scripts, ¬ s.Undisturbed :=
            ⟨script, List.mem_cons_self, hdisturbed⟩
          rw [hcut.outcome]
          have hend : (if (c.asyncSubmitBatch script b (.start p' b script.requestId.str)).cancelled
              then AsyncInsertEnd.cancelled else .left .pending) = .cancelled ∨ _ = _ :=
            ite_eq_or_eq _ _ _
          cases ((c.withWaits policy interval).submitBatch script.uncut b
              (.start p' b script.requestId.str)).outcome with
          | none => exact .cut .nil hsame htaken hcut hend ⟨_, rfl⟩ hfound
          | some result =>
            cases result with
            | error e => exact .cut .nil hsame htaken hcut hend ⟨_, rfl⟩ hfound
            | ok affected => exact .cut .nil hsame htaken hcut hend ⟨_, rfl⟩ hfound

theorem asyncInsertBatches_eq_ok {ctx : ClientContext} {maxRows maxBytes : Int}
    {scripts : List AsyncSubmissionScript} {run : AsyncInsertRun} :
    asyncInsertBatches c ctx table columns src maxRows maxBytes scripts = .ok run ↔
      ∃ cfg, PlannerConfig.make table columns maxRows maxBytes ctx = .ok cfg ∧
        asyncInsertLoop cfg src c scripts {} = run := by
  rw [asyncInsertBatches, bind_eq_ok]
  refine ⟨fun ⟨cfg, hmake, h⟩ => ⟨cfg, hmake, Except.ok.inj h⟩, fun ⟨cfg, hmake, h⟩ => ⟨cfg, hmake, ?_⟩⟩
  rw [h]
  rfl

end Runs

/-- **The two imports agree.** Where no sleep raises, an asynchronous import issues the requests of the
synchronous one and ends like it, unless its task is cancelled; then it has confirmed the first
batches of the other, and of the next one it has issued the first requests and none but those
to cancel it. -/
theorem asyncInsert_parity {table : PyStr} {columns : List PyStr} {ctx : ClientContext} {src : Source}
    {maxRows maxBytes : Int} {c : InsertClient} {scripts : List AsyncSubmissionScript}
    {run : AsyncInsertRun} (hsleep : c.CanSleep)
    (hrun : asyncInsertBatches c ctx table columns src maxRows maxBytes scripts = .ok run) :
    ∃ full, insertBatches c ctx table columns src maxRows maxBytes
        (scripts.map AsyncSubmissionScript.uncut) = .ok full ∧
      (run = ⟨full.submissions, full.planner, .left full.outcome⟩ ∨
        ∃ done submission submission' rest, run.submissions = done ++ [submission] ∧
          full.submissions = done ++ submission' :: rest ∧ submission.CutOf submission' ∧
          run.planner.completed.map BatchSummary.rowsAffected = done.map Submission.affected ∧
          (∀ x ∈ done, ∃ affected, x.outcome = some (.ok affected)) ∧
          (run.outcome = .cancelled ∨ run.outcome = .left .pending) ∧
          ∃ s ∈ scripts, ¬ s.Undisturbed) := by
  obtain ⟨cfg, hmake, rfl⟩ := asyncInsertBatches_eq_ok.mp hrun
  have hcfg := madeFor_of_make hmake
  refine ⟨_, insertBatches_eq_ok.mpr ⟨cfg, hmake, rfl⟩, ?_⟩
  have hcut := asyncInsertLoop_cutShort hcfg (RetryPolicy.waitsAs_of_canWait hsleep.waits)
    hsleep.sleeps scripts (Planner.at_initial cfg src)
  generalize asyncInsertLoop cfg src c scripts {} = run at hcut
  cases hcut with
  | whole => exact .inl rfl
  | cut himported hsame htaken hcut hend hfull hdisturbed =>
    obtain ⟨rest, hfull⟩ := hfull
    refine .inr ⟨_, _, _, rest, rfl, hfull, hcut, ?_, fun x hx => ?_, hend, hdisturbed⟩
    · rw [hsame.2, himported.progress.2]
      exact summaries_rowsAffected 0 0 _
    · obtain ⟨y, hy, rfl⟩ := List.mem_map.mp hx
      obtain ⟨_, _, _, _, affected, _, _, houtcome⟩ := himported.submitted y hy
      exact ⟨affected, houtcome⟩

/-! ### A cancelled import -/

/-- The requests of a run, in order. -/
def AsyncInsertRun.history (run : AsyncInsertRun) : List Exchange :=
  run.submissions.flatMap Submission.exchanges

/-- A submission that is cut short posts what the other does. -/
theorem Submission.CutOf.postsOne {c : InsertClient} {script : SubmissionScript}
    {batch : PreparedBatch} {start : FailedBatch} {s full : Submission} (h : s.CutOf full)
    (hissues : full.Issues c script batch start) :
    PostsOne Exchange.posted s.exchanges ∧ ∀ x ∈ s.exchanges, x.request.target = .statements →
      x.request.body = .content s.batch.content := by
  obtain ⟨issued, later, hrequests, hissued, hlater⟩ := h.requests
  rw [hrequests]
  refine ⟨hissues.postsOne.take_append hissued fun x hx => ?_, fun x hx htarget => ?_⟩
  · rw [Exchange.posted, (hlater x hx).1]
  · rcases List.mem_append.mp hx with hx | hx
    · rw [h.batch_eq]
      exact hissues.content x (hissued.subset hx) htarget
    · rw [(hlater x hx).1] at htarget
      cases htarget

/-- **What a cancelled import has committed**: the rows of the confirmed batches, once and in order;
of the batch in flight nothing, or its rows once; and nothing else. -/
theorem asyncInsert_cancelled {table : PyStr} {columns : List PyStr} {ctx : ClientContext}
    {src : Source} {maxRows maxBytes : Int} {c : InsertClient}
    {scripts : List AsyncSubmissionScript} {run : AsyncInsertRun} {log : Log}
    (hrun : asyncInsertBatches c ctx table columns src maxRows maxBytes scripts = .ok run)
    (hcancelled : run.outcome = .cancelled) (hserver : Honest run.history log) :
    ∃ requests rest parts part, committed run.history log = requests ++ rest ∧
      InsertsFirst table columns ctx src run.planner.confirmedRows requests parts ∧
      part ≠ [] ∧ src.Lists run.planner.confirmedRows part ∧
      (rest = [] ∨ ∃ request, rest = [request] ∧ request.Inserts table columns ctx part) := by
  obtain ⟨cfg, hmake, rfl⟩ := asyncInsertBatches_eq_ok.mp hrun
  have hcfg := madeFor_of_make hmake
  obtain rfl := ctx_of_make hmake
  -- The import is compared with that of a client that never waits: it makes the same calls.
  have hcut := asyncInsertLoop_cutShort hcfg (RetryPolicy.waitsAs_calm c.policy)
    RetryPolicy.sleep_zero scripts (Planner.at_initial cfg src)
  generalize asyncInsertLoop cfg src c scripts {} = run at hcut hcancelled hserver
  cases hcut with
  | whole => cases hcancelled
  | @cut done q p t b rows script s outcome himported hsame htaken hcut hend _ _ =>
    have hissues := (submitBatch_sound (c.withWaits c.policy.calm 0) script b p).1
    obtain ⟨hone, hcontent⟩ := hcut.postsOne hissues
    have hhistory : AsyncInsertRun.history ⟨done.map Prod.fst ++ [s], p, outcome⟩ =
        (done.map Prod.fst).flatMap Submission.exchanges ++ (s.exchanges ++ []) := by
      rw [AsyncInsertRun.history, List.flatMap_append, List.flatMap_singleton, List.append_nil]
    have hp : p.confirmedRows = t := by
      rw [hsame.1, himported.progress.1, himported.rowsAt.2]
    have hagrees : s.batch.Agrees table columns cfg.ctx (rows.map Prod.fst) := by
      rw [hcut.batch_eq, hissues.batch_eq]
      exact htaken.agrees hcfg
    generalize AsyncInsertRun.history _ = history at hhistory hserver
    have hfirst := insertsFirst_imported hcfg himported hhistory hserver
    have hsettled := (upTo_imported himported hhistory hserver).2
    have hsplit := committed_eq log hhistory
    have hlog := hserver.atMostOnce
    have hlen : history.length =
        ((done.map Prod.fst).flatMap Submission.exchanges).length + s.exchanges.length := by
      rw [hhistory]
      simp
    rw [hlen] at hlog
    subst hhistory
    refine ⟨_, _, (done.map Prod.snd).map (List.map Prod.fst), rows.map Prod.fst, hsplit, ?_, ?_, ?_,
      ?_⟩
    · rw [hp]
      exact hfirst
    · exact fun h => htaken.rows_ne (List.map_eq_nil_iff.mp h)
    · rw [hp]
      exact htaken.rowsAt.lists
    · rw [List.length_append, List.length_nil, Nat.add_zero]
      rcases rest_of_last hlog hsettled hone with hrest | ⟨a, hrest, _, _, x, hx, hat, hposted⟩
      · left
        rw [hrest, List.filterMap_nil]
      · obtain ⟨request, hrequest, hinserts⟩ := inserts_of_posted hagrees hcontent hx hat hposted
        refine .inr ⟨request, ?_, hinserts⟩
        rw [hrest, List.filterMap_cons_some hrequest, List.filterMap_nil]

/-! ### A task that is cancelled at its second batch

The first batch is inserted; the reply to the POST of the second is awaited when the task is
cancelled, and the POST is lost. -/

def cancelledScripts : List AsyncSubmissionScript :=
  [{ requestId := sampleUuid, post := insertedScript.post, cancelCall := { reply := lostScript }
     cleanup := ⟨0, lostScript, 0, []⟩ },
    { requestId := sampleUuid, post := lostScript, cutOff := some 1
      cancelCall := { reply := lostScript }, cleanup := ⟨0, lostScript, 0, []⟩ }]

def cancelledRun : AsyncInsertRun :=
  asyncInsertLoop pairConfig pairSource importClient cancelledScripts {}

theorem cancelledRun_eq : asyncInsertBatches importClient pairContext hostileTable hostileColumns
    pairSource 3 273 cancelledScripts = .ok cancelledRun :=
  asyncInsertBatches_eq_ok.mpr ⟨pairConfig, make_pairConfig, rfl⟩

theorem importClient_canSleep : importClient.CanSleep where
  waits := by
    refine RetryPolicy.canWait_of_bounds (by norm_num [importClient, defaultRetryPolicy])
      (by norm_num [importClient, defaultRetryPolicy])
      (by norm_num [importClient, defaultRetryPolicy])
      (by norm_num [importClient, defaultRetryPolicy, longestSleep])
      (by norm_num [importClient, defaultRetryPolicy, longestSleep]) ?_ .sync
    intro attempt hattempt
    have hle : attempt ≤ 1 := by
      have hthree : (attempt : Int) + 1 < 3 := hattempt
      omega
    have hpow : (2 : ℚ) ^ attempt ≤ 2 ^ 1 := pow_le_pow_right₀ one_le_two hle
    exact hpow.trans_lt (by decide +kernel)
  sleeps := RetryPolicy.sleep_of_bounds .sync (by norm_num [importClient])
    (by norm_num [importClient, longestSleep])

theorem seen_cancelledRun : cancelledRun.history.map seen =
    [(some (some sampleUuid.str, false), some 200), (some (some sampleUuid.str, false), none)] := by
  decide +kernel

theorem answered_cancelledRun {a : Nat} {x : Exchange} {status : Nat}
    (hx : cancelledRun.history[a]? = some x) (h : x.Answered status) :
    x.posted.isSome ∧ a = 0 ∧ status = 200 := by
  obtain ⟨s, hs, hstatus, hposted⟩ := answered_of_seen seen_cancelledRun hx h
  clear hx h
  match a with
  | 0 =>
    cases hs
    cases hstatus
    exact ⟨hposted rfl, rfl, rfl⟩
  | 1 =>
    cases hs
    cases hstatus
  | a + 2 => cases hs

/-- The first POST is committed, and no other. -/
theorem honest_cancelledRun : Honest cancelledRun.history lossyLog := by
  have hlen : cancelledRun.history.length = 2 := by
    have hseen := congrArg List.length seen_cancelledRun
    rwa [List.length_map] at hseen
  have hentries : lossyLog.entries cancelledRun.history.length = [0] := by
    rw [hlen]
    rfl
  refine honest_of_confirmed ⟨?_, ?_, ?_⟩ fun a x status hx h => ?_
  · intro t _ a ha
    match t with
    | 0 =>
      obtain rfl := List.mem_singleton.mp ha
      exact ⟨le_rfl, by rw [posts_of_seen seen_cancelledRun]; rfl⟩
    | t + 1 => cases ha
  · exact fun a ha => absurd ha List.not_mem_nil
  · rw [hentries]
    exact List.pairwise_singleton _ _
  · obtain ⟨hposted, rfl, rfl⟩ := answered_cancelledRun hx h
    exact ⟨hposted, rfl, List.mem_singleton_self 0⟩

/-- The `CancelledError` left the import after so many confirmed rows. -/
def cancelledAfter (run : AsyncInsertRun) : Option Nat :=
  match run.outcome with
  | .cancelled => some run.planner.confirmedRows
  | .left _ => none

theorem outcome_of_cancelledAfter {run : AsyncInsertRun} {count : Nat}
    (h : cancelledAfter run = some count) :
    run.outcome = .cancelled ∧ run.planner.confirmedRows = count := by
  rw [cancelledAfter] at h
  cases houtcome : run.outcome with
  | cancelled =>
    rw [houtcome] at h
    exact ⟨rfl, Option.some_inj.mp h⟩
  | left outcome =>
    rw [houtcome] at h
    cases h

theorem outcome_cancelledRun :
    cancelledRun.outcome = .cancelled ∧ cancelledRun.planner.confirmedRows = 1 :=
  outcome_of_cancelledAfter (by decide +kernel)

theorem asyncInsert_parity_cancelledRun : ∃ full done submission submission' rest,
    insertBatches importClient pairContext hostileTable hostileColumns pairSource 3 273
      (cancelledScripts.map AsyncSubmissionScript.uncut) = .ok full ∧
    cancelledRun.submissions = done ++ [submission] ∧
    full.submissions = done ++ submission' :: rest ∧ submission.CutOf submission' := by
  obtain ⟨full, hfull, hrun | ⟨done, submission, submission', rest, hdone, hrest, hcut, _⟩⟩ :=
    asyncInsert_parity importClient_canSleep cancelledRun_eq
  · have houtcome := outcome_cancelledRun.1
    rw [hrun] at houtcome
    cases houtcome
  · exact ⟨full, done, submission, submission', rest, hfull, hdone, hrest, hcut⟩

theorem asyncInsert_cancelled_cancelledRun : ∃ requests rest parts part,
    committed cancelledRun.history lossyLog = requests ++ rest ∧
    InsertsFirst hostileTable hostileColumns pairContext pairSource 1 requests parts ∧
    part ≠ [] ∧ pairSource.Lists 1 part ∧ (rest = [] ∨
      ∃ request, rest = [request] ∧ request.Inserts hostileTable hostileColumns pairContext part) := by
  obtain ⟨houtcome, hconfirmed⟩ := outcome_cancelledRun
  have hcancelled := asyncInsert_cancelled cancelledRun_eq houtcome honest_cancelledRun
  rw [hconfirmed] at hcancelled
  exact hcancelled

end SnowflakeSqlApi
