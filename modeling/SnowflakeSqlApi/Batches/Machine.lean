import Mathlib.Logic.Relation
import SnowflakeSqlApi.Batches.Insert

/-!
# An import, step by step

`insertLoop` says how a run of `insert_batches` ends.  `InsertState.step` is the same program
with every state on the way: after each record the planner takes, after each record it judges,
before the hook, while the request is sent, while the statement is polled, and before the count
of the reply is confirmed.  A state also has the calls that were made on the source, in
order.

`insertLoop_leads` is the connection: the steps lead from the start to a state that shows
what `insertLoop` gives.
-/

namespace SnowflakeSqlApi

open Relation

/-! ### The states -/

/-- A call on the source; `next k` is the call of `next` after `k` others. -/
inductive SourceCall
  | iter
  | next (k : Nat)
  deriving DecidableEq

/-- The calls that `_record` makes. -/
def Planner.recordCalls (src : Source) (p : Planner) : List SourceCall :=
  if p.exhausted then []
  else if p.iterated then [.next p.nextCalls]
  else
    match src.iter with
    | some _ => [.iter]
    | none => [.iter, .next p.nextCalls]

/-- The calls that `takeRecord` makes. -/
def Planner.takeCalls (src : Source) (p : Planner) : List SourceCall :=
  match p.pending with
  | some _ => []
  | none => p.recordCalls src

/-- Where an import is. -/
inductive InsertStage
  /-- At the head of the loop of `next_batch`, which may take so many more rows. -/
  | filling (left : Nat) (buf : Buffer)
  /-- Before the `try` block of `next_batch`, with a record in hand. -/
  | considering (left : Nat) (buf : Buffer) (encoded : EncodedRow)
  /-- After the loop of `next_batch`. -/
  | filled (buf : Buffer)
  /-- Before `_notify`. -/
  | prepared (batch : PreparedBatch)
  /-- Before `_transport.submit`. -/
  | submitting (batch : PreparedBatch) (script : SubmissionScript) (x : BatchExecution)
  /-- In `_poll`. -/
  | polling (batch : PreparedBatch) (script : SubmissionScript) (x : BatchExecution) (handle : Json)
  /-- Before `_rows_affected`, with the contents of the last response. -/
  | answered (batch : PreparedBatch) (x : BatchExecution) (contents : Dict)
  | returned (batches : List BatchSummary)
  | raised (e : Raised)

/-- The batch in flight: from its return by `next_batch` to its confirmation. -/
def InsertStage.batch : InsertStage → Option PreparedBatch
  | prepared batch | submitting batch _ _ | polling batch _ _ _ | answered batch _ _ => some batch
  | filling _ _ | considering _ _ _ | filled _ | returned _ | raised _ => none

/-- A state of an import. `scripts` are those of the batches to come. -/
structure InsertState where
  planner : Planner
  stage : InsertStage
  calls : List SourceCall
  scripts : List SubmissionScript

namespace InsertState

variable (cfg : PlannerConfig) (src : Source) (c : InsertClient)

def start (scripts : List SubmissionScript) : InsertState where
  planner := {}
  stage := .filling cfg.maxRows {}
  calls := []
  scripts := scripts

/-- `raise execution.error(exc) from exc`. -/
def fail (s : InsertState) (x : BatchExecution) (cause : Exc) : InsertState :=
  { s with stage := .raised (.stopped (x.error s.planner cause)) }

/-- One round of the loop of `next_batch`, up to its record. -/
def takeStep (s : InsertState) (left : Nat) (buf : Buffer) : InsertState :=
  match s.planner.takeRecord cfg src with
  | (.error e, p) =>
    { s with
      planner := p, calls := s.calls ++ s.planner.takeCalls src, stage := .raised (.stopped e) }
  | (.ok none, p) =>
    { s with planner := p, calls := s.calls ++ s.planner.takeCalls src, stage := .filled buf }
  | (.ok (some encoded), p) =>
    { s with
      planner := p, calls := s.calls ++ s.planner.takeCalls src
      stage := .considering left buf encoded }

/-- The rest of the round. -/
def considerStep (s : InsertState) (left : Nat) (buf : Buffer) (encoded : EncodedRow) :
    InsertState :=
  match s.planner.consider cfg encoded buf with
  | .error e => { s with stage := .raised (.stopped (s.planner.error e .validation)) }
  | .ok (none, p) => { s with planner := p, stage := .filled buf }
  | .ok (some buf, p) => { s with planner := p, stage := .filling left buf }

/-- The end of `next_batch`. -/
def flushStep (s : InsertState) (buf : Buffer) : InsertState :=
  match s.planner.flush cfg buf with
  | .error e => { s with stage := .raised e }
  | .ok none => { s with stage := .returned s.planner.completed }
  | .ok (some batch) => { s with stage := .prepared batch }

/-- `_notify` and `_BatchExecution`. Without a script the import stays where it is. -/
def notifyStep (s : InsertState) (batch : PreparedBatch) : InsertState :=
  match s.scripts with
  | [] => s
  | script :: scripts =>
    match script.notifyError with
    | some e =>
      { s with scripts, stage := .raised (.stopped (s.planner.error e .validation)) }
    | none =>
      { s with
        scripts
        stage := .submitting batch script (.start s.planner batch script.requestId.str) }

/-- `_transport.submit` and `execution.received`. -/
def submitStep (s : InsertState) (batch : PreparedBatch) (script : SubmissionScript)
    (x : BatchExecution) : InsertState :=
  match (send c.policy .sync (InsertClient.batchRequest script.requestId.str batch)
    script.post).2 with
  | .error e => s.fail x e
  | .ok response =>
    let x := x.received response.statementHandle response.submissionAttempts response.isRunning
    if response.isRunning then
      match response.statementHandle with
      | .null => s.fail x { cls := .request, message := [lit "running statement has no handle"] }
      | handle => { s with stage := .polling batch script x handle }
    else { s with stage := .answered batch x response.body }

/-- `_poll`, which leaves the planner as it is for as long as it waits. -/
def pollStep (s : InsertState) (batch : PreparedBatch) (script : SubmissionScript)
    (x : BatchExecution) (handle : Json) : InsertState :=
  match (poll (c.pollCall handle script.pollStarted) script.cancelReply script.rounds).outcome with
  | .returned response =>
    { s with stage := .answered batch { x with succeeded := true } response.body }
  | .raised e => s.fail x e
  | .cancelled | .waiting => s

/-- `_rows_affected` and `planner.confirm`. -/
def confirmStep (s : InsertState) (batch : PreparedBatch) (x : BatchExecution) (contents : Dict) :
    InsertState :=
  match rowsAffected true contents with
  | .error e => s.fail x e
  | .ok affected =>
    { s with planner := s.planner.confirm batch affected, stage := .filling cfg.maxRows {} }

/-- **One step of `insert_batches`.** An import that has ended stays as it is. -/
def step (s : InsertState) : InsertState :=
  match s.stage with
  | .filling 0 buf => { s with stage := .filled buf }
  | .filling (left + 1) buf => s.takeStep cfg src left buf
  | .considering left buf encoded => s.considerStep cfg left buf encoded
  | .filled buf => s.flushStep cfg buf
  | .prepared batch => s.notifyStep batch
  | .submitting batch script x => s.submitStep c batch script x
  | .polling batch script x handle => s.pollStep c batch script x handle
  | .answered batch x contents => s.confirmStep cfg batch x contents
  | .returned _ | .raised _ => s

/-- Some steps lead from the one state to the other. -/
def Leads : InsertState → InsertState → Prop := ReflTransGen fun s t => s.step cfg src c = t

/-- What a run of `insertLoop` gives, as a state. -/
def Shows (s : InsertState) (run : InsertRun) : Prop :=
  s.planner = run.planner ∧
    match run.outcome with
    | .returned batches => s.stage = .returned batches
    | .raised e => s.stage = .raised e
    | .pending => ∃ batch, s.stage.batch = some batch

end InsertState

/-! ### The runs of `insertLoop` -/

section Runs

variable {cfg : PlannerConfig} {src : Source} {c : InsertClient}

namespace InsertState.Leads

theorem refl (s : InsertState) : Leads cfg src c s s := ReflTransGen.refl

theorem trans {s t u : InsertState} (h : Leads cfg src c s t) (h' : Leads cfg src c t u) :
    Leads cfg src c s u := ReflTransGen.trans h h'

/-- A step and then the others. -/
theorem head {s t : InsertState} (h : Leads cfg src c (s.step cfg src c) t) :
    Leads cfg src c s t := ReflTransGen.head rfl h

end InsertState.Leads

open InsertState

variable (cfg src c)

/-- The stage after the loop of `next_batch`. -/
def fillStage : Except BatchWriteError Buffer → InsertStage
  | .ok buf => .filled buf
  | .error e => .raised (.stopped e)

/-- The steps of the loop of `next_batch`. -/
theorem fill_leads (left : Nat) (buf : Buffer) (p : Planner) (calls : List SourceCall)
    (scripts : List SubmissionScript) : ∃ calls', Leads cfg src c
      ⟨p, .filling left buf, calls, scripts⟩
      ⟨(p.fill cfg src left buf).2, fillStage (p.fill cfg src left buf).1, calls', scripts⟩ := by
  induction left generalizing buf p calls with
  | zero => exact ⟨calls, .head (.refl _)⟩
  | succ left ih =>
    rw [Planner.fill]
    have hfirst : ∀ {t : InsertState}, Leads cfg src c
        (takeStep cfg src ⟨p, .filling (left + 1) buf, calls, scripts⟩ left buf) t →
        Leads cfg src c ⟨p, .filling (left + 1) buf, calls, scripts⟩ t := fun h => .head h
    rcases htake : p.takeRecord cfg src with ⟨_ | _ | encoded, q⟩
    · refine ⟨calls ++ p.takeCalls src, hfirst ?_⟩
      rw [takeStep, htake]
      exact .refl _
    · refine ⟨calls ++ p.takeCalls src, hfirst ?_⟩
      rw [takeStep, htake]
      exact .refl _
    · have hsecond : ∀ {t : InsertState}, Leads cfg src c
          (considerStep cfg ⟨q, .considering left buf encoded, calls ++ p.takeCalls src, scripts⟩
            left buf encoded) t →
          Leads cfg src c ⟨p, .filling (left + 1) buf, calls, scripts⟩ t := by
        intro t h
        refine hfirst ?_
        rw [takeStep, htake]
        exact .head h
      dsimp only
      rcases hconsider : q.consider cfg encoded buf with _ | ⟨_ | buf', q'⟩
      · refine ⟨calls ++ p.takeCalls src, hsecond ?_⟩
        rw [considerStep, hconsider]
        exact .refl _
      · refine ⟨calls ++ p.takeCalls src, hsecond ?_⟩
        rw [considerStep, hconsider]
        exact .refl _
      · obtain ⟨calls', hrest⟩ := ih buf' q' (calls ++ p.takeCalls src)
        refine ⟨calls', hsecond ?_⟩
        rw [considerStep, hconsider]
        exact hrest

/-- The stage after `next_batch`. -/
def nextStage (completed : List BatchSummary) : Except Raised (Option PreparedBatch) → InsertStage
  | .error e => .raised e
  | .ok none => .returned completed
  | .ok (some batch) => .prepared batch

/-- The steps of `next_batch`. -/
theorem nextBatch_leads (p : Planner) (calls : List SourceCall) (scripts : List SubmissionScript) :
    ∃ calls', Leads cfg src c ⟨p, .filling cfg.maxRows {}, calls, scripts⟩
      ⟨(p.nextBatch cfg src).2, nextStage (p.nextBatch cfg src).2.completed
        (p.nextBatch cfg src).1, calls', scripts⟩ := by
  obtain ⟨calls', hfill⟩ := fill_leads cfg src c cfg.maxRows {} p calls scripts
  refine ⟨calls', hfill.trans ?_⟩
  rw [Planner.nextBatch]
  rcases p.fill cfg src cfg.maxRows {} with ⟨_ | buf, q⟩
  · exact .refl _
  · refine .head ?_
    show Leads cfg src c (flushStep cfg ⟨q, .filled buf, calls', scripts⟩ buf) _
    dsimp only [flushStep]
    rcases q.flush cfg buf with _ | _ | batch
    · exact .refl _
    · exact .refl _
    · exact .refl _

/-- The state after a submission of `batch`: it is confirmed, or it has failed, or it is still in
flight. -/
def InsertState.Follows (s : InsertState) (p : Planner)
    (calls : List SourceCall) (scripts : List SubmissionScript) (batch : PreparedBatch)
    (submission : Submission) : Prop :=
  match submission.outcome with
  | none => s.planner = p ∧ s.stage.batch = some batch
  | some (.error e) =>
    s.planner = p ∧ s.stage = .raised (.stopped (submission.execution.error p e))
  | some (.ok affected) => s = ⟨p.confirm batch affected, .filling cfg.maxRows {}, calls, scripts⟩

section Submissions

variable (p : Planner) (calls : List SourceCall) (scripts : List SubmissionScript)
  (batch : PreparedBatch) (x : BatchExecution)

/-- The step of a count. -/
theorem answered_leads (contents : Dict) (posts : List Exchange) (polls : List PollAction) : ∃ s,
    Leads cfg src c ⟨p, .answered batch x contents, calls, scripts⟩ s ∧
      s.Follows cfg p calls scripts batch
        ⟨batch, posts, polls, x, some (rowsAffected true contents)⟩ := by
  refine ⟨_, .head (.refl _), ?_⟩
  show (confirmStep cfg ⟨p, .answered batch x contents, calls, scripts⟩ batch x contents).Follows
    cfg p calls scripts batch _
  dsimp only [confirmStep, Follows]
  cases rowsAffected true contents with
  | error e => exact ⟨rfl, rfl⟩
  | ok affected => rfl

/-- The steps of a poll. -/
theorem polling_leads (script : SubmissionScript) (handle : Json) (posts : List Exchange)
    (run : PollRun) (hrun : poll (c.pollCall handle script.pollStarted) script.cancelReply
      script.rounds = run) : ∃ s,
    Leads cfg src c ⟨p, .polling batch script x handle, calls, scripts⟩ s ∧
      s.Follows cfg p calls scripts batch
        (match run.outcome with
        | .returned response =>
          ⟨batch, posts, run.actions, { x with succeeded := true },
            some (rowsAffected true response.body)⟩
        | .raised e => ⟨batch, posts, run.actions, x, some (.error e)⟩
        | .cancelled | .waiting => ⟨batch, posts, run.actions, x, none⟩) := by
  have hpolled : ∀ {t : InsertState}, Leads cfg src c
      (pollStep c ⟨p, .polling batch script x handle, calls, scripts⟩ batch script x handle) t →
      Leads cfg src c ⟨p, .polling batch script x handle, calls, scripts⟩ t := fun h => .head h
  rw [pollStep, hrun] at hpolled
  cases hend : run.outcome with
  | returned response =>
    rw [hend] at hpolled
    obtain ⟨s, hleads, hfollows⟩ := answered_leads cfg src c p calls scripts batch
      { x with succeeded := true } response.body posts run.actions
    exact ⟨s, hpolled hleads, hfollows⟩
  | raised e =>
    rw [hend] at hpolled
    exact ⟨_, hpolled (.refl _), rfl, rfl⟩
  | cancelled => exact ⟨_, .refl _, rfl, rfl⟩
  | waiting => exact ⟨_, .refl _, rfl, rfl⟩

/-- The steps of a submission. -/
theorem submitBatch_leads (script : SubmissionScript) : ∃ s,
    Leads cfg src c ⟨p, .submitting batch script x, calls, scripts⟩ s ∧
      s.Follows cfg p calls scripts batch (c.submitBatch script batch x) := by
  have hsent : ∀ {t : InsertState}, Leads cfg src c
      (submitStep c ⟨p, .submitting batch script x, calls, scripts⟩ batch script x) t →
      Leads cfg src c ⟨p, .submitting batch script x, calls, scripts⟩ t := fun h => .head h
  rw [submitStep] at hsent
  rw [InsertClient.submitBatch]
  dsimp only at hsent ⊢
  generalize send c.policy .sync (InsertClient.batchRequest script.requestId.str batch)
    script.post = sent at hsent ⊢
  cases hresult : sent.2 with
  | error e =>
    rw [hresult] at hsent
    exact ⟨_, hsent (.refl _), rfl, rfl⟩
  | ok response =>
    rw [hresult] at hsent
    dsimp only at hsent ⊢
    cases hrunning : response.isRunning with
    | false =>
      rw [hrunning, if_neg Bool.false_ne_true] at hsent
      rw [if_neg Bool.false_ne_true]
      obtain ⟨s, hleads, hfollows⟩ := answered_leads cfg src c p calls scripts batch _ response.body
        sent.1 []
      exact ⟨s, hsent hleads, hfollows⟩
    | true =>
      rw [hrunning, if_pos rfl] at hsent
      rw [if_pos rfl]
      generalize response.statementHandle = handle at hsent ⊢
      cases handle with
      | null => exact ⟨_, hsent (.refl _), rfl, rfl⟩
      | _ =>
        obtain ⟨s, hleads, hfollows⟩ := polling_leads cfg src c p calls scripts batch _ script _
          sent.1 _ rfl
        exact ⟨s, hsent hleads, hfollows⟩

end Submissions

/-- **The steps lead to what `insertLoop` gives.** -/
theorem insertLoop_leads (scripts : List SubmissionScript) (p : Planner)
    (calls : List SourceCall) : ∃ s,
    Leads cfg src c ⟨p, .filling cfg.maxRows {}, calls, scripts⟩ s ∧
      s.Shows (insertLoop cfg src c scripts p) := by
  induction scripts generalizing p calls with
  | nil =>
    obtain ⟨calls', hnext⟩ := nextBatch_leads cfg src c p calls []
    rw [insertLoop]
    generalize p.nextBatch cfg src = called at hnext ⊢
    rcases called with ⟨_ | _ | batch, q⟩
    · exact ⟨_, hnext, rfl, rfl⟩
    · exact ⟨_, hnext, rfl, rfl⟩
    · exact ⟨_, hnext, rfl, batch, rfl⟩
  | cons script scripts ih =>
    obtain ⟨calls', hnext⟩ := nextBatch_leads cfg src c p calls
      (script :: scripts)
    rw [insertLoop]
    generalize p.nextBatch cfg src = called at hnext ⊢
    rcases called with ⟨_ | _ | batch, q⟩
    · exact ⟨_, hnext, rfl, rfl⟩
    · exact ⟨_, hnext, rfl, rfl⟩
    · have hnotified : ∀ {t : InsertState}, Leads cfg src c
          (notifyStep ⟨q, .prepared batch, calls', script :: scripts⟩ batch) t →
          Leads cfg src c ⟨p, .filling cfg.maxRows {}, calls, script :: scripts⟩ t :=
        fun h => hnext.trans (.head h)
      rw [notifyStep] at hnotified
      dsimp only at hnotified ⊢
      cases hhook : script.notifyError with
      | some e =>
        rw [hhook] at hnotified
        exact ⟨_, hnotified (.refl _), rfl, rfl⟩
      | none =>
        rw [hhook] at hnotified
        obtain ⟨s, hleads, hfollows⟩ := submitBatch_leads cfg src c q calls' scripts batch
          (.start q batch script.requestId.str) script
        have hsubmitted := hnotified hleads
        rw [Follows] at hfollows
        dsimp only
        generalize c.submitBatch script batch (.start q batch script.requestId.str) = submission
          at hfollows
        cases houtcome : submission.outcome with
        | none =>
          rw [houtcome] at hfollows
          exact ⟨s, hsubmitted, hfollows.1, batch, hfollows.2⟩
        | some result =>
          rw [houtcome] at hfollows
          cases result with
          | error e => exact ⟨s, hsubmitted, hfollows⟩
          | ok affected =>
            obtain rfl : s = _ := hfollows
            obtain ⟨t, hrest, hshows⟩ := ih (q.confirm batch affected) calls'
            exact ⟨t, hsubmitted.trans hrest, hshows⟩

end Runs

end SnowflakeSqlApi
