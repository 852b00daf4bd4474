import SnowflakeSqlApi.Batches.Evidence
import SnowflakeSqlApi.Batches.Split

/-!
# The runs of an import

A run of `insert_batches` confirms some batches (`Imported`) and then ends in one way
(`Ending`): at the end of the source, at a fault of it, at an exception of the hook, or with a
submission that is not confirmed.  `insertLoop_spec` is this for every run; the claims
about imports are read off it.
-/

namespace SnowflakeSqlApi

open GreedySplit

/-- A batch that a planner took at position `s`, and its rows. -/
structure PreparedBatch.TakenAt (cfg : PlannerConfig) (src : Source) (s : Nat) (b : PreparedBatch)
    (rows : List EncodedRow) : Prop where
  rows_ne : rows ≠ []
  rowsAt : RowsAt cfg src s rows
  carries : b.Carries cfg rows
  fits : cfg.Fits rows
  closes : rows.length = cfg.maxRows ∨ Closes cfg src s rows

theorem PreparedBatch.TakenAt.agrees {cfg : PlannerConfig} {src : Source} {s : Nat}
    {b : PreparedBatch} {rows : List EncodedRow} {table : PyStr} {columns : List PyStr}
    (h : b.TakenAt cfg src s rows) (hcfg : cfg.MadeFor table columns) :
    b.Agrees table columns cfg.ctx (rows.map Prod.fst) :=
  h.carries.agrees hcfg h.rows_ne h.rowsAt.valid

section Import

variable (cfg : PlannerConfig) (src : Source) (c : InsertClient)

/-- **Confirmed submissions**, with the rows of each, from a planner before position `s` to one before
position `t`. -/
inductive Imported : Planner → Nat → List (Submission × List EncodedRow) → Planner → Nat → Prop
  | nil {p : Planner} {s : Nat} : Imported p s [] p s
  | cons {p p' q : Planner} {s t : Nat} {b : PreparedBatch} {rows : List EncodedRow}
      {script : SubmissionScript} {submission : Submission} {affected : Int}
      {rest : List (Submission × List EncodedRow)} :
      b.TakenAt cfg src s rows → p.SameProgress p' → script.notifyError = none →
      submission = c.submitBatch script b (.start p' b script.requestId.str) →
      submission.outcome = some (.ok affected) →
      Imported (p'.confirm b affected) (s + rows.length) rest q t →
      Imported p s ((submission, rows) :: rest) q t

/-- **The end of a run** by a planner before position `s`. -/
inductive Ending (p : Planner) (s : Nat) (scripts : List SubmissionScript) : InsertRun → Prop
  | returned {p' : Planner} : cfg.examine src s = .stop → p.SameProgress p' →
      Ending p s scripts ⟨[], p', .returned p'.completed⟩
  | faulted {p' : Planner} {rows : List EncodedRow} {phase : BatchPhase} {cause : Exc} :
      RowsAt cfg src s rows → rows.length < cfg.maxRows → (rows ≠ [] → cfg.Fits rows) →
      cfg.examine src (s + rows.length) = .fault phase cause →
      p'.Halted src (s + rows.length) phase → p.SameProgress p' →
      Ending p s scripts ⟨[], p', .raised (.stopped (p'.error cause phase))⟩
  | hookRaised {p' : Planner} {b : PreparedBatch} {rows : List EncodedRow}
      {script : SubmissionScript} {e : Exc} : b.TakenAt cfg src s rows → p.SameProgress p' →
      script ∈ scripts → script.notifyError = some e →
      Ending p s scripts ⟨[], p', .raised (.stopped (p'.error e .validation))⟩
  | failed {p' : Planner} {b : PreparedBatch} {rows : List EncodedRow} {script : SubmissionScript}
      {submission : Submission} {e : Exc} : b.TakenAt cfg src s rows → p.SameProgress p' →
      submission = c.submitBatch script b (.start p' b script.requestId.str) →
      submission.outcome = some (.error e) →
      Ending p s scripts
        ⟨[submission], p', .raised (.stopped (submission.execution.error p' e))⟩
  | outOfScripts {p' : Planner} {b : PreparedBatch} {rows : List EncodedRow} :
      b.TakenAt cfg src s rows → p.SameProgress p' → scripts = [] →
      Ending p s scripts ⟨[], p', .pending⟩
  | polling {p' : Planner} {b : PreparedBatch} {rows : List EncodedRow}
      {script : SubmissionScript} {submission : Submission} : b.TakenAt cfg src s rows →
      p.SameProgress p' →
      submission = c.submitBatch script b (.start p' b script.requestId.str) →
      submission.outcome = none → Ending p s scripts ⟨[submission], p', .pending⟩

end Import

/-- A run after the given submissions. -/
def InsertRun.after (run : InsertRun) (submissions : List Submission) : InsertRun :=
  { run with submissions := submissions ++ run.submissions }

section Runs

variable {cfg : PlannerConfig} {src : Source} {c : InsertClient} {table : PyStr}
  {columns : List PyStr}

/-- **Every run** confirms some submissions and then ends. -/
theorem insertLoop_spec (hcfg : cfg.MadeFor table columns) (scripts : List SubmissionScript)
    {p : Planner} {s : Nat} (h : p.At cfg src s) : ∃ done q t last,
      insertLoop cfg src c scripts p = InsertRun.after last (done.map Prod.fst) ∧
      Imported cfg src c p s done q t ∧ Ending cfg src c q t (scripts.drop done.length) last := by
  induction scripts generalizing p s with
  | nil =>
    have hspec := nextBatch_spec hcfg.width_ne hcfg.placeholder hcfg.maxRows_pos h
    rw [insertLoop]
    generalize p.nextBatch cfg src = called at hspec
    cases hspec with
    | ended hstop _ hsame => exact ⟨[], p, s, _, rfl, .nil, .returned hstop hsame⟩
    | faulted hrows hlt hfits hfault hhalted hsame =>
      exact ⟨[], p, s, _, rfl, .nil, .faulted hrows hlt hfits hfault hhalted hsame⟩
    | batch hne hrows hcarries hfits hclose _ hsame =>
      exact ⟨[], p, s, _, rfl, .nil,
        .outOfScripts ⟨hne, hrows, hcarries, hfits, hclose⟩ hsame rfl⟩
  | cons script scripts ih =>
    have hspec := nextBatch_spec hcfg.width_ne hcfg.placeholder hcfg.maxRows_pos h
    rw [insertLoop]
    generalize p.nextBatch cfg src = called at hspec
    cases hspec with
    | ended hstop _ hsame => exact ⟨[], p, s, _, rfl, .nil, .returned hstop hsame⟩
    | faulted hrows hlt hfits hfault hhalted hsame =>
      exact ⟨[], p, s, _, rfl, .nil, .faulted hrows hlt hfits hfault hhalted hsame⟩
    | @batch p' b rows hne hrows hcarries hfits hclose hat hsame =>
      have htaken : b.TakenAt cfg src s rows := ⟨hne, hrows, hcarries, hfits, hclose⟩
      dsimp only
      cases hhook : script.notifyError with
      | some e =>
        exact ⟨[], p, s, _, rfl, .nil, .hookRaised htaken hsame List.mem_cons_self hhook⟩
      | none =>
        dsimp only
        generalize hsubmission : c.submitBatch script b (.start p' b script.requestId.str) = submission
        cases houtcome : submission.outcome with
        | none =>
          exact ⟨[], p, s, _, rfl, .nil, .polling htaken hsame hsubmission.symm houtcome⟩
        | some result =>
          cases result with
          | error e =>
            exact ⟨[], p, s, _, rfl, .nil, .failed htaken hsame hsubmission.symm houtcome⟩
          | ok affected =>
            obtain ⟨done, q, t, last, hrun, hdone, hlast⟩ := ih (hat.confirm b affected)
            refine ⟨(submission, rows) :: done, q, t, last, ?_,
              .cons htaken hsame hhook hsubmission.symm houtcome hdone, hlast⟩
            dsimp only
            rw [hrun]
            rfl

/-! ### What has been confirmed -/

/-- The count a submission is confirmed with. -/
def Submission.affected (s : Submission) : Int :=
  match s.outcome with
  | some (.ok affected) => affected
  | _ => 0

/-- The summaries of submissions and their rows from number `index` and row `start` on. -/
def summaries {α : Type} (index start : Nat) : List (Submission × List α) → List BatchSummary
  | [] => []
  | (submission, rows) :: rest =>
    ⟨index, start, rows.length, submission.affected⟩ ::
      summaries (index + 1) (start + rows.length) rest

theorem summaries_map {α β : Type} (f : α → β) (index start : Nat)
    (done : List (Submission × List α)) :
    summaries index start (done.map fun x => (x.1, x.2.map f)) = summaries index start done := by
  induction done generalizing index start with
  | nil => rfl
  | cons x rest ih => rw [List.map_cons, summaries, ih, List.length_map]; rfl

theorem summaries_rowsAffected {α : Type} (index start : Nat) (done : List (Submission × List α)) :
    (summaries index start done).map BatchSummary.rowsAffected =
      (done.map Prod.fst).map Submission.affected := by
  induction done generalizing index start with
  | nil => rfl
  | cons x rest ih => rw [summaries, List.map_cons, List.map_cons, List.map_cons, ih]

theorem RowsAt.append {s : Nat} {xs ys : List EncodedRow} (hxs : RowsAt cfg src s xs)
    (hys : RowsAt cfg src (s + xs.length) ys) : RowsAt cfg src s (xs ++ ys) := by
  intro i hi
  by_cases hlt : i < xs.length
  · rw [List.getElem_append_left hlt]
    exact hxs i hlt
  · rw [List.length_append] at hi
    have hrow := hys (i - xs.length) (by omega)
    rw [Nat.add_assoc, Nat.add_sub_cancel' (Nat.not_lt.mp hlt)] at hrow
    rw [List.getElem_append_right (Nat.not_lt.mp hlt)]
    exact hrow

namespace Imported

variable {p q : Planner} {s t : Nat} {done : List (Submission × List EncodedRow)}

/-- Each confirmed submission is one of a batch taken from the source. -/
theorem submitted (h : Imported cfg src c p s done q t) : ∀ x ∈ done, ∃ s p b script affected,
    PreparedBatch.TakenAt cfg src s b x.2 ∧
    x.1 = c.submitBatch script b (.start p b script.requestId.str) ∧
    x.1.outcome = some (.ok affected) := by
  induction h with
  | nil => exact fun x hx => absurd hx List.not_mem_nil
  | cons htaken _ _ hsubmission houtcome _ ih =>
    intro x hx
    rcases List.mem_cons.mp hx with rfl | hx
    · exact ⟨_, _, _, _, _, htaken, hsubmission, houtcome⟩
    · exact ih x hx

/-- **Each confirmed submission posts the plain batch of its rows**, and nothing else. -/
theorem agrees (hcfg : cfg.MadeFor table columns) (h : Imported cfg src c p s done q t) :
    List.Forall₂ (fun submission part => submission.batch.Agrees table columns cfg.ctx part ∧
        ∀ x ∈ submission.exchanges, x.request.target = .statements →
          x.request.body = .content submission.batch.content)
      (done.map Prod.fst) ((done.map Prod.snd).map (List.map Prod.fst)) := by
  rw [List.map_map, List.forall₂_map_left_iff, List.forall₂_map_right_iff, List.forall₂_same]
  intro x hx
  obtain ⟨s, p, b, script, _, htaken, hsubmission, _⟩ := h.submitted x hx
  have hissues := (submitBatch_sound c script b p).1
  rw [← hsubmission] at hissues
  refine ⟨?_, hissues.content⟩
  rw [hissues.batch_eq]
  exact htaken.agrees hcfg

/-- The rows of the confirmed submissions are the next ones of the source. -/
theorem rowsAt (h : Imported cfg src c p s done q t) :
    RowsAt cfg src s (done.map Prod.snd).flatten ∧
      t = s + (done.map Prod.snd).flatten.length := by
  induction h with
  | nil => exact ⟨.nil, rfl⟩
  | cons htaken _ _ _ _ _ ih =>
    obtain ⟨hrows, rfl⟩ := ih
    rw [List.map_cons, List.flatten_cons, List.length_append]
    exact ⟨htaken.rowsAt.append hrows, Nat.add_assoc _ _ _⟩

/-- **The progress of a planner is that of its confirmed submissions.** -/
theorem progress (h : Imported cfg src c p s done q t) :
    q.confirmedRows = p.confirmedRows + (done.map Prod.snd).flatten.length ∧
      q.completed = p.completed ++ summaries p.completed.length p.confirmedRows done := by
  induction h with
  | nil => exact ⟨rfl, (List.append_nil _).symm⟩
  | @cons p p' q s t b rows script submission affected rest htaken hsame _ _ houtcome _ ih =>
    obtain ⟨hconfirmed, hcompleted⟩ := ih
    have haffected : submission.affected = affected := by rw [Submission.affected, houtcome]
    rw [hconfirmed, hcompleted, List.map_cons, List.flatten_cons, List.length_append, summaries,
      haffected]
    simp only [Planner.confirm, hsame.1, hsame.2, htaken.carries.rowCount, List.length_append,
      List.length_singleton, Nat.add_assoc, List.append_assoc, List.singleton_append, and_self]

/-- Nothing is confirmed without rows. -/
theorem length_le (h : Imported cfg src c p s done q t) : s + done.length ≤ t := by
  induction h with
  | nil => exact le_rfl
  | cons htaken _ _ _ _ _ ih =>
    have hpos := List.length_pos_iff.mpr htaken.rows_ne
    rw [List.length_cons]
    omega

/-- The confirmed batches are closed parts of the rows before the first position that is no row. -/
theorem closed {all : List EncodedRow} (hall : RowsAt cfg src 0 all)
    (hend : ∀ row, cfg.examine src all.length ≠ .row row) (h : Imported cfg src c p s done q t)
    (hs : s ≤ all.length) :
    t ≤ all.length ∧ Closed cfg.Fits (all.drop s) (done.map Prod.snd) (all.drop t) := by
  induction h with
  | nil => exact ⟨hs, .refl _⟩
  | cons htaken _ _ _ _ _ ih =>
    obtain ⟨hle, heq⟩ := htaken.rowsAt.eq_take hall hend hs
    obtain ⟨ht, hclosed⟩ := ih hle
    have hlongest := isLongest_of_batch hall hend hs htaken.rows_ne htaken.rowsAt htaken.fits
      htaken.closes
    rw [← List.drop_drop] at hclosed
    have hcons := Closed.cons hlongest hclosed
    rw [← heq] at hcons
    exact ⟨ht, hcons⟩

/-- Where the last confirmed batch ends, there is no fault unless it is full. -/
theorem last_full {phase : BatchPhase} {cause : Exc} (h : Imported cfg src c p s done q t)
    (hfault : cfg.examine src t = .fault phase cause) :
    ∀ part ∈ (done.map Prod.snd).getLast?, part.length = cfg.maxRows := by
  induction h with
  | nil => exact fun part hpart => by cases hpart
  | @cons p p' q s t b rows script submission affected rest htaken _ _ _ _ hrest ih =>
    cases hrest with
    | nil =>
      intro part hpart
      rw [List.map_singleton, List.getLast?_singleton, Option.mem_some_iff] at hpart
      subst hpart
      rcases htaken.closes with hfull | hstop | ⟨row, hrow, _⟩
      · exact hfull
      · rw [hfault] at hstop
        cases hstop
      · rw [hfault] at hrow
        cases hrow
    | cons _ _ _ _ _ _ =>
      rw [List.map_cons, List.map_cons, List.getLast?_cons_cons]
      exact ih hfault

end Imported

/-- **What the submissions of a run say of its end**: one that fails is the last, and its exception is
the cause of the one that is raised; and a run that returns has counted them all. -/
structure InsertRun.EndsBySubmissions (run : InsertRun) : Prop where
  failed : ∀ x ∈ run.submissions, ∀ e, x.outcome = some (.error e) → ∃ before error,
    run.submissions = before ++ [x] ∧ run.outcome = .raised (.stopped error) ∧ error.cause = e
  returned : ∀ batches, run.outcome = .returned batches →
    (∀ x ∈ run.submissions, ∃ affected, x.outcome = some (.ok affected)) ∧
      batches.map BatchSummary.rowsAffected = run.submissions.map Submission.affected

theorem insertLoop_endsBySubmissions (hcfg : cfg.MadeFor table columns)
    (scripts : List SubmissionScript) : (insertLoop cfg src c scripts {}).EndsBySubmissions := by
  obtain ⟨done, q, t, last, hrun, himported, hlast⟩ :=
    insertLoop_spec (c := c) hcfg scripts (Planner.at_initial cfg src)
  have hcounted : ∀ x ∈ done.map Prod.fst, ∃ affected, x.outcome = some (.ok affected) := by
    intro x hx
    obtain ⟨y, hy, rfl⟩ := List.mem_map.mp hx
    obtain ⟨_, _, _, _, affected, _, _, houtcome⟩ := himported.submitted y hy
    exact ⟨affected, houtcome⟩
  rw [hrun, InsertRun.after]
  constructor
  · intro x hx e he
    rcases List.mem_append.mp hx with hx | hx
    · obtain ⟨affected, houtcome⟩ := hcounted x hx
      rw [houtcome] at he
      cases he
    · cases hlast with
      | returned _ _ | faulted _ _ _ _ _ _ | hookRaised _ _ _ _ | outOfScripts _ _ _ => cases hx
      | failed _ _ _ houtcome =>
        obtain rfl := List.mem_singleton.mp hx
        rw [houtcome] at he
        cases he
        exact ⟨_, _, rfl, rfl, rfl⟩
      | polling _ _ _ houtcome =>
        obtain rfl := List.mem_singleton.mp hx
        rw [houtcome] at he
        cases he
  · intro batches hbatches
    cases hlast with
    | returned _ hsame =>
      cases hbatches
      rw [List.append_nil]
      refine ⟨hcounted, ?_⟩
      rw [hsame.2, himported.progress.2]
      exact summaries_rowsAffected 0 0 _
    | faulted _ _ _ _ _ _ | hookRaised _ _ _ _ | failed _ _ _ _ => cases hbatches
    | outOfScripts _ _ _ | polling _ _ _ _ => cases hbatches

end Runs

theorem insertBatches_eq_ok {c : InsertClient} {ctx : ClientContext} {table : PyStr}
    {columns : List PyStr} {src : Source} {maxRows maxBytes : Int} {scripts : List SubmissionScript}
    {run : InsertRun} :
    insertBatches c ctx table columns src maxRows maxBytes scripts = .ok run ↔
      ∃ cfg, PlannerConfig.make table columns maxRows maxBytes ctx = .ok cfg ∧
        insertLoop cfg src c scripts {} = run := by
  rw [insertBatches, bind_eq_ok]
  refine ⟨fun ⟨cfg, hmake, h⟩ => ⟨cfg, hmake, Except.ok.inj h⟩, fun ⟨cfg, hmake, h⟩ => ⟨cfg, hmake, ?_⟩⟩
  rw [h]
  rfl

/-! ### A client and its replies, for the examples -/

def importClient : InsertClient where
  policy := { defaultRetryPolicy with jitter := false }
  pollInterval := 1
  statementTimeout := some 30

/-- Every request is answered with these contents. -/
def answering (statusCode : Nat) (contents : Dict) : Script := fun _ =>
  ⟨idleDraw, .answered { statusCode, json := some (.obj contents) }⟩

/-- A submission whose statement inserts one row. -/
def insertedScript : SubmissionScript where
  requestId := sampleUuid
  post := answering 200 [(py "stats", .obj [(py "numRowsInserted", .int 1)])]
  cancelReply := lostScript

end SnowflakeSqlApi
