import SnowflakeSqlApi.Batches.Import
import SnowflakeSqlApi.Batches.Machine

/-!
# The progress of an import

Five attributes of the planner are kept by four methods: the rows it has consumed and confirmed,
the pending record, the end of the source, and the summaries.  `InsertState.Accounts` says how
they agree with each other, with the batch in flight, with the calls made on the source, and with
the `BatchWriteError` that ends an import; `insert_accounts` is this for every state of every
run.

The invariant places the planner: the rows in its buffer, or in the batch in flight, are
those of the source from `confirmedRows` on (`Planner.InStage`).
-/

namespace SnowflakeSqlApi

open InsertState

/-! ### What is kept -/

/-- The summaries are numbered from 0, each starts where the one before it ends, and the confirmed
rows are theirs. -/
structure Planner.Numbered (p : Planner) : Prop where
  index : ∀ i, (h : i < p.completed.length) → p.completed[i].index = i
  startRowIndex : ∀ i, (h : i < p.completed.length) →
    p.completed[i].startRowIndex = ((p.completed.take i).map BatchSummary.rowCount).sum
  confirmedRows : p.confirmedRows = (p.completed.map BatchSummary.rowCount).sum

/-- The number of lookahead records. -/
def Planner.lookahead (p : Planner) : Nat := if p.pending.isSome then 1 else 0

/-- A `BatchWriteError` with the values of the planner. -/
structure BatchWriteError.Reports (e : BatchWriteError) (p : Planner) : Prop where
  completed : e.completed = p.completed
  nextRowIndex : e.nextRowIndex = p.confirmedRows
  consumedRows : e.consumedRows = p.consumedRows
  failedBatch : ∀ failed, e.failedBatch = some failed →
    failed.index = e.completed.length ∧ failed.startRowIndex = e.nextRowIndex ∧
      e.consumedRows = e.nextRowIndex + failed.rowCount + p.lookahead

/-- **The calls on a source of which `consumed` records have been consumed**: these records and no
others have been pulled, each of them once. -/
structure PulledOnce (src : Source) (consumed : Nat) (calls : List SourceCall) : Prop where
  iter : calls.count .iter ≤ 1
  next : ∀ k, calls.count (.next k) ≤ 1
  consumed : ∀ k, k < consumed ↔ .next k ∈ calls ∧ ∃ r, src.next k = .row r
  stopped : ∀ k, .next k ∈ calls → src.next k = .stop → calls.getLast? = some (.next k)

/-- **What holds in a state of an import.** -/
structure InsertState.Accounts (cfg : PlannerConfig) (src : Source) (c : InsertClient)
    (s : InsertState) : Prop where
  numbered : s.planner.Numbered
  inFlight : ∀ batch, s.stage.batch = some batch →
    s.planner.consumedRows = s.planner.confirmedRows + batch.rowCount + s.planner.lookahead
  /-- The batch has the records after the confirmed ones. -/
  records : ∀ batch, s.stage.batch = some batch →
    ∃ rows, RowsAt cfg src s.planner.confirmedRows rows ∧ batch.Carries cfg rows
  /-- The batch is short of rows, and with the lookahead record it would be too large. -/
  lookahead : ∀ batch row, s.stage.batch = some batch → s.planner.pending = some row →
    batch.rowCount < cfg.maxRows ∧ ∃ rows whole, batch.Carries cfg rows ∧
      PreparedBatch.Carries cfg whole (rows ++ [row]) ∧ cfg.maxBytes < whole.content.length
  pulled : PulledOnce src s.planner.consumedRows s.calls
  /-- The calls are those that the planner has counted. -/
  counted : s.calls.count .iter = s.planner.iterCalls ∧
    ∀ k, .next k ∈ s.calls ↔ k < s.planner.nextCalls
  untouched : ∀ batch, s.stage.batch = some batch → (s.step cfg src c).calls = s.calls
  returned : ∀ batches, s.stage = .returned batches → batches = s.planner.completed ∧
    s.planner.consumedRows = s.planner.confirmedRows ∧ src.next s.planner.consumedRows = .stop
  raised : ∀ e, s.stage = .raised (.stopped e) → e.Reports s.planner

section Progress

variable {cfg : PlannerConfig} {src : Source} {c : InsertClient} {p : Planner}

namespace Planner.Numbered

theorem initial : ({} : Planner).Numbered where
  index i h := absurd h (Nat.not_lt_zero i)
  startRowIndex i h := absurd h (Nat.not_lt_zero i)
  confirmedRows := rfl

theorem of_sameProgress {p' : Planner} (h : p.Numbered) (hsame : p.SameProgress p') :
    p'.Numbered := by
  obtain ⟨hconfirmed, hcompleted⟩ := hsame
  refine ⟨?_, ?_, ?_⟩
  · rw [hcompleted]
    exact h.index
  · rw [hcompleted]
    exact h.startRowIndex
  · rw [hcompleted, hconfirmed]
    exact h.confirmedRows

/-- One more summary has the next number and starts at the confirmed rows. -/
theorem confirm (h : p.Numbered) (batch : PreparedBatch) (affected : Int) :
    (p.confirm batch affected).Numbered := by
  have hlast : ∀ i, i < (p.confirm batch affected).completed.length →
      ¬ i < p.completed.length → i = p.completed.length := by
    intro i hi hge
    rw [Planner.confirm, List.length_append, List.length_singleton] at hi
    omega
  refine ⟨fun i hi => ?_, fun i hi => ?_, ?_⟩
  · by_cases hlt : i < p.completed.length
    · simp only [Planner.confirm, List.getElem_append_left hlt]
      exact h.index i hlt
    · obtain rfl := hlast i hi hlt
      simp [Planner.confirm]
  · by_cases hlt : i < p.completed.length
    · simp only [Planner.confirm, List.getElem_append_left hlt,
        List.take_append_of_le_length hlt.le]
      exact h.startRowIndex i hlt
    · obtain rfl := hlast i hi hlt
      simp [Planner.confirm, h.confirmedRows]
  · simp [Planner.confirm, h.confirmedRows]

end Planner.Numbered

/-! ### The calls on the source -/

/-- The counters of a planner are those of the calls, and the consumed records are what the calls
of `next` gave, but for the last. -/
structure Planner.Called (src : Source) (p : Planner) (calls : List SourceCall) : Prop where
  calls_eq : calls = List.replicate p.iterCalls .iter ++ (List.range p.nextCalls).map .next
  iterCalls : p.iterCalls ≤ 1
  rows : ∀ k < p.consumedRows, ∃ r, src.next k = .row r
  last : p.nextCalls = p.consumedRows ∨
    p.nextCalls = p.consumedRows + 1 ∧ ∀ r, src.next p.consumedRows ≠ .row r

namespace Planner.Called

variable {calls : List SourceCall}

theorem initial : ({} : Planner).Called src [] where
  calls_eq := rfl
  iterCalls := Nat.zero_le 1
  rows k h := absurd h (Nat.not_lt_zero k)
  last := .inl rfl

theorem of_counts {p' : Planner} (h : p.Called src calls) (hiter : p'.iterCalls = p.iterCalls)
    (hnext : p'.nextCalls = p.nextCalls) (hconsumed : p'.consumedRows = p.consumedRows) :
    p'.Called src calls := by
  obtain ⟨hcalls, honce, hrows, hlast⟩ := h
  rw [← hiter] at hcalls honce
  rw [← hnext] at hcalls hlast
  rw [← hconsumed] at hrows hlast
  exact ⟨hcalls, honce, hrows, hlast⟩

/-- `iter` is called first. -/
theorem iter (h : p.Called src calls) (hiter : p.iterCalls = 0) (hnext : p.nextCalls = 0)
    (iterated : Bool) :
    ({ p with iterated, iterCalls := p.iterCalls + 1 } : Planner).Called src (calls ++ [.iter]) where
  calls_eq := by
    rw [h.calls_eq, hiter, hnext]
    rfl
  iterCalls := by rw [hiter]
  rows := h.rows
  last := h.last

theorem pull (h : p.Called src calls) (hconsumed : p.nextCalls = p.consumedRows) :
    (p.pullRecord cfg src).2.Called src (calls ++ [.next p.nextCalls]) := by
  have hcalls : calls ++ [.next p.nextCalls] =
      List.replicate p.iterCalls .iter ++ (List.range (p.nextCalls + 1)).map .next := by
    rw [h.calls_eq, List.range_succ, List.map_append, List.append_assoc]
    rfl
  rw [Planner.pullRecord]
  dsimp only
  cases hnext : src.next p.nextCalls with
  | stop =>
    refine ⟨hcalls, h.iterCalls, h.rows, .inr ⟨congrArg Nat.succ hconsumed, fun r hr => ?_⟩⟩
    rw [hconsumed] at hnext
    rw [hnext] at hr
    cases hr
  | raised e =>
    refine ⟨hcalls, h.iterCalls, h.rows, .inr ⟨congrArg Nat.succ hconsumed, fun r hr => ?_⟩⟩
    rw [hconsumed] at hnext
    rw [hnext] at hr
    cases hr
  | row r =>
    have hrows : ∀ k < p.consumedRows + 1, ∃ r, src.next k = .row r := by
      intro k hk
      rcases Nat.lt_succ_iff_lt_or_eq.mp hk with hlt | rfl
      · exact h.rows k hlt
      · exact ⟨r, by rw [← hconsumed, hnext]⟩
    dsimp only
    cases encodeRecord cfg.width r with
    | ok encoded => exact ⟨hcalls, h.iterCalls, hrows, .inl (congrArg Nat.succ hconsumed)⟩
    | error e => exact ⟨hcalls, h.iterCalls, hrows, .inl (congrArg Nat.succ hconsumed)⟩

/-- **Taking a record** makes the calls of `takeCalls`. -/
theorem take {t : Nat} (h : p.Called src calls) (hat : p.At cfg src t) :
    (p.takeRecord cfg src).2.Called src (calls ++ p.takeCalls src) := by
  rw [Planner.takeRecord, Planner.takeCalls]
  cases hat.place with
  | ahead row hpending =>
    rw [hpending, List.append_nil]
    exact h.of_counts rfl rfl rfl
  | ended hpending hexhausted =>
    rw [hpending]
    dsimp only
    rw [Planner.record, Planner.recordCalls, if_pos hexhausted, if_pos hexhausted, List.append_nil]
    exact h
  | before hpending hexhausted hconsumed hcalls =>
    rw [hpending]
    dsimp only
    rw [Planner.record, Planner.recordCalls, hexhausted, if_neg Bool.false_ne_true,
      if_neg Bool.false_ne_true, Planner.startIteration]
    have heq : p.nextCalls = p.consumedRows := hcalls.trans hconsumed.symm
    by_cases hiterated : p.iterated = true
    · rw [if_pos hiterated, if_pos hiterated]
      exact h.pull heq
    · have hiter : p.iterCalls = 0 := by rw [hat.sound.iterCalls, if_neg hiterated]
      have hzero : p.nextCalls = 0 := by
        by_contra hne
        exact hiterated (hat.sound.started hne)
      rw [if_neg hiterated, if_neg hiterated]
      cases src.iter with
      | some e => exact h.iter hiter hzero p.iterated
      | none =>
        have hpulled := @pull cfg src _ _ (h.iter hiter hzero true) heq
        rw [List.append_assoc] at hpulled
        exact hpulled

end Planner.Called

/-- Judging a record changes the cached context, and the pending record where the record is
kept. -/
theorem consider_eq_ok {p' : Planner} {encoded : EncodedRow} {buf : Buffer} {kept : Option Buffer}
    (h : p.consider cfg encoded buf = .ok (kept, p')) : ∃ context overhead,
    p' = { p with
      context := some context, singleOverhead := overhead
      pending := if kept.isNone then some encoded else p.pending } := by
  rw [Planner.consider] at h
  obtain ⟨⟨context, overhead⟩, _, h⟩ := bind_eq_ok.mp h
  obtain ⟨first, _, h⟩ := bind_eq_ok.mp h
  refine ⟨context, overhead, ?_⟩
  dsimp only at h
  split at h
  · cases h
  · by_cases hzero : buf.rowCount = 0
    · rw [if_pos hzero] at h
      obtain ⟨piece, _, h⟩ := bind_eq_ok.mp h
      split at h
      · cases h
        rfl
      · cases h
        rfl
    · rw [if_neg hzero] at h
      obtain ⟨piece, _, h⟩ := bind_eq_ok.mp h
      rw [if_neg hzero] at h
      split at h
      · cases h
        rfl
      · cases h
        rfl

/-! ### The stages -/

/-- `rows` are the first ones that have not been confirmed, and no further row is taken: the batch
is full, or it is closed by the end of the source or the byte limit. A lookahead record is what the
byte limit keeps out. -/
structure Planner.Stopped (cfg : PlannerConfig) (src : Source) (p : Planner)
    (rows : List EncodedRow) : Prop where
  closes : rows.length = cfg.maxRows ∨ Closes cfg src p.confirmedRows rows
  pending : ∀ row, p.pending = some row → rows.length < cfg.maxRows ∧
    cfg.examine src (p.confirmedRows + rows.length) = .row row ∧
    cfg.maxBytes < cfg.measure (rows ++ [row])

/-- A planner while `batch`, of these rows, is in flight. -/
structure Planner.InFlight (cfg : PlannerConfig) (src : Source) (p : Planner)
    (batch : PreparedBatch) (rows : List EncodedRow) : Prop where
  place : p.At cfg src (p.confirmedRows + rows.length)
  rowsAt : RowsAt cfg src p.confirmedRows rows
  carries : batch.Carries cfg rows
  stopped : p.Stopped cfg src rows

/-- The execution object of the batch in flight. -/
structure BatchExecution.Of (x : BatchExecution) (p : Planner) (batch : PreparedBatch) : Prop where
  index : x.failed.index = p.completed.length
  startRowIndex : x.failed.startRowIndex = p.confirmedRows
  rowCount : x.failed.rowCount = batch.rowCount

/-- **Where the planner stands at each stage.** -/
inductive Planner.InStage (cfg : PlannerConfig) (src : Source) (p : Planner) : InsertStage → Prop
  | filling {left : Nat} {buf : Buffer} {rows : List EncodedRow} :
      p.Filling cfg src p.confirmedRows rows buf → rows.length + left = cfg.maxRows →
      (rows ≠ [] → p.pending = none) → InStage cfg src p (.filling left buf)
  | considering {left : Nat} {buf : Buffer} {row : EncodedRow} {rows : List EncodedRow} :
      p.Taken cfg src (p.confirmedRows + rows.length) row → RowsAt cfg src p.confirmedRows rows →
      buf.Holds cfg rows → rows.length + (left + 1) = cfg.maxRows →
      InStage cfg src p (.considering left buf row)
  | filled {buf : Buffer} {rows : List EncodedRow} :
      p.Filling cfg src p.confirmedRows rows buf → p.Stopped cfg src rows →
      InStage cfg src p (.filled buf)
  | prepared {batch : PreparedBatch} {rows : List EncodedRow} : p.InFlight cfg src batch rows →
      InStage cfg src p (.prepared batch)
  | submitting {batch : PreparedBatch} {rows : List EncodedRow} {script : SubmissionScript}
      {x : BatchExecution} : p.InFlight cfg src batch rows → x.Of p batch →
      InStage cfg src p (.submitting batch script x)
  | polling {batch : PreparedBatch} {rows : List EncodedRow} {script : SubmissionScript}
      {x : BatchExecution} {handle : Json} : p.InFlight cfg src batch rows → x.Of p batch →
      InStage cfg src p (.polling batch script x handle)
  | answered {batch : PreparedBatch} {rows : List EncodedRow} {x : BatchExecution}
      {contents : Dict} : p.InFlight cfg src batch rows → x.Of p batch →
      InStage cfg src p (.answered batch x contents)
  | returned : p.At cfg src p.confirmedRows → cfg.examine src p.confirmedRows = .stop →
      InStage cfg src p (.returned p.completed)
  | raised {e : BatchWriteError} : e.Reports p → InStage cfg src p (.raised (.stopped e))

/-- An error without a failed batch reports the planner. -/
theorem reports_error (p : Planner) (cause : Exc) (phase : BatchPhase) :
    (p.error cause phase).Reports p where
  completed := rfl
  nextRowIndex := rfl
  consumedRows := rfl
  failedBatch failed h := by cases h

/-- **What has been consumed while a batch is in flight**: the confirmed rows, its own, and the
lookahead record. -/
theorem Planner.InFlight.consumedRows {batch : PreparedBatch} {rows : List EncodedRow}
    (h : p.InFlight cfg src batch rows) :
    p.consumedRows = p.confirmedRows + batch.rowCount + p.lookahead := by
  rw [h.carries.rowCount, Planner.lookahead]
  cases h.place.place with
  | before hpending _ hconsumed _ =>
    rw [hpending, hconsumed]
    rfl
  | ended hpending _ hconsumed _ _ =>
    rw [hpending, hconsumed]
    rfl
  | ahead row hpending _ hconsumed _ _ =>
    rw [hpending, hconsumed]
    rfl

/-- The error of a submission reports the planner and the batch. -/
theorem reports_execution_error {batch : PreparedBatch} {rows : List EncodedRow}
    {x : BatchExecution} (h : p.InFlight cfg src batch rows) (hx : x.Of p batch) (cause : Exc) :
    (x.error p cause).Reports p where
  completed := rfl
  nextRowIndex := rfl
  consumedRows := rfl
  failedBatch failed hfailed := by
    obtain rfl : x.failedWith cause = failed := Option.some.inj hfailed
    refine ⟨hx.index, hx.startRowIndex, ?_⟩
    show p.consumedRows = p.confirmedRows + x.failed.rowCount + p.lookahead
    rw [hx.rowCount]
    exact h.consumedRows

/-! ### The steps -/

/-- The invariant of an import. -/
structure InsertState.Invariant (cfg : PlannerConfig) (src : Source) (s : InsertState) : Prop where
  stage : s.planner.InStage cfg src s.stage
  numbered : s.planner.Numbered
  called : s.planner.Called src s.calls

namespace InsertState.Invariant

variable {table : PyStr} {columns : List PyStr} {s : InsertState}

theorem start (scripts : List SubmissionScript) :
    (InsertState.start cfg scripts).Invariant cfg src where
  stage := by
    have hfilling : ({} : Planner).Filling cfg src 0 [] {} :=
      ⟨Planner.at_initial cfg src, .nil, Buffer.holds_empty cfg, fun hne => absurd rfl hne⟩
    exact .filling hfilling (Nat.zero_add _) fun hne => absurd rfl hne
  numbered := .initial
  called := .initial

theorem take (h : s.Invariant cfg src) {left : Nat} {buf : Buffer} {rows : List EncodedRow}
    (hfilling : s.planner.Filling cfg src s.planner.confirmedRows rows buf)
    (hleft : rows.length + (left + 1) = cfg.maxRows) :
    (s.takeStep cfg src left buf).Invariant cfg src := by
  have hcalled := h.called.take hfilling.place
  have htake := takeRecord_spec hfilling.place
  rw [takeStep]
  generalize s.planner.takeRecord cfg src = taken at hcalled htake
  cases htake with
  | @ended p' hat hstop hcontext hsame =>
    have hpending : ∀ row, p'.pending ≠ some row := by
      intro row hrow
      cases hat.place with
      | before hnone => simp [hnone] at hrow
      | ended hnone => simp [hnone] at hrow
      | ahead row _ _ _ _ hexamine => exact ne_row_of_stop hstop row hexamine
    have hnumbered := h.numbered.of_sameProgress hsame
    rw [← hsame.1] at hfilling hat hstop
    have hended : p'.Filling cfg src p'.confirmedRows rows buf :=
      ⟨hat, hfilling.buffered, hfilling.holds, fun hne => by
        rw [hcontext]
        exact hfilling.context hne⟩
    exact ⟨.filled hended ⟨.inr (.inl hstop), fun row hrow => absurd hrow (hpending row)⟩,
      hnumbered, hcalled⟩
  | @taken p' row htaken _ hsame =>
    have hnumbered := h.numbered.of_sameProgress hsame
    rw [← hsame.1] at hfilling htaken
    exact ⟨.considering htaken hfilling.buffered hfilling.holds hleft, hnumbered, hcalled⟩
  | faulted _ _ hsame =>
    exact ⟨.raised (reports_error _ _ _), h.numbered.of_sameProgress hsame, hcalled⟩

theorem consider (hcfg : cfg.MadeFor table columns) (h : s.Invariant cfg src) {left : Nat}
    {buf : Buffer} {row : EncodedRow} {rows : List EncodedRow}
    (htaken : s.planner.Taken cfg src (s.planner.confirmedRows + rows.length) row)
    (hrows : RowsAt cfg src s.planner.confirmedRows rows) (hbuf : buf.Holds cfg rows)
    (hleft : rows.length + (left + 1) = cfg.maxRows) :
    (s.considerStep cfg left buf row).Invariant cfg src := by
  have hconsider := consider_spec hcfg.width_ne htaken hrows.valid hbuf
  rw [considerStep]
  cases hresult : s.planner.consider cfg row buf with
  | error cause => exact ⟨.raised (reports_error _ _ _), h.numbered, h.called⟩
  | ok result =>
    obtain ⟨kept, p'⟩ := result
    obtain ⟨context, overhead, heq⟩ := consider_eq_ok hresult
    have hcalled : p'.Called src s.calls := by
      rw [heq]
      exact h.called.of_counts rfl rfl rfl
    rw [hresult] at hconsider
    cases hconsider with
    | kept hat hrow hcontext hne hover hsame =>
      have hpending : p'.pending = some row := by rw [heq]; rfl
      have hnumbered := h.numbered.of_sameProgress hsame
      rw [← hsame.1] at hat hrow hrows
      refine ⟨.filled ⟨hat, hrows, hbuf, fun _ => hcontext⟩
        ⟨.inr (.inr ⟨row, hrow, hne, hover⟩), fun row' hrow' => ?_⟩, hnumbered, hcalled⟩
      obtain rfl : row = row' := Option.some.inj (hpending.symm.trans hrow')
      exact ⟨by omega, hrow, hover⟩
    | @added _ buf' hat hrow hcontext hholds hsame =>
      have hpending : p'.pending = none := by
        rw [heq]
        exact htaken.pending
      have hnumbered := h.numbered.of_sameProgress hsame
      have hlen : (rows ++ [row]).length = rows.length + 1 := List.length_append
      rw [← hsame.1] at hat hrow hrows
      rw [Nat.add_assoc, ← hlen] at hat
      exact ⟨.filling ⟨hat, hrows.snoc hrow, hholds, fun _ => hcontext⟩ (by omega)
        fun _ => hpending, hnumbered, hcalled⟩

theorem flush (hcfg : cfg.MadeFor table columns) (h : s.Invariant cfg src) {buf : Buffer}
    {rows : List EncodedRow}
    (hfilling : s.planner.Filling cfg src s.planner.confirmedRows rows buf)
    (hstopped : s.planner.Stopped cfg src rows) : (s.flushStep cfg buf).Invariant cfg src := by
  rw [flushStep]
  by_cases hne : rows = []
  · subst hne
    have hzero : buf.rowCount = 0 := hfilling.holds.rowCount
    rw [Planner.flush, if_pos hzero]
    rcases hstopped.closes with hfull | hstop | ⟨_, _, hne, _⟩
    · have hpos := hcfg.maxRows_pos
      rw [← hfull] at hpos
      exact absurd hpos (Nat.lt_irrefl 0)
    · exact ⟨.returned hfilling.place hstop, h.numbered, h.called⟩
    · exact absurd rfl hne
  · obtain ⟨batch, hflush, hcarries, _⟩ :=
      flush_spec hcfg.width_ne hcfg.placeholder hne hfilling
    rw [hflush]
    exact ⟨.prepared ⟨hfilling.place, hfilling.buffered, hcarries, hstopped⟩, h.numbered,
      h.called⟩

section InFlight

variable {batch : PreparedBatch} {rows : List EncodedRow} {script : SubmissionScript}
  {x : BatchExecution}

theorem notify (h : s.Invariant cfg src) (hbatch : s.planner.InFlight cfg src batch rows) :
    (s.notifyStep batch).Invariant cfg src := by
  rw [notifyStep]
  cases s.scripts with
  | nil => exact h
  | cons script scripts =>
    dsimp only
    cases script.notifyError with
    | some e => exact ⟨.raised (reports_error _ _ _), h.numbered, h.called⟩
    | none => exact ⟨.submitting hbatch ⟨rfl, rfl, rfl⟩, h.numbered, h.called⟩

theorem fail (h : s.Invariant cfg src) (hbatch : s.planner.InFlight cfg src batch rows)
    (hx : x.Of s.planner batch) (cause : Exc) : (s.fail x cause).Invariant cfg src :=
  ⟨.raised (reports_execution_error hbatch hx cause), h.numbered, h.called⟩

theorem submit (h : s.Invariant cfg src) (hbatch : s.planner.InFlight cfg src batch rows)
    (hx : x.Of s.planner batch) : (s.submitStep c batch script x).Invariant cfg src := by
  rw [submitStep]
  cases (send c.policy .sync (InsertClient.batchRequest script.requestId.str batch)
    script.post).2 with
  | error e => exact h.fail hbatch hx e
  | ok response =>
    have hreceived : (x.received response.statementHandle response.submissionAttempts
      response.isRunning).Of s.planner batch := ⟨hx.index, hx.startRowIndex, hx.rowCount⟩
    dsimp only
    split
    · split
      · exact h.fail hbatch hreceived _
      · exact ⟨.polling hbatch hreceived, h.numbered, h.called⟩
    · exact ⟨.answered hbatch hreceived, h.numbered, h.called⟩

theorem poll {handle : Json} (h : s.Invariant cfg src)
    (hbatch : s.planner.InFlight cfg src batch rows) (hx : x.Of s.planner batch) :
    (s.pollStep c batch script x handle).Invariant cfg src := by
  rw [pollStep]
  cases (SnowflakeSqlApi.poll (c.pollCall handle script.pollStarted) script.cancelReply
    script.rounds).outcome with
  | returned response =>
    exact ⟨.answered hbatch ⟨hx.index, hx.startRowIndex, hx.rowCount⟩, h.numbered, h.called⟩
  | raised e => exact h.fail hbatch hx e
  | cancelled => exact h
  | waiting => exact h

theorem confirm {contents : Dict} (h : s.Invariant cfg src)
    (hbatch : s.planner.InFlight cfg src batch rows) (hx : x.Of s.planner batch) :
    (s.confirmStep cfg batch x contents).Invariant cfg src := by
  rw [confirmStep]
  cases rowsAffected true contents with
  | error e => exact h.fail hbatch hx e
  | ok affected =>
    have hat := hbatch.place.confirm batch affected
    rw [← hbatch.carries.rowCount] at hat
    have hfilling : (s.planner.confirm batch affected).Filling cfg src
        (s.planner.confirm batch affected).confirmedRows [] {} :=
      ⟨hat, .nil, Buffer.holds_empty cfg, fun hne => absurd rfl hne⟩
    exact ⟨.filling hfilling (Nat.zero_add _) fun hne => absurd rfl hne,
      h.numbered.confirm batch affected, h.called.of_counts rfl rfl rfl⟩

end InFlight

/-- **One step** keeps the invariant. -/
theorem step (hcfg : cfg.MadeFor table columns) (h : s.Invariant cfg src) :
    (s.step cfg src c).Invariant cfg src := by
  have hstage := h.stage
  rw [InsertState.step.eq_def]
  generalize hs : s.stage = stage at hstage
  cases hstage with
  | @filling left buf rows hfilling hleft hpending =>
    cases left with
    | zero =>
      have hne : rows ≠ [] := by
        intro hnil
        have hpos := hcfg.maxRows_pos
        rw [← hleft, hnil] at hpos
        exact absurd hpos (Nat.lt_irrefl 0)
      refine ⟨.filled hfilling ⟨.inl hleft, fun row hrow => ?_⟩, h.numbered, h.called⟩
      rw [hpending hne] at hrow
      cases hrow
    | succ left => exact h.take hfilling hleft
  | considering htaken hrows hbuf hleft => exact h.consider hcfg htaken hrows hbuf hleft
  | filled hfilling hstopped => exact h.flush hcfg hfilling hstopped
  | prepared hbatch => exact h.notify hbatch
  | submitting hbatch hx => exact h.submit hbatch hx
  | polling hbatch hx => exact h.poll hbatch hx
  | answered hbatch hx => exact h.confirm hbatch hx
  | returned _ _ => exact h
  | raised _ => exact h

/-- **Every run** keeps the invariant. -/
theorem leads (hcfg : cfg.MadeFor table columns) {t : InsertState} (h : s.Invariant cfg src)
    (hleads : Leads cfg src c s t) : t.Invariant cfg src := by
  induction hleads with
  | refl => exact h
  | tail _ hstep ih =>
    rw [← hstep]
    exact ih.step hcfg

end InsertState.Invariant

/-! ### What the invariant says -/

section Called

variable {calls : List SourceCall}

theorem Planner.Called.count_iter (h : p.Called src calls) : calls.count .iter = p.iterCalls := by
  have hnext : .iter ∉ (List.range p.nextCalls).map SourceCall.next := by simp
  rw [h.calls_eq, List.count_append, List.count_replicate_self,
    List.count_eq_zero_of_not_mem hnext, Nat.add_zero]

theorem Planner.Called.mem_next (h : p.Called src calls) (k : Nat) :
    .next k ∈ calls ↔ k < p.nextCalls := by
  rw [h.calls_eq]
  simp

/-- Each call of `next` is at its own position, and nothing is called after the end. -/
theorem Planner.Called.pulledOnce (h : p.Called src calls) :
    PulledOnce src p.consumedRows calls := by
  refine ⟨?_, fun k => ?_, fun k => ⟨fun hk => ⟨?_, h.rows k hk⟩, fun ⟨hk, r, hr⟩ => ?_⟩,
    fun k hk hstop => ?_⟩
  · rw [h.count_iter]
    exact h.iterCalls
  · have hiter : .next k ∉ List.replicate p.iterCalls SourceCall.iter := by simp
    have hnodup : ((List.range p.nextCalls).map SourceCall.next).Nodup :=
      List.nodup_range.map fun _ _ heq => SourceCall.next.inj heq
    rw [h.calls_eq, List.count_append, List.count_eq_zero_of_not_mem hiter, Nat.zero_add]
    exact List.nodup_iff_count_le_one.mp hnodup _
  · rw [h.mem_next]
    rcases h.last with heq | ⟨heq, _⟩
    · rwa [heq]
    · rw [heq]
      exact Nat.lt_succ_of_lt hk
  · rw [h.mem_next] at hk
    rcases h.last with heq | ⟨heq, hno⟩
    · rwa [heq] at hk
    · rw [heq] at hk
      rcases Nat.lt_succ_iff_lt_or_eq.mp hk with hlt | rfl
      · exact hlt
      · exact absurd hr (hno r)
  · rw [h.mem_next] at hk
    have hge : ¬ k < p.consumedRows := by
      intro hlt
      obtain ⟨r, hr⟩ := h.rows k hlt
      rw [hstop] at hr
      cases hr
    rcases h.last with heq | ⟨heq, _⟩
    · rw [heq] at hk
      exact absurd hk hge
    · obtain rfl : k = p.consumedRows := by omega
      rw [h.calls_eq, heq, List.range_succ, List.map_append, ← List.append_assoc]
      exact List.getLast?_concat

end Called

/-- A lookahead record is one that the byte limit keeps out of the batch. -/
theorem Planner.InFlight.whole {table : PyStr} {columns : List PyStr} {batch : PreparedBatch}
    {rows : List EncodedRow} {row : EncodedRow} (hcfg : cfg.MadeFor table columns)
    (h : p.InFlight cfg src batch rows) (hpending : p.pending = some row) :
    batch.rowCount < cfg.maxRows ∧ ∃ rows whole, batch.Carries cfg rows ∧
      PreparedBatch.Carries cfg whole (rows ++ [row]) ∧ cfg.maxBytes < whole.content.length := by
  obtain ⟨hlt, hrow, hover⟩ := h.stopped.pending row hpending
  have hsnoc := h.rowsAt.snoc hrow
  obtain ⟨_, r, _, hr⟩ := examine_eq_row.mp hrow
  obtain ⟨_, ⟨c, hctx⟩, _⟩ := examineRecord_eq_ok.mp hr
  obtain ⟨content, _, hcarries⟩ := carries_of_rows hcfg.width_ne hcfg.placeholder hctx
    (List.append_ne_nil_of_right_ne_nil rows (List.cons_ne_nil row [])) hsnoc.valid
  refine ⟨by rwa [h.carries.rowCount], rows, _, h.carries, hcarries, ?_⟩
  rw [hcarries.length]
  exact hover

/-- The stages with a batch in flight. -/
theorem Planner.InStage.inFlight {stage : InsertStage} {batch : PreparedBatch}
    (h : p.InStage cfg src stage) (hbatch : stage.batch = some batch) :
    ∃ rows, p.InFlight cfg src batch rows := by
  cases h with
  | filling _ _ _ => cases hbatch
  | considering _ _ _ _ => cases hbatch
  | filled _ _ => cases hbatch
  | prepared hinFlight =>
    cases hbatch
    exact ⟨_, hinFlight⟩
  | submitting hinFlight _ =>
    cases hbatch
    exact ⟨_, hinFlight⟩
  | polling hinFlight _ =>
    cases hbatch
    exact ⟨_, hinFlight⟩
  | answered hinFlight _ =>
    cases hbatch
    exact ⟨_, hinFlight⟩
  | returned _ _ => cases hbatch
  | raised _ => cases hbatch

/-- **No call is made on the source while a batch is in flight.** -/
theorem InsertState.step_calls {s : InsertState} {batch : PreparedBatch}
    (h : s.stage.batch = some batch) : (s.step cfg src c).calls = s.calls := by
  rw [InsertState.step.eq_def]
  cases hstage : s.stage with
  | filling _ _ => rw [hstage] at h; cases h
  | considering _ _ _ => rw [hstage] at h; cases h
  | filled _ => rw [hstage] at h; cases h
  | prepared batch =>
    dsimp only
    rw [notifyStep]
    split
    · rfl
    · split
      · rfl
      · rfl
  | submitting batch script x =>
    dsimp only
    rw [submitStep]
    split
    · rfl
    · dsimp only
      split
      · split
        · rfl
        · rfl
      · rfl
  | polling batch script x handle =>
    dsimp only
    rw [pollStep]
    split
    · rfl
    · rfl
    · rfl
    · rfl
  | answered batch x contents =>
    dsimp only
    rw [confirmStep]
    split
    · rfl
    · rfl
  | returned _ => rfl
  | raised _ => rfl

/-- An import that has returned has confirmed every record of the source. -/
theorem Planner.InStage.returned_all {batches : List BatchSummary}
    (h : p.InStage cfg src (.returned batches)) :
    batches = p.completed ∧ p.consumedRows = p.confirmedRows ∧ src.next p.consumedRows = .stop := by
  cases h with
  | returned hat hstop =>
    have hconsumed : p.consumedRows = p.confirmedRows := by
      cases hat.place with
      | before _ _ hconsumed _ => exact hconsumed
      | ended _ _ hconsumed _ _ => exact hconsumed
      | ahead row _ _ _ _ hrow => exact absurd hrow (ne_row_of_stop hstop row)
    refine ⟨rfl, hconsumed, ?_⟩
    rw [hconsumed]
    exact (examine_eq_stop.mp hstop).2

theorem InsertState.Invariant.accounts {table : PyStr} {columns : List PyStr} {s : InsertState}
    (hcfg : cfg.MadeFor table columns) (h : s.Invariant cfg src) : s.Accounts cfg src c where
  numbered := h.numbered
  inFlight batch hbatch := by
    obtain ⟨rows, hinFlight⟩ := h.stage.inFlight hbatch
    exact hinFlight.consumedRows
  records batch hbatch := by
    obtain ⟨rows, hinFlight⟩ := h.stage.inFlight hbatch
    exact ⟨rows, hinFlight.rowsAt, hinFlight.carries⟩
  lookahead batch row hbatch hpending := by
    obtain ⟨rows, hinFlight⟩ := h.stage.inFlight hbatch
    exact hinFlight.whole hcfg hpending
  pulled := h.called.pulledOnce
  counted := ⟨h.called.count_iter, h.called.mem_next⟩
  untouched batch hbatch := step_calls hbatch
  returned batches hstage := by
    have hreturned := h.stage
    rw [hstage] at hreturned
    exact hreturned.returned_all
  raised e hstage := by
    have hraised := h.stage
    rw [hstage] at hraised
    cases hraised with
    | raised hreports => exact hreports

/-- **The counters of an import agree in every state of every run**, and a run of `insert_batches` ends
in such a state. -/
theorem insert_accounts {table : PyStr} {columns : List PyStr} {maxRows maxBytes : Int}
    {ctx : ClientContext} (hmake : PlannerConfig.make table columns maxRows maxBytes ctx = .ok cfg)
    (scripts : List SubmissionScript) :
    (∀ s, Leads cfg src c (.start cfg scripts) s → s.Accounts cfg src c) ∧
      ∃ run s, insertBatches c ctx table columns src maxRows maxBytes scripts = .ok run ∧
        Leads cfg src c (.start cfg scripts) s ∧ s.Shows run := by
  have hcfg := madeFor_of_make hmake
  refine ⟨fun s hleads => ((Invariant.start scripts).leads hcfg hleads).accounts hcfg, ?_⟩
  obtain ⟨s, hleads, hshows⟩ := insertLoop_leads cfg src c scripts {} []
  exact ⟨_, s, insertBatches_eq_ok.mpr ⟨cfg, hmake, rfl⟩, hleads, hshows⟩

end Progress

/-! ### A lookahead record when a submission is refused -/

def refusedScript : SubmissionScript :=
  { insertedScript with post := answering 400 [(py "message", .str (py "rejected"))] }

/-- The import of `pairSource` after so many steps. -/
def refusedState (n : Nat) : InsertState :=
  Nat.iterate (InsertState.step pairConfig pairSource importClient) n
    (.start pairConfig [refusedScript])

theorem refusedState_leads (n : Nat) :
    Leads pairConfig pairSource importClient (.start pairConfig [refusedScript])
      (refusedState n) := by
  induction n with
  | zero => exact .refl _
  | succ n ih =>
    rw [refusedState, Function.iterate_succ_apply']
    exact ih.tail rfl

/-- The error of a state, where its batch has failed. -/
def failedError (s : InsertState) : Option (BatchWriteError × FailedBatch) :=
  match s.stage with
  | .raised (.stopped e) => e.failedBatch.map fun failed => (e, failed)
  | _ => none

theorem stage_of_failedError {s : InsertState} {e : BatchWriteError} {failed : FailedBatch}
    (h : failedError s = some (e, failed)) :
    s.stage = .raised (.stopped e) ∧ e.failedBatch = some failed := by
  rw [failedError] at h
  split at h
  · rename_i e' hstage
    obtain ⟨failed', hfailed, heq⟩ := Option.map_eq_some_iff.mp h
    cases heq
    exact ⟨hstage, hfailed⟩
  · cases h

theorem insert_accounts_refused : ∃ s e failed,
    Leads pairConfig pairSource importClient (.start pairConfig [refusedScript]) s ∧
      s.stage = .raised (.stopped e) ∧ e.failedBatch = some failed ∧ s.planner.lookahead = 1 ∧
      e.consumedRows = 2 ∧ failed.rowCount = 1 ∧ s.Accounts pairConfig pairSource importClient := by
  have hleads := refusedState_leads 7
  have haccounts := (insert_accounts make_pairConfig [refusedScript]).1 _ hleads
  have hcounts : (failedError (refusedState 7)).map
      (fun x => (x.1.consumedRows, x.2.rowCount)) = some (2, 1) := by decide +kernel
  have hlookahead : (refusedState 7).planner.lookahead = 1 := by decide +kernel
  obtain ⟨⟨e, failed⟩, hfailed, heq⟩ := Option.map_eq_some_iff.mp hcounts
  obtain ⟨hconsumed, hrows⟩ := Prod.mk.inj heq
  obtain ⟨hstage, hbatch⟩ := stage_of_failedError hfailed
  exact ⟨_, e, failed, hleads, hstage, hbatch, hlookahead, hconsumed, hrows, haccounts⟩

end SnowflakeSqlApi
