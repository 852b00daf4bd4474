import SnowflakeSqlApi.Batches.Evidence
import SnowflakeSqlApi.Batches.Import

/-!
# A fault in the source

`PlannerConfig.FaultAt` lists what can be wrong at a position of the source, with the exception
each fault surfaces as.  It is what the planner finds there (`FaultAt.examine`) and nothing
else (`faultAt_of_examine`).

`insert_stops_at_fault`: with every submission confirmed, an import meets the first fault after it
has submitted the greedy split of the rows before it, but for the last part, which is
submitted only if it is full; and it stops there.
-/

namespace SnowflakeSqlApi

open GreedySplit

/-! ### Faults -/

/-- What is wrong at position `k`. The source may fail to begin, or raise there, or yield a record
that is no row, or one that cannot be sent. -/
inductive PlannerConfig.FaultAt (cfg : PlannerConfig) (src : Source) (k : Nat) :
    BatchPhase → Exc → Prop
  | iter {e : Exc} : k = 0 → src.iter = some e → FaultAt cfg src k .input e
  | raised {e : Exc} : src.iter = none → src.next k = .raised e → FaultAt cfg src k .input e
  | notSequence : src.iter = none → src.next k = .row .notSequence →
      FaultAt cfg src k .validation (.config [lit "each row must be a positional sequence"])
  | width {cells : List Value} : src.iter = none → src.next k = .row (.sequence cells) →
      cells.length ≠ cfg.width →
      FaultAt cfg src k .validation (.config [lit "each row must have ", .int cfg.width,
        lit " values, got ", .int cells.length])
  | unbound {cells : List Value} {e : Exc} : src.iter = none →
      src.next k = .row (.sequence cells) → cells.length = cfg.width →
      toBindings cells = .error e → FaultAt cfg src k .validation e
  | unencoded {cells : List Value} {bindings : List (PyStr × BindingValue)} {e : Exc} :
      src.iter = none → src.next k = .row (.sequence cells) → cells.length = cfg.width →
      toBindings cells = .ok bindings →
      (bindings.mapM fun kb => encode kb.2.toJson) = .error e → FaultAt cfg src k .validation e
  /-- The session context or the names cannot be encoded. -/
  | context {cells : List Value} {row : EncodedRow} {e : Exc} : src.iter = none →
      src.next k = .row (.sequence cells) → encodeRecord cfg.width (.sequence cells) = .ok row →
      cfg.freshContext = .error e → FaultAt cfg src k .validation e
  | oversize {cells : List Value} {content : Bytes} : src.iter = none →
      src.next k = .row (.sequence cells) → cells.length = cfg.width →
      payloadBytes cfg.ctx (cfg.sqlPrefix ++ cfg.placeholder) cells = .ok content →
      cfg.maxBytes < content.length →
      FaultAt cfg src k .validation (.config [lit "row ", .int k, lit " exceeds max_bytes=",
        .int cfg.maxBytes])

section Faults

variable {cfg : PlannerConfig} {src : Source} {table : PyStr} {columns : List PyStr} {k : Nat}
  {phase : BatchPhase} {cause : Exc}

theorem encodeRecord_sequence {width : Nat} {cells : List Value} (h : cells.length = width) :
    encodeRecord width (.sequence cells) = (do
      let bindings ← toBindings cells
      let encoded ← bindings.mapM fun kb => encode kb.2.toJson
      pure (cells, encoded)) := by
  rw [encodeRecord, if_neg (not_not.mpr h)]

/-- **A fault is what the planner finds** at its position. -/
theorem PlannerConfig.FaultAt.examine (hcfg : cfg.MadeFor table columns)
    (h : cfg.FaultAt src k phase cause) : cfg.examine src k = .fault phase cause := by
  cases h with
  | iter _ hiter => rw [PlannerConfig.examine, hiter]
  | raised hiter hnext => rw [PlannerConfig.examine, hiter, hnext]
  | notSequence hiter hnext =>
    exact examine_eq_fault_validation hiter hnext (examineRecord_of_encode rfl)
  | width hiter hnext hwidth =>
    refine examine_eq_fault_validation hiter hnext (examineRecord_of_encode ?_)
    rw [encodeRecord, if_pos hwidth]
  | unbound hiter hnext hwidth hbind =>
    refine examine_eq_fault_validation hiter hnext (examineRecord_of_encode ?_)
    rw [encodeRecord_sequence hwidth, hbind]
    rfl
  | unencoded hiter hnext hwidth hbind hencode =>
    refine examine_eq_fault_validation hiter hnext (examineRecord_of_encode ?_)
    rw [encodeRecord_sequence hwidth, hbind]
    dsimp only [bind, Except.bind]
    rw [hencode]
  | context hiter hnext henc hctx =>
    exact examine_eq_fault_validation hiter hnext (examineRecord_of_context henc hctx)
  | oversize hiter hnext hwidth hpayload hover =>
    obtain ⟨row, _, henc, hctx, hmeasure⟩ := exists_row_of_payload hcfg hwidth hpayload
    rw [hmeasure] at hover
    exact examine_eq_fault_validation hiter hnext (examineRecord_of_oversize henc hctx hover)

/-- A row that can be encoded faults by the context, or by its size. -/
theorem faultAt_of_encoded (hcfg : cfg.MadeFor table columns) {cells : List Value} {row : EncodedRow}
    {e : Exc} (hiter : src.iter = none) (hnext : src.next k = .row (.sequence cells))
    (hwidth : cells.length = cfg.width) (henc : encodeRecord cfg.width (.sequence cells) = .ok row)
    (h : cfg.examineRecord k (.sequence cells) = .error e) : cfg.FaultAt src k .validation e := by
  cases hctx : cfg.freshContext with
  | error e' =>
    rw [examineRecord_of_context henc hctx] at h
    cases h
    exact .context hiter hnext henc hctx
  | ok c =>
    have hfresh := exists_fresh hctx
    by_cases hover : cfg.maxBytes < cfg.measure [row]
    · obtain ⟨hcells, hlen, hencs⟩ := encodeRecord_eq_ok.mp henc
      cases hcells
      have hvalid : ∀ row' ∈ [row], EncodedRow.Valid cfg.width row' := by
        intro row' hrow'
        rw [List.mem_singleton.mp hrow']
        exact ⟨hlen, hencs⟩
      obtain ⟨content, hcontent, hmeasure⟩ :=
        payload_of_rows hcfg (List.cons_ne_nil _ _) hvalid hfresh
      rw [List.length_singleton, valuesText_one, List.flatMap_singleton,
        ← hcfg.placeholder] at hcontent
      rw [examineRecord_of_oversize henc hfresh hover] at h
      cases h
      rw [← hmeasure] at hover
      exact .oversize hiter hnext hwidth hcontent hover
    · rw [examineRecord_eq_ok.mpr ⟨henc, hfresh, not_lt.mp hover⟩] at h
      cases h

theorem faultAt_of_record (hcfg : cfg.MadeFor table columns) {r : Record} {e : Exc}
    (hiter : src.iter = none) (hnext : src.next k = .row r) (h : cfg.examineRecord k r = .error e) :
    cfg.FaultAt src k .validation e := by
  cases r with
  | notSequence =>
    rw [examineRecord_of_encode rfl] at h
    cases h
    exact .notSequence hiter hnext
  | sequence cells =>
    by_cases hwidth : cells.length = cfg.width
    · have hencode := encodeRecord_sequence hwidth
      cases hbind : toBindings cells with
      | error e' =>
        rw [hbind] at hencode
        rw [examineRecord_of_encode hencode] at h
        cases h
        exact .unbound hiter hnext hwidth hbind
      | ok bindings =>
        rw [hbind] at hencode
        cases hencs : (bindings.mapM fun kb => encode kb.2.toJson) with
        | error e' =>
          dsimp only [bind, Except.bind] at hencode
          rw [hencs] at hencode
          rw [examineRecord_of_encode hencode] at h
          cases h
          exact .unencoded hiter hnext hwidth hbind hencs
        | ok encs =>
          dsimp only [bind, Except.bind] at hencode
          rw [hencs] at hencode
          exact faultAt_of_encoded hcfg hiter hnext hwidth hencode h
    · have hencode : encodeRecord cfg.width (.sequence cells) = .error (.config
          [lit "each row must have ", .int cfg.width, lit " values, got ", .int cells.length]) := by
        rw [encodeRecord, if_pos hwidth]
      rw [examineRecord_of_encode hencode] at h
      cases h
      exact .width hiter hnext hwidth

/-- **The planner finds no other fault.** -/
theorem faultAt_of_examine (hcfg : cfg.MadeFor table columns) (hk : src.iter = none ∨ k = 0)
    (h : cfg.examine src k = .fault phase cause) : cfg.FaultAt src k phase cause := by
  rw [PlannerConfig.examine] at h
  cases hiter : src.iter with
  | some e =>
    rw [hiter] at h hk
    cases h
    exact .iter (hk.resolve_left (by simp)) hiter
  | none =>
    rw [hiter] at h
    cases hnext : src.next k with
    | stop =>
      rw [hnext] at h
      cases h
    | raised e =>
      rw [hnext] at h
      cases h
      exact .raised hiter hnext
    | row r =>
      rw [hnext] at h
      dsimp only at h
      cases hr : cfg.examineRecord k r with
      | ok row =>
        rw [hr] at h
        cases h
      | error e =>
        rw [hr] at h
        cases h
        exact faultAt_of_record hcfg hiter hnext hr

/-! ### Where an import stops -/

/-- The parts that are closed when a fault follows them: all but the last one, unless it is full. -/
def closedParts {α : Type} (maxRows : Int) (parts : List (List α)) : List (List α) :=
  match parts.getLast? with
  | some last => if last.length = maxRows then parts else parts.dropLast
  | none => []

/-- **A clean stop** at position `k`: the error names the fault and no batch, the submitted batches
are those of `parts`, and the source was not asked again. -/
structure InsertRun.StopsAt (run : InsertRun) (table : PyStr) (columns : List PyStr)
    (ctx : ClientContext) (src : Source) (parts : List (List (List Value))) (k : Nat)
    (phase : BatchPhase) (e : BatchWriteError) : Prop where
  raised : run.outcome = .raised (.stopped e)
  failedBatch : e.failedBatch = none
  outcome : e.outcome = .notExecuted
  phase_eq : e.phase = phase
  consumedRows : e.consumedRows = if phase = .input then k else k + 1
  completed : e.completed = summaries 0 0 (run.submissions.zip parts)
  nextRowIndex : e.nextRowIndex = parts.flatten.length
  submitted : List.Forall₂ (fun submission part => submission.batch.Agrees table columns ctx part ∧
      ∀ x ∈ submission.exchanges, x.request.target = .statements →
        x.request.body = .content submission.batch.content) run.submissions parts
  iterCalls : run.planner.iterCalls = 1
  nextCalls : src.iter = none → run.planner.nextCalls = k + 1

variable {maxRows maxBytes : Int} {ctx : ClientContext} {c : InsertClient}
  {scripts : List SubmissionScript} {run : InsertRun} {rows : List (List Value)}

/-- A run without a failure ends where the source has no row. -/
theorem ending_at_fault {all : List EncodedRow} {q : Planner} {t : Nat} {last : InsertRun}
    (hall : RowsAt cfg src 0 all) (hfault : cfg.examine src all.length = .fault phase cause)
    (ht : t ≤ all.length) (hleft : scripts ≠ [] ∨ t = all.length)
    (hhooks : ∀ script ∈ scripts, script.notifyError = none)
    (hconfirmed : ∀ s ∈ last.submissions, ∃ affected, s.outcome = some (.ok affected))
    (h : Ending cfg src c q t scripts last) :
    ∃ p, last = ⟨[], p, .raised (.stopped (p.error cause phase))⟩ ∧ q.SameProgress p ∧
      p.Halted src all.length phase ∧ (all.drop t).length < cfg.maxRows ∧
      (all.drop t ≠ [] → cfg.Fits (all.drop t)) := by
  have hend := ne_row_of_fault hfault
  have hrow : ∀ n, n < all.length → ∃ row, cfg.examine src n = .row row := by
    intro n hn
    have hat := hall n hn
    rw [Nat.zero_add] at hat
    exact ⟨_, hat⟩
  have htaken : ∀ {b : PreparedBatch} {rows : List EncodedRow}, b.TakenAt cfg src t rows →
      t < all.length := by
    intro b rows hb
    have hle := (hb.rowsAt.eq_take hall hend ht).1
    have hpos := List.length_pos_iff.mpr hb.rows_ne
    omega
  cases h with
  | returned hstop _ =>
    by_cases hlt : t < all.length
    · obtain ⟨row, hat⟩ := hrow t hlt
      rw [hstop] at hat
      cases hat
    · obtain rfl : t = all.length := by omega
      rw [hstop] at hfault
      cases hfault
  | @faulted p rows phase' cause' hrows hlt hfits hat hhalted hsame =>
    obtain ⟨hle, heq⟩ := hrows.eq_take hall hend ht
    have hlast : t + rows.length = all.length := by
      by_contra hne
      obtain ⟨row, hat'⟩ := hrow (t + rows.length) (by omega)
      rw [hat] at hat'
      cases hat'
    have hdrop : all.drop t = rows := by
      rw [heq, List.take_of_length_le (by rw [List.length_drop]; omega)]
    rw [hlast] at hat hhalted
    rw [hfault] at hat
    cases hat
    rw [hdrop]
    exact ⟨p, rfl, hsame, hhalted, hlt, hfits⟩
  | hookRaised _ _ hmem hraised =>
    rw [hhooks _ hmem] at hraised
    cases hraised
  | @failed p b rows script submission e _ _ _ houtcome =>
    obtain ⟨affected, hok⟩ := hconfirmed submission (List.mem_singleton_self _)
    rw [houtcome] at hok
    cases hok
  | outOfScripts hb _ hnone =>
    have hlt := htaken hb
    rcases hleft with hne | heq
    · exact absurd hnone hne
    · omega
  | @polling p b rows script submission _ _ _ houtcome =>
    obtain ⟨affected, hok⟩ := hconfirmed submission (List.mem_singleton_self _)
    rw [houtcome] at hok
    cases hok

theorem closedParts_of_full {α : Type} {parts : List (List α)}
    (h : ∀ last ∈ parts.getLast?, last.length = maxRows) : closedParts maxRows parts = parts := by
  rw [closedParts]
  cases hlast : parts.getLast? with
  | none => exact (List.getLast?_eq_none_iff.mp hlast).symm
  | some last => exact if_pos (h last hlast)

theorem closedParts_of_open {α : Type} {parts : List (List α)} {rest : List α}
    (h : (rest.length : Int) < maxRows) : closedParts maxRows (parts ++ [rest]) = parts := by
  rw [closedParts, List.getLast?_concat]
  dsimp only
  rw [if_neg h.ne, List.dropLast_concat]

/-- The confirmed batches before a fault, as a part of the greedy split of the rows there. -/
theorem closedParts_of_imported (hmake : PlannerConfig.make table columns maxRows maxBytes ctx = .ok cfg)
    {all : List EncodedRow} {p q : Planner} {t : Nat} {done : List (Submission × List EncodedRow)}
    (hall : RowsAt cfg src 0 all) (hfault : cfg.examine src all.length = .fault phase cause)
    (himported : Imported cfg src c p 0 done q t)
    (hlt : (all.drop t).length < cfg.maxRows) (hfits : all.drop t ≠ [] → cfg.Fits (all.drop t)) :
    ∃ parts, Split (PlainFits table columns ctx maxRows maxBytes) (all.map Prod.fst) parts ∧
      closedParts maxRows parts = (done.map Prod.snd).map (List.map Prod.fst) := by
  have hend := ne_row_of_fault hfault
  have hmax : (cfg.maxRows : Int) = maxRows := by
    obtain ⟨_, hpos, _, _, _, _, rfl⟩ := make_eq_ok.mp hmake
    show (maxRows.toNat : Int) = maxRows
    omega
  obtain ⟨ht, hclosed⟩ := himported.closed hall hend (Nat.zero_le _)
  rw [List.drop_zero] at hclosed
  by_cases hrest : all.drop t = []
  · rw [hrest] at hclosed
    refine ⟨_, split_plainFits hmake hall (.of_closed_nil hclosed), closedParts_of_full ?_⟩
    have hlast : t = all.length := by
      have := List.drop_eq_nil_iff.mp hrest
      omega
    rw [← hlast] at hfault
    intro last hlast
    rw [List.getLast?_map, Option.mem_map] at hlast
    obtain ⟨part, hpart, rfl⟩ := hlast
    rw [List.length_map, himported.last_full hfault part hpart, hmax]
  · refine ⟨_, split_plainFits hmake hall (.of_closed_open hclosed hrest (hfits hrest)), ?_⟩
    rw [List.map_append, List.map_singleton]
    apply closedParts_of_open
    rw [List.length_map]
    omega

/-- The rows before a fault, as the planner has them. A source whose `iter` raises has none. -/
theorem exists_rowsAt_of_fault
    (hmake : PlannerConfig.make table columns maxRows maxBytes ctx = .ok cfg)
    (hrows : src.Lists 0 rows)
    (halone : ∀ row ∈ rows, PlainFits table columns ctx maxRows maxBytes [row])
    (hfault : cfg.FaultAt src rows.length phase cause) :
    ∃ all, RowsAt cfg src 0 all ∧ all.map Prod.fst = rows := by
  by_cases hiter : src.iter = none
  · exact exists_rowsAt hmake hiter hrows halone
  · obtain rfl : rows = [] := by
      cases hfault with
      | iter hk _ => exact List.eq_nil_of_length_eq_zero hk
      | raised h _ | notSequence h _ | width h _ _ | unbound h _ _ _ | unencoded h _ _ _ _
      | context h _ _ _ | oversize h _ _ _ _ => exact absurd h hiter
    exact ⟨[], .nil, rfl⟩

/-- **A fault in the source stops an import cleanly.** With every submission confirmed, the import
raises the first fault after the closed parts of the greedy split of the rows before it; nothing
else was sent, and the source was not asked again. -/
theorem insert_stops_at_fault
    (hmake : PlannerConfig.make table columns maxRows maxBytes ctx = .ok cfg)
    (hrun : insertBatches c ctx table columns src maxRows maxBytes scripts = .ok run)
    (hrows : src.Lists 0 rows)
    (halone : ∀ row ∈ rows, PlainFits table columns ctx maxRows maxBytes [row])
    (hfault : cfg.FaultAt src rows.length phase cause)
    (hscripts : rows.length ≤ scripts.length)
    (hhooks : ∀ script ∈ scripts, script.notifyError = none)
    (hconfirmed : ∀ s ∈ run.submissions, ∃ affected, s.outcome = some (.ok affected)) :
    ∃ parts e, Split (PlainFits table columns ctx maxRows maxBytes) rows parts ∧
      run.StopsAt table columns ctx src (closedParts maxRows parts) rows.length phase e ∧
      e.cause = cause := by
  have hcfg := madeFor_of_make hmake
  obtain ⟨_, hmake', rfl⟩ := insertBatches_eq_ok.mp hrun
  rw [hmake] at hmake'
  cases hmake'
  obtain ⟨all, hall, rfl⟩ := exists_rowsAt_of_fault hmake hrows halone hfault
  have hexamine := hfault.examine hcfg
  rw [List.length_map] at hexamine hscripts ⊢
  have hend := ne_row_of_fault hexamine
  obtain ⟨done, q, t, last, hloop, himported, hending⟩ :=
    insertLoop_spec (c := c) hcfg scripts (Planner.at_initial cfg src)
  obtain ⟨ht, _⟩ := himported.closed hall hend (Nat.zero_le _)
  have hleft : scripts.drop done.length ≠ [] ∨ t = all.length := by
    by_cases heq : t = all.length
    · exact .inr heq
    · left
      intro hnone
      have hdone := himported.length_le
      have hscript := List.drop_eq_nil_iff.mp hnone
      omega
  rw [hloop] at hconfirmed ⊢
  obtain ⟨p, rfl, hsame, hhalted, hlt, hfits⟩ := ending_at_fault hall hexamine ht hleft
    (fun script hscript => hhooks script (List.mem_of_mem_drop hscript))
    (fun s hs => hconfirmed s (List.mem_append_right _ hs)) hending
  obtain ⟨parts, hsplit, hclosed⟩ :=
    closedParts_of_imported hmake hall hexamine himported hlt hfits
  obtain ⟨hprogress, hcompleted⟩ := himported.progress
  refine ⟨parts, p.error cause phase, hsplit, ?_, rfl⟩
  rw [hclosed]
  refine ⟨rfl, rfl, rfl, rfl, hhalted.consumedRows, ?_, ?_, ?_, hhalted.iterCalls, hhalted.nextCalls⟩
  · show p.completed = _
    show _ = summaries 0 0 ((done.map Prod.fst ++ []).zip _)
    rw [hsame.2, hcompleted, List.append_nil, List.map_map, List.zip_map', List.nil_append]
    exact (summaries_map _ _ _ _).symm
  · show p.confirmedRows = _
    rw [hsame.1, hprogress, ← List.map_flatten, List.length_map]
    exact Nat.zero_add _
  · show List.Forall₂ _ (done.map Prod.fst ++ []) _
    rw [List.append_nil, ← ctx_of_make hmake]
    exact himported.agrees hcfg

end Faults

/-! ### A short row after two batches

The rows before it do not fit one batch; the second is still open when the short row is met. -/

def brokenSource : Source where
  next
    | 0 => .row (.sequence [.int 1, .str (py "é?")])
    | 1 => .row (.sequence [.none, .bool true])
    | _ => .row (.sequence [.int 3])

def isCounted (s : Submission) : Bool :=
  match s.outcome with
  | some (.ok _) => true
  | _ => false

theorem exists_of_isCounted {s : Submission} (h : isCounted s = true) :
    ∃ affected, s.outcome = some (.ok affected) := by
  rw [isCounted] at h
  split at h
  · exact ⟨_, by assumption⟩
  · cases h

theorem insert_stops_at_fault_brokenSource :
    ∃ parts e, Split (PlainFits hostileTable hostileColumns pairContext 3 273) pairRows parts ∧
      (insertLoop pairConfig brokenSource importClient [insertedScript, insertedScript] {}).StopsAt
        hostileTable hostileColumns pairContext brokenSource (closedParts 3 parts) 2 .validation e ∧
      e.cause = .config [lit "each row must have ", .int 2, lit " values, got ", .int 1] := by
  have hrun := insertBatches_eq_ok.mpr ⟨pairConfig, make_pairConfig,
    Eq.refl (insertLoop pairConfig brokenSource importClient [insertedScript, insertedScript] {})⟩
  have hlists : brokenSource.Lists 0 pairRows := by
    intro i hi
    match i, hi with
    | 0, _ => rfl
    | 1, _ => rfl
  have hfault : pairConfig.FaultAt brokenSource pairRows.length .validation (.config
      [lit "each row must have ", .int pairConfig.width, lit " values, got ",
        .int [Value.int 3].length]) :=
    .width rfl rfl (by decide)
  refine insert_stops_at_fault make_pairConfig hrun hlists (by decide +kernel) hfault le_rfl ?_ ?_
  · intro script hscript
    rw [List.eq_of_mem_replicate (n := 2) hscript]
    rfl
  · intro s hs
    have hcounted : (insertLoop pairConfig brokenSource importClient
        [insertedScript, insertedScript] {}).submissions.all isCounted = true := by decide +kernel
    exact exists_of_isCounted (List.all_eq_true.mp hcounted s hs)

end SnowflakeSqlApi
