import SnowflakeSqlApi.Batches.Agreement

/-!
# The batches of a finite source

`plan` calls `next_batch` until it returns no batch, each batch being confirmed.  For a
source of rows each of which fits alone it ends, and its batches are the greedy split
of the rows (`plan_eq_split`): no row is lost, duplicated or moved, and none of the
batches could have taken one row more.

`PlainFits` says that rows fit in the terms of the plain path, without the planner's
arithmetic; `plainFits_iff` is where the two meet.
-/

namespace SnowflakeSqlApi

open GreedySplit

section Split

variable {cfg : PlannerConfig} {src : Source} {table : PyStr} {columns : List PyStr}

/-! ### Where a batch ends -/

/-- The rows of a batch are the next ones of all the rows. -/
theorem RowsAt.eq_take {all rows : List EncodedRow} {s : Nat} (h : RowsAt cfg src s rows)
    (hall : RowsAt cfg src 0 all) (hend : ∀ row, cfg.examine src all.length ≠ .row row)
    (hs : s ≤ all.length) :
    s + rows.length ≤ all.length ∧ rows = (all.drop s).take rows.length := by
  have hle : s + rows.length ≤ all.length := by
    by_contra hlt
    have hrow := h (all.length - s) (by omega)
    rw [Nat.add_sub_cancel' hs] at hrow
    exact hend _ hrow
  refine ⟨hle, List.ext_getElem (by simp; omega) fun i hi _ => ?_⟩
  have hrow := h i hi
  have hsame := hall (s + i) (by omega)
  rw [Nat.zero_add, hrow] at hsame
  rw [List.getElem_take, List.getElem_drop]
  exact Examined.row.inj hsame

/-- **A batch is the longest one at its place.** -/
theorem isLongest_of_batch {all rows : List EncodedRow} {s : Nat} (hall : RowsAt cfg src 0 all)
    (hend : ∀ row, cfg.examine src all.length ≠ .row row) (hs : s ≤ all.length)
    (hne : rows ≠ []) (hrows : RowsAt cfg src s rows) (hfits : cfg.Fits rows)
    (hclose : rows.length = cfg.maxRows ∨ Closes cfg src s rows) :
    IsLongest cfg.Fits (all.drop s) rows.length := by
  obtain ⟨hle, heq⟩ := hrows.eq_take hall hend hs
  have hlen : rows.length ≤ (all.drop s).length := by
    rw [List.length_drop]
    omega
  refine isLongest_of_stop (fits_prefixClosed cfg) (List.length_pos_iff.mpr hne) hlen
    (by rwa [← heq]) ?_
  by_cases hlast : rows.length = (all.drop s).length
  · exact .inl hlast
  · have hlt : s + rows.length < all.length := by
      rw [List.length_drop] at hlast
      omega
    have hnext := hall (s + rows.length) hlt
    rw [Nat.zero_add] at hnext
    have htake : (all.drop s).take (rows.length + 1) = rows ++ [all[s + rows.length]] := by
      rw [List.take_succ_eq_append_getElem (by rw [List.length_drop]; omega), ← heq,
        List.getElem_drop]
    rw [htake]
    refine .inr fun hmore => ?_
    have hcount := hmore.1
    rw [List.length_append, List.length_singleton] at hcount
    rcases hclose with hmax | hstop | ⟨row, hrow, _, hover⟩
    · omega
    · rw [hnext] at hstop
      cases hstop
    · rw [hnext] at hrow
      cases hrow
      exact absurd hmore.2 (by omega)

/-! ### All calls -/

/-- `next_batch` until it returns no batch, each batch being confirmed with the count `affected`
gives, for at most the given number of calls. -/
def plan (cfg : PlannerConfig) (src : Source) (affected : PreparedBatch → Int) :
    Nat → Planner → Option (Except Raised (List PreparedBatch))
  | 0, _ => none
  | n + 1, p =>
    match p.nextBatch cfg src with
    | (.error e, _) => some (.error e)
    | (.ok none, _) => some (.ok [])
    | (.ok (some b), p) =>
      (plan cfg src affected n (p.confirm b (affected b))).map fun rest => rest.map (b :: ·)

/-- No fault follows the rows of a source without faults. -/
theorem examine_ne_fault {all rows : List EncodedRow} {s : Nat} (hall : RowsAt cfg src 0 all)
    (hend : cfg.examine src all.length = .stop) (hs : s ≤ all.length) (hrows : RowsAt cfg src s rows)
    (phase : BatchPhase) (cause : Exc) : cfg.examine src (s + rows.length) ≠ .fault phase cause := by
  have hstop := ne_row_of_stop hend
  obtain ⟨hle, _⟩ := hrows.eq_take hall hstop hs
  intro hfault
  by_cases hlt : s + rows.length < all.length
  · have hrow := hall _ hlt
    rw [Nat.zero_add, hfault] at hrow
    cases hrow
  · have heq := Nat.le_antisymm hle (Nat.not_lt.mp hlt)
    rw [heq, hend] at hfault
    cases hfault

/-- **The calls on a source without faults**, from any position: they end, and their batches are the
greedy split of the rows left. -/
theorem plan_spec {all : List EncodedRow} (hcfg : cfg.MadeFor table columns)
    (hall : RowsAt cfg src 0 all) (hend : cfg.examine src all.length = .stop)
    (affected : PreparedBatch → Int) {s : Nat} {p : Planner} (hs : s ≤ all.length)
    (h : p.At cfg src s) :
    ∃ batches parts, (∀ n, all.length - s < n → plan cfg src affected n p = some (.ok batches)) ∧
      Split cfg.Fits (all.drop s) parts ∧
      List.Forall₂ (fun (b : PreparedBatch) rows =>
        rows ≠ [] ∧ (∀ row ∈ rows, row.Valid cfg.width) ∧ b.Carries cfg rows ∧ cfg.Fits rows)
        batches parts := by
  have hstop := ne_row_of_stop hend
  induction hleft : all.length - s using Nat.strong_induction_on generalizing s p with
  | _ left ih =>
    have hspec := nextBatch_spec hcfg.width_ne hcfg.placeholder hcfg.maxRows_pos h
    generalize hcall : p.nextBatch cfg src = called at hspec
    cases hspec with
    | ended hexamine _ _ =>
      have hlast : s = all.length := by
        by_contra hne
        have hrow := hall s (by omega)
        rw [Nat.zero_add, hexamine] at hrow
        cases hrow
      refine ⟨[], [], fun n hn => ?_, ?_, .nil⟩
      · obtain ⟨m, rfl⟩ := Nat.exists_eq_succ_of_ne_zero (Nat.ne_of_gt (Nat.zero_lt_of_lt hn))
        rw [plan, hcall]
      · rw [hlast, List.drop_length]
        exact .nil
    | faulted hrows _ _ hfault _ _ =>
      exact absurd hfault (examine_ne_fault hall hend hs hrows _ _)
    | @batch p' b rows hne hrows hcarries hfits hclose hat _ =>
      obtain ⟨hle, heq⟩ := hrows.eq_take hall hstop hs
      have hpos := List.length_pos_iff.mpr hne
      obtain ⟨batches, parts, hplan, hsplit, hparts⟩ :=
        ih _ (by omega) hle (hat.confirm b (affected b)) rfl
      have hlongest := isLongest_of_batch hall hstop hs hne hrows hfits hclose
      refine ⟨b :: batches, rows :: parts, fun n hn => ?_, ?_,
        .cons ⟨hne, hrows.valid, hcarries, hfits⟩ hparts⟩
      · obtain ⟨m, rfl⟩ := Nat.exists_eq_succ_of_ne_zero (Nat.ne_of_gt (Nat.zero_lt_of_lt hn))
        rw [plan, hcall]
        dsimp only
        rw [hplan m (by omega)]
        rfl
      · rw [← List.drop_drop] at hsplit
        have hcons := Split.cons hlongest hsplit
        rwa [← heq] at hcons

/-- A reachable planner is within the source. -/
theorem Planner.Reach.le {all : List EncodedRow} (hcfg : cfg.MadeFor table columns)
    (hall : RowsAt cfg src 0 all) (hend : ∀ row, cfg.examine src all.length ≠ .row row) {p : Planner}
    {s : Nat} (h : Planner.Reach cfg src p s) : s ≤ all.length := by
  induction h with
  | initial => exact Nat.zero_le _
  | @batch p p' s b hreach hnext ih =>
    have hspec := nextBatch_spec hcfg.width_ne hcfg.placeholder hcfg.maxRows_pos (hreach.at hcfg)
    rw [hnext] at hspec
    cases hspec with
    | batch _ hrows hcarries _ _ _ _ =>
      rw [hcarries.rowCount]
      exact (hrows.eq_take hall hend ih).1
  | ended _ _ ih => exact ih
  | confirm _ _ _ ih => exact ih

/-! ### Rows that fit, without the planner -/

/-- The rows fit one batch: there are not too many, and their body is built by the plain path and
not too long. -/
def PlainFits (table : PyStr) (columns : List PyStr) (ctx : ClientContext) (maxRows maxBytes : Int)
    (rows : List (List Value)) : Prop :=
  rows.length ≤ maxRows ∧ ∃ sql params content,
    insertStatement table columns rows = .ok (some (sql, params)) ∧
    payloadBytes ctx sql params = .ok content ∧ (content.length : Int) ≤ maxBytes

/-- The size of the body of `rows` on the plain path. -/
def plainSize (table : PyStr) (columns : List PyStr) (ctx : ClientContext)
    (rows : List (List Value)) : Option Nat :=
  match insertStatement table columns rows with
  | .ok (some (sql, params)) =>
    match payloadBytes ctx sql params with
    | .ok content => some content.length
    | .error _ => none
  | _ => none

theorem plainSize_eq_some {table : PyStr} {columns : List PyStr} {ctx : ClientContext}
    {rows : List (List Value)} {size : Nat} :
    plainSize table columns ctx rows = some size ↔ ∃ sql params content,
      insertStatement table columns rows = .ok (some (sql, params)) ∧
      payloadBytes ctx sql params = .ok content ∧ content.length = size := by
  rw [plainSize]
  cases insertStatement table columns rows with
  | error e => simp
  | ok statement =>
    cases statement with
    | none => simp
    | some statement =>
      obtain ⟨sql, params⟩ := statement
      cases hp : payloadBytes ctx sql params <;> simp [hp]

instance (table : PyStr) (columns : List PyStr) (ctx : ClientContext) (maxRows maxBytes : Int)
    (rows : List (List Value)) : Decidable (PlainFits table columns ctx maxRows maxBytes rows) :=
  decidable_of_iff
    (rows.length ≤ maxRows ∧ ∃ size ∈ plainSize table columns ctx rows, (size : Int) ≤ maxBytes) <| by
    refine and_congr_right fun _ => ⟨fun h => ?_, fun h => ?_⟩
    · obtain ⟨size, hsize, hle⟩ := h
      obtain ⟨sql, params, content, hinsert, hpayload, rfl⟩ := plainSize_eq_some.mp hsize
      exact ⟨sql, params, content, hinsert, hpayload, hle⟩
    · obtain ⟨sql, params, content, hinsert, hpayload, hle⟩ := h
      exact ⟨_, plainSize_eq_some.mpr ⟨sql, params, content, hinsert, hpayload, rfl⟩, hle⟩

/-- A payload is encoded only if its cells are. -/
theorem exists_cellEncodes {ctx : ClientContext} {sql : PyStr} {cells : List Value}
    {content : Bytes} (hne : cells ≠ []) (h : payloadBytes ctx sql cells = .ok content) :
    ∃ encs, List.Forall₂ CellEncodes cells encs := by
  cases hb : toBindings cells with
  | error e =>
    rw [payloadBytes, ClientContext.buildPayload, if_neg hne, hb] at h
    cases h
  | ok bindings =>
    rw [payloadBytes, ctx.buildPayload_eq hne hb] at h
    change encode _ = _ at h
    obtain ⟨parts, hparts, _⟩ := encode_obj_iff.mp h
    obtain ⟨_, last, _, hlast, _⟩ := forall₂_append_left.mp hparts
    obtain _ | ⟨⟨_, v, _, hv, _⟩, _⟩ := hlast
    obtain ⟨items, hitems, _⟩ := encode_obj_iff.mp hv
    rw [List.forall₂_map_left_iff] at hitems
    have hvalues : ∀ kb ∈ bindings, ∃ e, encode kb.2.toJson = .ok e := by
      intro kb hkb
      obtain ⟨i, hi, rfl⟩ := List.mem_iff_getElem.mp hkb
      obtain ⟨_, e, _, he, _⟩ := hitems.get hi (hitems.length_eq ▸ hi)
      exact ⟨e, he⟩
    obtain ⟨encs, hencs⟩ := exists_mapM_ok hvalues
    have hall := mapM_eq_ok.mp hencs
    obtain ⟨vs, hvs, rfl⟩ := toBindingsFrom_eq_ok.mp hb
    refine ⟨encs, cellEncodes_iff.mpr ⟨vs, hvs, ?_⟩⟩
    have hsnd := mapIdx_snd (fun i => strNat (1 + i)) vs
    rw [← hsnd, List.forall₂_map_left_iff]
    exact hall

/-- Validated rows have the body of the plain path, and `measure` is its size. -/
theorem payload_of_rows (hcfg : cfg.MadeFor table columns) {rows : List EncodedRow}
    (hne : rows ≠ []) (hvalid : ∀ row ∈ rows, row.Valid cfg.width)
    (hctx : ∃ c, cfg.freshContext = .ok (c, cfg.overhead)) :
    ∃ content, payloadBytes cfg.ctx (cfg.sqlPrefix ++ valuesText cfg.width rows.length)
      (rows.flatMap Prod.fst) = .ok content ∧ content.length = cfg.measure rows := by
  have hcells := forall₂_flatMap_cells hvalid
  have hparams : rows.flatMap Prod.fst ≠ [] := by
    intro he
    rw [he, List.forall₂_nil_left_iff] at hcells
    exact flatMap_snd_ne_nil hcfg.width_ne hne hvalid hcells
  obtain ⟨c, hc⟩ := hctx
  obtain ⟨content, hbody, hlen⟩ := body_of_rows hcfg.placeholder hc hne
  exact ⟨content, (payloadBytes_eq_ok hcells hparams).mpr ⟨c, (freshContext_eq_ok.mp hc).1, hbody⟩,
    hlen⟩

variable {maxRows maxBytes : Int} {ctx : ClientContext}

/-- **The planner's arithmetic is the plain path's** on validated rows. -/
theorem plainFits_iff (hmake : PlannerConfig.make table columns maxRows maxBytes ctx = .ok cfg)
    {rows : List EncodedRow} (hne : rows ≠ []) (hvalid : ∀ row ∈ rows, row.Valid cfg.width)
    (hctx : ∃ c, cfg.freshContext = .ok (c, cfg.overhead)) :
    cfg.Fits rows ↔ PlainFits table columns ctx maxRows maxBytes (rows.map Prod.fst) := by
  have hcfg := madeFor_of_make hmake
  obtain ⟨content, hcontent, hlen⟩ := payload_of_rows hcfg hne hvalid hctx
  obtain ⟨hcols, hr, hb, _, head, hhead, rfl⟩ := make_eq_ok.mp hmake
  have hflat : rows.flatMap Prod.fst = (rows.map Prod.fst).flatten := List.flatMap_def ..
  have hwidth : ∀ row ∈ rows.map Prod.fst, row.length = columns.length := by
    intro row hrow
    obtain ⟨er, her, rfl⟩ := List.mem_map.mp hrow
    exact (hvalid er her).1
  rw [PlannerConfig.Fits, PlainFits, ← hlen]
  dsimp only at hcontent ⊢
  rw [hflat] at hcontent
  refine ⟨fun h => ⟨?_, _, _, content, insertStatement_eq_ok.mpr ⟨hcols, by simpa using hne, hwidth,
    rfl, head, hhead, rfl⟩, ?_, ?_⟩, fun h => ?_⟩
  · rw [List.length_map]
    omega
  · rwa [List.length_map]
  · omega
  · obtain ⟨hcount, sql, params, content', hinsert, hpayload, hbytes⟩ := h
    obtain ⟨_, _, _, rfl, head', hhead', rfl⟩ := insertStatement_eq_ok.mp hinsert
    rw [hhead] at hhead'
    cases hhead'
    rw [List.length_map] at hpayload hcount
    rw [hcontent] at hpayload
    cases hpayload
    exact ⟨by omega, by omega⟩

/-- A row whose statement has a body is one the planner can encode, and measures to that body. -/
theorem exists_row_of_payload (hcfg : cfg.MadeFor table columns) {cells : List Value} {content : Bytes}
    (hlen : cells.length = cfg.width)
    (hpayload : payloadBytes cfg.ctx (cfg.sqlPrefix ++ cfg.placeholder) cells = .ok content) :
    ∃ row, row.1 = cells ∧ encodeRecord cfg.width (.sequence cells) = .ok row ∧
      (∃ c, cfg.freshContext = .ok (c, cfg.overhead)) ∧ content.length = cfg.measure [row] := by
  have hcells : cells ≠ [] := by
    intro he
    rw [he] at hlen
    exact hcfg.width_ne hlen.symm
  obtain ⟨encs, hencs⟩ := exists_cellEncodes hcells hpayload
  have hvalid : ∀ row ∈ [(cells, encs)], EncodedRow.Valid cfg.width row := by
    intro row hrow
    rw [List.mem_singleton.mp hrow]
    exact ⟨hlen, hencs⟩
  have hfresh : ∃ c, cfg.freshContext = .ok (c, cfg.overhead) := by
    obtain ⟨c, hc, hbody⟩ := (payloadBytes_eq_ok hencs hcells).mp hpayload
    obtain ⟨statement, hstatement, _⟩ := body_eq_ok.mp hbody
    obtain ⟨whole, hwhole⟩ : ∃ whole, body c (cfg.sqlPrefix ++ cfg.placeholder) [] = .ok whole :=
      ⟨_, body_eq_ok.mpr ⟨statement, hstatement, rfl⟩⟩
    have hctx : cfg.freshContext = .ok (c, whole.length) :=
      freshContext_eq_ok.mpr ⟨hc, whole, hwhole, rfl⟩
    exact ⟨c, by rw [PlannerConfig.overhead, hctx]⟩
  refine ⟨(cells, encs), rfl, encodeRecord_eq_ok.mpr ⟨rfl, hlen, hencs⟩, hfresh, ?_⟩
  obtain ⟨content', hcontent', hmeasure⟩ :=
    payload_of_rows hcfg (List.cons_ne_nil _ _) hvalid hfresh
  rw [List.length_singleton, valuesText_one, List.flatMap_singleton, ← hcfg.placeholder,
    hpayload] at hcontent'
  cases hcontent'
  exact hmeasure

/-- A row that fits alone is one the planner takes. -/
theorem examine_of_plainFits (hmake : PlannerConfig.make table columns maxRows maxBytes ctx = .ok cfg)
    {k : Nat} {cells : List Value} (hiter : src.iter = none)
    (hnext : src.next k = .row (.sequence cells))
    (h : PlainFits table columns ctx maxRows maxBytes [cells]) :
    ∃ row, row.1 = cells ∧ cfg.examine src k = .row row := by
  have hcfg := madeFor_of_make hmake
  obtain ⟨_, sql, params, content, hinsert, hpayload, hbytes⟩ := h
  obtain ⟨_, _, hwidth, rfl, head, hhead, rfl⟩ := insertStatement_eq_ok.mp hinsert
  obtain rfl : head = cfg.sqlPrefix := Except.ok.inj (hhead.symm.trans hcfg.sqlPrefix)
  rw [List.flatten_singleton, List.length_singleton, valuesText_one, ← hcfg.width,
    ← hcfg.placeholder, ← ctx_of_make hmake] at hpayload
  have hlen : cells.length = cfg.width := by rw [hwidth cells (by simp), hcfg.width]
  obtain ⟨row, hrow, henc, hfresh, hmeasure⟩ := exists_row_of_payload hcfg hlen hpayload
  have hmax : cfg.measure [row] ≤ cfg.maxBytes := by
    obtain ⟨_, _, _, _, _, _, rfl⟩ := make_eq_ok.mp hmake
    show _ ≤ maxBytes.toNat
    omega
  exact ⟨row, hrow, examine_eq_row.mpr ⟨hiter, _, hnext,
    examineRecord_eq_ok.mpr ⟨henc, hfresh, hmax⟩⟩⟩

/-- The rows of a source each of which fits alone, as the planner takes them. -/
theorem exists_rowsAt (hmake : PlannerConfig.make table columns maxRows maxBytes ctx = .ok cfg)
    {rows : List (List Value)} (hiter : src.iter = none) (hrows : src.Lists 0 rows)
    (halone : ∀ row ∈ rows, PlainFits table columns ctx maxRows maxBytes [row]) :
    ∃ all, RowsAt cfg src 0 all ∧ all.map Prod.fst = rows := by
  induction rows using List.reverseRecOn with
  | nil => exact ⟨[], .nil, rfl⟩
  | append_singleton rows row ih =>
    have hinit : src.Lists 0 rows := by
      intro i hi
      have hnext := hrows i (by rw [List.length_append]; omega)
      rwa [List.getElem_append_left hi] at hnext
    obtain ⟨all, hall, rfl⟩ := ih hinit fun row' hrow' => halone row' (List.mem_append_left _ hrow')
    have hnext := hrows all.length (by simp)
    rw [Nat.zero_add, List.getElem_append_right (by simp)] at hnext
    simp only [List.length_map, Nat.sub_self, List.getElem_cons_zero] at hnext
    obtain ⟨er, rfl, her⟩ := examine_of_plainFits hmake hiter hnext (halone row (by simp))
    exact ⟨all ++ [er], hall.snoc (by rwa [Nat.zero_add]), by simp⟩

/-- The greedy split of the planner's rows is the one of the plain path. -/
theorem split_plainFits (hmake : PlannerConfig.make table columns maxRows maxBytes ctx = .ok cfg)
    {all : List EncodedRow} {parts : List (List EncodedRow)} (hall : RowsAt cfg src 0 all)
    (h : Split cfg.Fits all parts) :
    Split (PlainFits table columns ctx maxRows maxBytes) (all.map Prod.fst)
      (parts.map (List.map Prod.fst)) := by
  have hfresh : ∀ row ∈ all, ∃ c, cfg.freshContext = .ok (c, cfg.overhead) := by
    intro row hrow
    obtain ⟨i, hi, rfl⟩ := List.mem_iff_getElem.mp hrow
    obtain ⟨_, _, _, hexamined⟩ := examine_eq_row.mp (hall i hi)
    exact (examineRecord_eq_ok.mp hexamined).2.1
  have hfits : ∀ ys : List EncodedRow, ys ≠ [] →
      (∀ y ∈ ys, y.Valid cfg.width ∧ ∃ c, cfg.freshContext = .ok (c, cfg.overhead)) →
      (cfg.Fits ys ↔ PlainFits table columns ctx maxRows maxBytes (ys.map Prod.fst)) := by
    intro ys hne hys
    obtain ⟨y, hy⟩ := List.exists_mem_of_ne_nil ys hne
    exact plainFits_iff hmake hne (fun row hrow => (hys row hrow).1) (hys y hy).2
  exact h.map hfits fun row hrow => ⟨hall.valid row hrow, hfresh row hrow⟩

/-- **The planner computes the greedy split.** On a finite source of rows each of which fits alone
the calls end, the batches are the greedy split of the rows, each as the plain path builds it, and
no reachable planner fails the check of the measured size. -/
theorem plan_eq_split (hmake : PlannerConfig.make table columns maxRows maxBytes ctx = .ok cfg)
    {rows : List (List Value)} (hiter : src.iter = none) (hrows : src.Lists 0 rows)
    (hstop : src.next rows.length = .stop)
    (halone : ∀ row ∈ rows, PlainFits table columns ctx maxRows maxBytes [row])
    (affected : PreparedBatch → Int) :
    (∃ batches parts, (∀ n, rows.length < n → plan cfg src affected n {} = some (.ok batches)) ∧
      Split (PlainFits table columns ctx maxRows maxBytes) rows parts ∧ parts.flatten = rows ∧
      List.Forall₂ (fun (b : PreparedBatch) part => b.Agrees table columns ctx part ∧
        (b.content.length : Int) ≤ maxBytes) batches parts) ∧
    ∀ p s, Planner.Reach cfg src p s →
      ∃ buf p', p.fill cfg src cfg.maxRows {} = (.ok buf, p') ∧ (buf.rowCount ≠ 0 →
        ∃ b, p'.flush cfg buf = .ok (some b) ∧ b.content.length = buf.size) := by
  have hcfg := madeFor_of_make hmake
  obtain ⟨all, hall, rfl⟩ := exists_rowsAt hmake hiter hrows halone
  rw [List.length_map] at hstop
  have hend : cfg.examine src all.length = .stop := examine_eq_stop.mpr ⟨hiter, hstop⟩
  refine ⟨?_, fun p s hreach => ?_⟩
  · obtain ⟨batches, parts, hplan, hsplit, hparts⟩ :=
      plan_spec hcfg hall hend affected (Nat.zero_le _) (Planner.at_initial cfg src)
    have hbytes : (cfg.maxBytes : Int) ≤ maxBytes := by
      obtain ⟨_, _, _, _, _, _, rfl⟩ := make_eq_ok.mp hmake
      show ((maxBytes.toNat : Nat) : Int) ≤ maxBytes
      omega
    rw [List.drop_zero] at hsplit
    have hplain := split_plainFits hmake hall hsplit
    refine ⟨batches, parts.map (List.map Prod.fst), fun n hn => ?_, hplain, hplain.flatten, ?_⟩
    · rw [List.length_map] at hn
      exact hplan n hn
    · rw [List.forall₂_map_right_iff]
      refine hparts.imp fun b part hb => ?_
      obtain ⟨hne, hvalid, hcarries, hfit⟩ := hb
      have hlen := hcarries.length
      have hle := hfit.2
      rw [← ctx_of_make hmake]
      exact ⟨hcarries.agrees hcfg hne hvalid, by omega⟩
  · have hs := hreach.le hcfg hall (ne_row_of_stop hend)
    have hstart : p.Filling cfg src s [] {} :=
      ⟨hreach.at hcfg, .nil, Buffer.holds_empty cfg, fun hne => absurd rfl hne⟩
    have hfill := fill_spec (n := cfg.maxRows) hcfg.width_ne hstart
    generalize p.fill cfg src cfg.maxRows {} = filled at hfill
    cases hfill with
    | faulted _ hrows _ _ hfault _ _ =>
      exact absurd hfault (examine_ne_fault hall hend hs hrows _ _)
    | filled _ hfilling _ _ _ =>
      refine ⟨_, _, rfl, fun hcount => ?_⟩
      rw [hfilling.holds.rowCount] at hcount
      have hne := List.ne_nil_of_length_pos (Nat.pos_of_ne_zero hcount)
      obtain ⟨b, hflush, _, hsize⟩ := flush_spec hcfg.width_ne hcfg.placeholder hne hfilling
      exact ⟨b, hflush, hsize⟩

end Split

def pairRows : List (List Value) := [[.int 1, .str (py "é?")], [.none, .bool true]]

theorem plan_eq_split_pairSource :
    (∃ batches parts, (∀ n, 2 < n → plan pairConfig pairSource (fun _ => 1) n {} = some (.ok batches)) ∧
      Split (PlainFits hostileTable hostileColumns pairContext 3 273) pairRows parts ∧
      parts.flatten = pairRows ∧
      List.Forall₂ (fun (b : PreparedBatch) part =>
        b.Agrees hostileTable hostileColumns pairContext part ∧ (b.content.length : Int) ≤ 273)
        batches parts) ∧
    ∀ p s, Planner.Reach pairConfig pairSource p s →
      ∃ buf p', p.fill pairConfig pairSource 3 {} = (.ok buf, p') ∧ (buf.rowCount ≠ 0 →
        ∃ b, p'.flush pairConfig buf = .ok (some b) ∧ b.content.length = buf.size) := by
  have hlists : pairSource.Lists 0 pairRows := by
    intro i hi
    match i, hi with
    | 0, _ => rfl
    | 1, _ => rfl
  exact plan_eq_split make_pairConfig rfl hlists rfl (by decide +kernel) fun _ => 1

end SnowflakeSqlApi
