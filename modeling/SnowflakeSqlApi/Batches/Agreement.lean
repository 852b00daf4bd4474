import SnowflakeSqlApi.Batches.Greedy

/-!
# The batches of a planner and the plain path

`Planner.Reach` is a planner after any calls of `next_batch` and `confirm`, with the
number of rows it has emitted.  Every batch such a planner emits is the `INSERT` that
`_insert_statement` builds for the next rows of the source, and its content is the
encoded payload `_build_payload` builds for that (`nextBatch_agrees`).
-/

namespace SnowflakeSqlApi

open SqlLexer

/-! ### The constructor -/

/-- What the constructor of a planner accepts, and the configuration it makes. -/
theorem make_eq_ok {table : PyStr} {columns : List PyStr} {maxRows maxBytes : Int}
    {ctx : ClientContext} {cfg : PlannerConfig} :
    PlannerConfig.make table columns maxRows maxBytes ctx = .ok cfg ↔
      columns ≠ [] ∧ 0 < maxRows ∧ 0 < maxBytes ∧ maxRows ≤ 200000 ∧
        ∃ head, insertPrefix table columns = .ok head ∧
          cfg = ⟨head, placeholderText columns.length, columns.length, maxRows.toNat,
            maxBytes.toNat, ctx⟩ := by
  rw [PlannerConfig.make]
  by_cases hc : columns = []
  · rw [if_pos hc]
    refine ⟨fun h => ?_, fun h => absurd hc h.1⟩
    cases h
  · rw [if_neg hc]
    by_cases hr : maxRows ≤ 0
    · rw [if_pos hr]
      refine ⟨fun h => ?_, fun h => absurd h.2.1 (by omega)⟩
      cases h
    · rw [if_neg hr]
      by_cases hb : maxBytes ≤ 0
      · rw [if_pos hb]
        refine ⟨fun h => ?_, fun h => absurd h.2.2.1 (by omega)⟩
        cases h
      · rw [if_neg hb]
        by_cases hl : 200000 < maxRows
        · rw [if_pos hl]
          refine ⟨fun h => ?_, fun h => absurd h.2.2.2.1 (by omega)⟩
          cases h
        · rw [if_neg hl]
          cases hp : insertPrefix table columns with
          | error e =>
            refine ⟨fun h => ?_, fun h => ?_⟩
            · cases h
            · obtain ⟨_, _, _, _, _, he, _⟩ := h
              cases he
          | ok head =>
            refine ⟨fun h => ?_, fun h => ?_⟩
            · cases h
              exact ⟨hc, by omega, by omega, by omega, head, rfl, rfl⟩
            · obtain ⟨_, _, _, _, _, he, rfl⟩ := h
              cases he
              rfl

/-- A configuration that the constructor made for `table` and `columns`. -/
structure PlannerConfig.MadeFor (cfg : PlannerConfig) (table : PyStr) (columns : List PyStr) :
    Prop where
  columns_ne : columns ≠ []
  sqlPrefix : insertPrefix table columns = .ok cfg.sqlPrefix
  placeholder : cfg.placeholder = placeholderText cfg.width
  width : cfg.width = columns.length
  maxRows_pos : 0 < cfg.maxRows

theorem PlannerConfig.MadeFor.width_ne {cfg : PlannerConfig} {table : PyStr}
    {columns : List PyStr} (h : cfg.MadeFor table columns) : cfg.width ≠ 0 := by
  rw [h.width]
  exact fun h0 => h.columns_ne (List.eq_nil_of_length_eq_zero h0)

theorem madeFor_of_make {table : PyStr} {columns : List PyStr} {maxRows maxBytes : Int}
    {ctx : ClientContext} {cfg : PlannerConfig}
    (h : PlannerConfig.make table columns maxRows maxBytes ctx = .ok cfg) :
    cfg.MadeFor table columns := by
  obtain ⟨hc, hr, _, _, head, hp, rfl⟩ := make_eq_ok.mp h
  exact ⟨hc, hp, rfl, rfl, show 0 < maxRows.toNat by omega⟩

theorem ctx_of_make {table : PyStr} {columns : List PyStr} {maxRows maxBytes : Int}
    {ctx : ClientContext} {cfg : PlannerConfig}
    (h : PlannerConfig.make table columns maxRows maxBytes ctx = .ok cfg) : cfg.ctx = ctx := by
  obtain ⟨_, _, _, _, _, _, rfl⟩ := make_eq_ok.mp h
  rfl

/-! ### Reachable planners -/

/-- A planner reached by calls of `next_batch` and `confirm`, and the number of rows it has
emitted. -/
inductive Planner.Reach (cfg : PlannerConfig) (src : Source) : Planner → Nat → Prop
  | initial : Reach cfg src {} 0
  | batch {p p' : Planner} {s : Nat} {b : PreparedBatch} : Reach cfg src p s →
      p.nextBatch cfg src = (.ok (some b), p') → Reach cfg src p' (s + b.rowCount)
  | ended {p p' : Planner} {s : Nat} : Reach cfg src p s →
      p.nextBatch cfg src = (.ok none, p') → Reach cfg src p' s
  | confirm {p : Planner} {s : Nat} (b : PreparedBatch) (rowsAffected : Int) :
      Reach cfg src p s → Reach cfg src (p.confirm b rowsAffected) s

section Batches

variable {cfg : PlannerConfig} {src : Source} {table : PyStr} {columns : List PyStr}

theorem Planner.At.confirm {p : Planner} {s : Nat} (h : p.At cfg src s) (b : PreparedBatch)
    (rowsAffected : Int) : (p.confirm b rowsAffected).At cfg src s where
  sound := ⟨h.sound.context, h.sound.iterated, h.sound.iterCalls, h.sound.started⟩
  place := by
    cases h.place with
    | before hp he hc hn => exact .before hp he hc hn
    | ended hp he hc hn hstop => exact .ended hp he hc hn hstop
    | ahead row hp he hc hn hrow => exact .ahead row hp he hc hn hrow

/-- **A reachable planner stands before the next row** to emit. -/
theorem Planner.Reach.at {p : Planner} {s : Nat} (hcfg : cfg.MadeFor table columns)
    (h : Reach cfg src p s) : p.At cfg src s := by
  induction h with
  | initial => exact at_initial cfg src
  | @batch p p' s b _ hnext ih =>
    have hspec := nextBatch_spec hcfg.width_ne hcfg.placeholder hcfg.maxRows_pos ih
    rw [hnext] at hspec
    cases hspec with
    | batch _ _ hcarries _ _ hat _ =>
      rw [hcarries.rowCount]
      exact hat
  | ended _ hnext ih =>
    have hspec := nextBatch_spec hcfg.width_ne hcfg.placeholder hcfg.maxRows_pos ih
    rw [hnext] at hspec
    cases hspec with
    | ended _ hat _ => exact hat
  | confirm b n _ ih => exact ih.confirm b n

/-! ### Agreement -/

/-- The source yields `rows` from position `s` on. -/
def Source.Lists (src : Source) (s : Nat) (rows : List (List Value)) : Prop :=
  ∀ i, (h : i < rows.length) → src.next (s + i) = .row (.sequence rows[i])

/-- **The plain path gives this batch** for `rows`: its statement and parameters, its content as
one encoded payload, and bindings with the keys `"1"` to `"n"` on the cells in row-major
order. -/
structure PreparedBatch.Agrees (b : PreparedBatch) (table : PyStr) (columns : List PyStr)
    (ctx : ClientContext) (rows : List (List Value)) : Prop where
  rowCount : b.rowCount = rows.length
  statement : insertStatement table columns rows = .ok (some (b.sql, b.params))
  content : ∃ payload bindings, ctx.buildPayload b.sql b.params = .ok payload ∧
    encode (.obj payload) = .ok b.content ∧
    Dict.get? payload (py "bindings") = some (bindingsJson bindings) ∧
    bindings.map Prod.fst =
      (List.range (rows.length * columns.length)).map (fun i => strNat (i + 1)) ∧
    List.Forall₂ (fun v (kb : PyStr × BindingValue) => bindOne v = .ok kb.2) rows.flatten bindings

theorem RowsAt.lists {s : Nat} {rows : List EncodedRow} (h : RowsAt cfg src s rows) :
    src.Lists s (rows.map Prod.fst) := by
  intro i hi
  rw [List.length_map] at hi
  obtain ⟨_, r, hnext, hr⟩ := examine_eq_row.mp (h i hi)
  rw [hnext, List.getElem_map, ← (encodeRecord_eq_ok.mp (examineRecord_eq_ok.mp hr).1).1]

theorem flatten_length {width : Nat} {rows : List (List Value)}
    (h : ∀ row ∈ rows, row.length = width) : rows.flatten.length = rows.length * width := by
  rw [List.length_flatten, List.map_congr_left h]
  simp

theorem toBindings_keys {params : List Value} {bindings : List (PyStr × BindingValue)}
    (h : toBindings params = .ok bindings) :
    bindings.map Prod.fst = (List.range params.length).map (fun i => strNat (i + 1)) ∧
      List.Forall₂ (fun v (kb : PyStr × BindingValue) => bindOne v = .ok kb.2) params bindings := by
  obtain ⟨vs, hvs, rfl⟩ := toBindingsFrom_eq_ok.mp h
  refine ⟨?_, ?_⟩
  · rw [map_mapIdx, hvs.length_eq]
    exact List.ext_getElem (by simp) fun i _ _ => by simp [Nat.add_comm 1]
  · have hsnd := mapIdx_snd (fun i => strNat (1 + i)) vs
    rw [← hsnd, List.forall₂_map_right_iff] at hvs
    exact hvs

theorem PreparedBatch.Carries.agrees {b : PreparedBatch} {rows : List EncodedRow}
    (hcfg : cfg.MadeFor table columns) (hne : rows ≠ [])
    (hvalid : ∀ row ∈ rows, row.Valid cfg.width) (h : b.Carries cfg rows) :
    b.Agrees table columns cfg.ctx (rows.map Prod.fst) := by
  have hwidth : ∀ row ∈ rows.map Prod.fst, row.length = columns.length := by
    intro row hrow
    obtain ⟨er, her, rfl⟩ := List.mem_map.mp hrow
    rw [(hvalid er her).1, hcfg.width]
  have hflat : rows.flatMap Prod.fst = (rows.map Prod.fst).flatten := List.flatMap_def ..
  have hcells := forall₂_flatMap_cells hvalid
  obtain ⟨bindings, hb, _⟩ := encode_bindings hcells
  have hparams : b.params ≠ [] := by
    rw [h.params]
    intro he
    rw [he, List.forall₂_nil_left_iff] at hcells
    exact flatMap_snd_ne_nil hcfg.width_ne hne hvalid hcells
  obtain ⟨hkeys, hbound⟩ := toBindings_keys hb
  rw [hflat, flatten_length hwidth] at hkeys
  rw [hflat] at hbound
  rw [← h.params] at hb
  have hpayload := cfg.ctx.buildPayload_eq hparams hb b.sql
  have hcontent := h.content
  rw [payloadBytes, hpayload] at hcontent
  refine ⟨by rw [h.rowCount, List.length_map], ?_, _, bindings, hpayload, hcontent, ?_, hkeys, hbound⟩
  · refine insertStatement_eq_ok.mpr ⟨hcfg.columns_ne, by simpa using hne, hwidth, ?_, _,
      hcfg.sqlPrefix, ?_⟩
    · rw [h.params, hflat]
    · rw [h.sql, hcfg.width, List.length_map]
  · refine Dict.get?_concat ?_ _
    exact ((ClientContext.keyed_single _ _).append cfg.ctx.keyed_contextItems).notMem (by decide)

/-- **The incremental encoder agrees with the plain path**: whatever a planner has done before,
a batch it emits is the plain one for the next rows of the source. -/
theorem nextBatch_agrees {maxRows maxBytes : Int} {ctx : ClientContext} {p p' : Planner} {s : Nat}
    {b : PreparedBatch}
    (hcfg : PlannerConfig.make table columns maxRows maxBytes ctx = .ok cfg)
    (hreach : Planner.Reach cfg src p s) (hnext : p.nextBatch cfg src = (.ok (some b), p')) :
    ∃ rows, src.Lists s rows ∧ b.Agrees table columns ctx rows := by
  have hmade := madeFor_of_make hcfg
  have hspec := nextBatch_spec hmade.width_ne hmade.placeholder hmade.maxRows_pos (hreach.at hmade)
  rw [hnext] at hspec
  cases hspec with
  | batch hne hrows hcarries _ _ _ _ =>
    rw [← ctx_of_make hcfg]
    exact ⟨_, hrows.lists, hcarries.agrees hmade hne hrows.valid⟩

/-! ### The text of the statements -/

theorem exists_insertPrefix (hname : ∃ q, quoteName table = .ok q)
    (hcolumns : ∀ c ∈ columns, ∃ q, quoteIdentifier c = .ok q) :
    ∃ head, insertPrefix table columns = .ok head := by
  obtain ⟨name, hname⟩ := hname
  obtain ⟨cols, hcols⟩ := exists_mapM_ok hcolumns
  exact ⟨_, insertPrefix_eq_ok.mpr ⟨cols, name, hcols, hname, rfl⟩⟩

theorem insertStatement_tokens {rows : List (List Value)} {sql : PyStr} {params : List Value}
    (h : insertStatement table columns rows = .ok (some (sql, params))) :
    lex sql = some (insertTokens table columns rows.length) ∧
      (insertTokens table columns rows.length).count (.punct (ch '?')) = params.length := by
  obtain ⟨hcols, hrows, hwidth, rfl, head, hprefix, rfl⟩ := insertStatement_eq_ok.mp h
  have hlen : rows.length ≠ 0 := fun h0 => hrows (List.eq_nil_of_length_eq_zero h0)
  refine ⟨lex_insertPrefix_valuesText hcols hlen hprefix, ?_⟩
  rw [count_insertTokens, flatten_length hwidth]

/-- **No name breaks out of an `INSERT`**: for accepted names the statement of the plain path and
of every batch is exactly its tokens, the identifiers among them being the caller's names, with one
placeholder for each bound value. -/
theorem insert_tokens (hcols : columns ≠ []) (hname : ∃ q, quoteName table = .ok q)
    (hcolumns : ∀ c ∈ columns, ∃ q, quoteIdentifier c = .ok q) :
    (∀ rows : List (List Value), rows ≠ [] → (∀ row ∈ rows, row.length = columns.length) →
      ∃ sql params, insertStatement table columns rows = .ok (some (sql, params)) ∧
        lex sql = some (insertTokens table columns rows.length) ∧
        (insertTokens table columns rows.length).count (.punct (ch '?')) = params.length) ∧
    (∀ {maxRows maxBytes : Int} {ctx : ClientContext} {cfg : PlannerConfig} {src : Source}
        {p p' : Planner} {s : Nat} {b : PreparedBatch},
      PlannerConfig.make table columns maxRows maxBytes ctx = .ok cfg →
      Planner.Reach cfg src p s → p.nextBatch cfg src = (.ok (some b), p') →
        lex b.sql = some (insertTokens table columns b.rowCount) ∧
        (insertTokens table columns b.rowCount).count (.punct (ch '?')) = b.params.length) := by
  refine ⟨fun rows hrows hwidth => ?_, fun hcfg hreach hnext => ?_⟩
  · obtain ⟨head, hprefix⟩ := exists_insertPrefix hname hcolumns
    have hinsert := insertStatement_eq_ok.mpr
      ⟨hcols, hrows, hwidth, rfl, head, hprefix, rfl⟩
    exact ⟨_, _, hinsert, insertStatement_tokens hinsert⟩
  · have hmade := madeFor_of_make hcfg
    have hspec := nextBatch_spec hmade.width_ne hmade.placeholder hmade.maxRows_pos
      (hreach.at hmade)
    rw [hnext] at hspec
    cases hspec with
    | batch hne hrows hcarries _ _ _ _ =>
      have hagrees := hcarries.agrees hmade hne hrows.valid
      rw [hagrees.rowCount]
      exact insertStatement_tokens hagrees.statement

end Batches

/-! ### Two rows in two batches

The byte limit is one short of the body of both rows, so the second row is kept as pending and
encoded again from offset 0. The names hold quotes, a placeholder, a comment and a newline. -/

def hostileTable : PyStr := py "s.\"t\";--"

def hostileColumns : List PyStr := [py "a?", py "b\n\""]

def pairContext : ClientContext where
  statementTimeout := some 30
  database := some (py "db")

def pairConfig : PlannerConfig where
  sqlPrefix := py "INSERT INTO \"s\".\"\"\"t\"\";--\" (\"a?\", \"b\n\"\"\") VALUES "
  placeholder := py "(?, ?)"
  width := 2
  maxRows := 3
  maxBytes := 273
  ctx := pairContext

def pairSource : Source where
  next
    | 0 => .row (.sequence [.int 1, .str (py "é?")])
    | 1 => .row (.sequence [.none, .bool true])
    | _ => .stop

theorem make_pairConfig :
    PlannerConfig.make hostileTable hostileColumns 3 273 pairContext = .ok pairConfig := by rfl

def emitsBatch : Except Raised (Option PreparedBatch) × Planner → Bool
  | (.ok (some _), _) => true
  | _ => false

theorem eq_of_emitsBatch {x : Except Raised (Option PreparedBatch) × Planner}
    (h : emitsBatch x = true) : ∃ b, x = (.ok (some b), x.2) := by
  match x, h with
  | (.ok (some b), p), _ => exact ⟨b, rfl⟩

theorem nextBatch_pairSource : ∃ b,
    ({} : Planner).nextBatch pairConfig pairSource =
      (.ok (some b), (({} : Planner).nextBatch pairConfig pairSource).2) :=
  eq_of_emitsBatch (by decide +kernel)

theorem nextBatch_agrees_pairSource : ∃ b b' p p',
    ({} : Planner).nextBatch pairConfig pairSource = (.ok (some b), p) ∧
    p.nextBatch pairConfig pairSource = (.ok (some b'), p') ∧
    ∃ rows, pairSource.Lists (0 + b.rowCount) rows ∧
      b'.Agrees hostileTable hostileColumns pairContext rows := by
  obtain ⟨b, hfirst⟩ := nextBatch_pairSource
  have hsecond : emitsBatch ((({} : Planner).nextBatch pairConfig pairSource).2.nextBatch pairConfig
      pairSource) = true := by decide +kernel
  obtain ⟨b', hb'⟩ := eq_of_emitsBatch hsecond
  exact ⟨b, b', _, _, hfirst, hb',
    nextBatch_agrees make_pairConfig (.batch .initial hfirst) hb'⟩

theorem insert_tokens_pairSource :
    (∃ sql params, insertStatement hostileTable hostileColumns
        [[.int 1, .none], [.int 2, .bool true]] = .ok (some (sql, params)) ∧
      lex sql = some (insertTokens hostileTable hostileColumns 2) ∧
      (insertTokens hostileTable hostileColumns 2).count (.punct (ch '?')) = params.length) ∧
    ∃ b p, ({} : Planner).nextBatch pairConfig pairSource = (.ok (some b), p) ∧
      lex b.sql = some (insertTokens hostileTable hostileColumns b.rowCount) ∧
      (insertTokens hostileTable hostileColumns b.rowCount).count (.punct (ch '?')) =
        b.params.length := by
  have hname : ∃ q, quoteName hostileTable = .ok q := ⟨_, rfl⟩
  have hcolumns : ∀ c ∈ hostileColumns, ∃ q, quoteIdentifier c = .ok q := by
    simp [hostileColumns, quoteIdentifier, py, ch]
  have htokens := insert_tokens (by decide) hname hcolumns
  obtain ⟨b, hb⟩ := nextBatch_pairSource
  exact ⟨htokens.1 _ (by simp) (by simp [hostileColumns]),
    b, _, hb, htokens.2 make_pairConfig .initial hb⟩

end SnowflakeSqlApi
