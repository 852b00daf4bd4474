import SnowflakeSqlApi.Batches.Encoder
import SnowflakeSqlApi.Lib.GreedySplit

/-!
# What the planner has done so far

`PlannerConfig.examine` is the source as the planner judges it, position by position: a
row that fits alone, a fault, or the end.  `Planner.At` places a planner before a
position of the source, whether or not it holds the row there as pending, and
`Buffer.Holds` is a buffer with the rows it stands for.

What one call does is said in these terms: the rows it takes are the next ones, it
stops where `examine` does or where one more row would not fit, and the running size is
the size of the body, so the last check of `next_batch` is never the one that fails.
-/

namespace SnowflakeSqlApi

/-! ### The source, position by position -/

/-- What a planner finds at a position of the source. -/
inductive Examined
  | row (row : EncodedRow)
  | fault (phase : BatchPhase) (cause : Exc)
  | stop

namespace PlannerConfig

/-- The checks on the record at position `k`, by itself. -/
def examineRecord (cfg : PlannerConfig) (k : Nat) (r : Record) : Except Exc EncodedRow := do
  let row ← encodeRecord cfg.width r
  let (_, overhead) ← cfg.freshContext
  let first ← fragment row.2 0
  if cfg.maxBytes < overhead + first.length then
    .error (.config [lit "row ", .int k, lit " exceeds max_bytes=", .int cfg.maxBytes])
  else .ok row

/-- The source at position `k`, by itself. -/
def examine (cfg : PlannerConfig) (src : Source) (k : Nat) : Examined :=
  match src.iter with
  | some e => .fault .input e
  | none =>
    match src.next k with
    | .stop => .stop
    | .raised e => .fault .input e
    | .row r =>
      match cfg.examineRecord k r with
      | .ok row => .row row
      | .error e => .fault .validation e

/-- The size of a body without bindings. -/
def overhead (cfg : PlannerConfig) : Nat :=
  match cfg.freshContext with
  | .ok c => c.2
  | .error _ => 0

/-- The size of the body of `rows`. -/
def measure (cfg : PlannerConfig) (rows : List EncodedRow) : Nat :=
  cfg.overhead + (rows.length - 1) * (2 + cfg.placeholder.length)
    + ([44].intercalate (keyedParts 0 (rows.flatMap Prod.snd))).length

/-- The rows of one batch. -/
def Fits (cfg : PlannerConfig) (rows : List EncodedRow) : Prop :=
  rows.length ≤ cfg.maxRows ∧ cfg.measure rows ≤ cfg.maxBytes

end PlannerConfig

/-- A validated record of the given width. -/
def EncodedRow.Valid (width : Nat) (row : EncodedRow) : Prop :=
  row.1.length = width ∧ List.Forall₂ CellEncodes row.1 row.2

theorem EncodedRow.Valid.length_eq {width : Nat} {row : EncodedRow} (h : row.Valid width) :
    row.1.length = row.2.length := h.2.length_eq

section ExamineRecord

variable {cfg : PlannerConfig} {k : Nat} {r : Record} {row : EncodedRow} {e : Exc}

/-- A record that cannot be encoded. -/
theorem examineRecord_of_encode (h : encodeRecord cfg.width r = .error e) :
    cfg.examineRecord k r = .error e := by
  rw [PlannerConfig.examineRecord, h]
  rfl

/-- A record met where the context cannot be had. -/
theorem examineRecord_of_context (henc : encodeRecord cfg.width r = .ok row)
    (hctx : cfg.freshContext = .error e) : cfg.examineRecord k r = .error e := by
  rw [PlannerConfig.examineRecord, henc, hctx]
  rfl

/-- A record that is encoded is checked for its size alone. -/
theorem examineRecord_of_fresh (henc : encodeRecord cfg.width r = .ok row)
    (hctx : ∃ c, cfg.freshContext = .ok (c, cfg.overhead)) :
    cfg.examineRecord k r = if cfg.maxBytes < cfg.measure [row] then
      .error (.config [lit "row ", .int k, lit " exceeds max_bytes=", .int cfg.maxBytes])
      else .ok row := by
  obtain ⟨c, hc⟩ := hctx
  have hmeasure : cfg.measure [row] =
      cfg.overhead + ([44].intercalate (keyedParts 0 row.2)).length := by
    simp [PlannerConfig.measure]
  rw [PlannerConfig.examineRecord, henc, hc]
  dsimp only [bind, Except.bind]
  rw [fragment_eq]
  dsimp only
  rw [← hmeasure]

theorem examineRecord_of_oversize (henc : encodeRecord cfg.width r = .ok row)
    (hctx : ∃ c, cfg.freshContext = .ok (c, cfg.overhead)) (hover : cfg.maxBytes < cfg.measure [row]) :
    cfg.examineRecord k r = .error (.config [lit "row ", .int k, lit " exceeds max_bytes=",
      .int cfg.maxBytes]) := by
  rw [examineRecord_of_fresh henc hctx, if_pos hover]

theorem exists_fresh {made : Bytes × Nat} (h : cfg.freshContext = .ok made) :
    ∃ c, cfg.freshContext = .ok (c, cfg.overhead) :=
  ⟨made.1, by rw [h, PlannerConfig.overhead, h]⟩

theorem examineRecord_eq_ok :
    cfg.examineRecord k r = .ok row ↔ encodeRecord cfg.width r = .ok row ∧
      (∃ c, cfg.freshContext = .ok (c, cfg.overhead)) ∧ cfg.measure [row] ≤ cfg.maxBytes := by
  constructor
  · intro h
    cases henc : encodeRecord cfg.width r with
    | error e =>
      rw [examineRecord_of_encode henc] at h
      cases h
    | ok row' =>
      cases hctx : cfg.freshContext with
      | error e =>
        rw [examineRecord_of_context henc hctx] at h
        cases h
      | ok c =>
        have hfresh := exists_fresh hctx
        rw [examineRecord_of_fresh henc hfresh] at h
        by_cases hlt : cfg.maxBytes < cfg.measure [row']
        · rw [if_pos hlt] at h
          cases h
        · rw [if_neg hlt] at h
          cases h
          exact ⟨rfl, ⟨c.1, by rw [PlannerConfig.overhead, hctx]⟩, not_lt.mp hlt⟩
  · rintro ⟨henc, hctx, hle⟩
    rw [examineRecord_of_fresh henc hctx, if_neg (not_lt.mpr hle)]

end ExamineRecord

theorem examine_eq_row {cfg : PlannerConfig} {src : Source} {k : Nat} {row : EncodedRow} :
    cfg.examine src k = .row row ↔
      src.iter = none ∧ ∃ r, src.next k = .row r ∧ cfg.examineRecord k r = .ok row := by
  rw [PlannerConfig.examine]
  cases src.iter with
  | some e => simp
  | none =>
    cases src.next k with
    | stop => simp
    | raised e => simp
    | row r => cases hr : cfg.examineRecord k r <;> simp [hr]

theorem examine_eq_stop {cfg : PlannerConfig} {src : Source} {k : Nat} :
    cfg.examine src k = .stop ↔ src.iter = none ∧ src.next k = .stop := by
  rw [PlannerConfig.examine]
  cases src.iter with
  | some e => simp
  | none =>
    cases src.next k with
    | stop => simp
    | raised e => simp
    | row r => cases hr : cfg.examineRecord k r <;> simp [hr]

/-- No row is where the source has a fault. -/
theorem ne_row_of_fault {cfg : PlannerConfig} {src : Source} {k : Nat} {phase : BatchPhase}
    {cause : Exc} (h : cfg.examine src k = .fault phase cause) (row : EncodedRow) :
    cfg.examine src k ≠ .row row := by
  rw [h]
  exact fun heq => by cases heq

/-- No row is where the source ends. -/
theorem ne_row_of_stop {cfg : PlannerConfig} {src : Source} {k : Nat}
    (h : cfg.examine src k = .stop) (row : EncodedRow) : cfg.examine src k ≠ .row row := by
  rw [h]
  exact fun heq => by cases heq

theorem examine_eq_fault_validation {cfg : PlannerConfig} {src : Source} {k : Nat} {r : Record}
    {e : Exc} (hiter : src.iter = none) (hnext : src.next k = .row r)
    (h : cfg.examineRecord k r = .error e) : cfg.examine src k = .fault .validation e := by
  rw [PlannerConfig.examine, hiter, hnext]
  dsimp only
  rw [h]

/-- The rows of the source from position `s` on. -/
def RowsAt (cfg : PlannerConfig) (src : Source) (s : Nat) (rows : List EncodedRow) : Prop :=
  ∀ i, (h : i < rows.length) → cfg.examine src (s + i) = .row rows[i]

theorem RowsAt.nil {cfg : PlannerConfig} {src : Source} {s : Nat} : RowsAt cfg src s [] := by
  intro i h
  exact absurd h (Nat.not_lt_zero i)

theorem RowsAt.snoc {cfg : PlannerConfig} {src : Source} {s : Nat} {rows : List EncodedRow}
    {row : EncodedRow} (h : RowsAt cfg src s rows)
    (hrow : cfg.examine src (s + rows.length) = .row row) : RowsAt cfg src s (rows ++ [row]) := by
  intro i hi
  by_cases hlt : i < rows.length
  · rw [List.getElem_append_left hlt]
    exact h i hlt
  · rw [List.length_append, List.length_singleton] at hi
    obtain rfl : i = rows.length := by omega
    rw [List.getElem_append_right (by omega)]
    simpa using hrow

theorem RowsAt.valid {cfg : PlannerConfig} {src : Source} {s : Nat} {rows : List EncodedRow}
    (h : RowsAt cfg src s rows) : ∀ row ∈ rows, row.Valid cfg.width := by
  intro row hmem
  obtain ⟨i, hi, rfl⟩ := List.mem_iff_getElem.mp hmem
  obtain ⟨_, r, _, hr⟩ := examine_eq_row.mp (h i hi)
  exact (encodeRecord_eq_ok.mp (examineRecord_eq_ok.mp hr).1).2

/-- The cells of validated rows and their encodings, end to end. -/
theorem forall₂_flatMap_cells {width : Nat} {rows : List EncodedRow}
    (h : ∀ row ∈ rows, row.Valid width) :
    List.Forall₂ CellEncodes (rows.flatMap Prod.fst) (rows.flatMap Prod.snd) := by
  induction rows with
  | nil => exact .nil
  | cons row rows ih =>
    rw [List.flatMap_cons, List.flatMap_cons]
    exact List.rel_append (h row (by simp)).2 (ih fun row' hrow' => h row' (by simp [hrow']))

/-! ### Sizes -/

section Measure

variable {cfg : PlannerConfig} {rows : List EncodedRow} {row : EncodedRow}

theorem flatMap_snd_ne_nil {width : Nat} (hwidth : width ≠ 0) (hne : rows ≠ [])
    (h : ∀ row ∈ rows, row.Valid width) : rows.flatMap Prod.snd ≠ [] := by
  cases rows with
  | nil => exact absurd rfl hne
  | cons row rows =>
    have hrow := h row (by simp)
    have hlen : row.2.length ≠ 0 := by rw [← hrow.length_eq, hrow.1]; exact hwidth
    intro he
    rw [List.flatMap_cons, List.append_eq_nil_iff] at he
    exact hlen (by rw [he.1]; rfl)

/-- **One more row adds** a separator and a placeholder to the statement, and a comma and its
fragment to the bindings. -/
theorem measure_snoc (hwidth : cfg.width ≠ 0) (hne : rows ≠ [])
    (h : ∀ row ∈ rows, row.Valid cfg.width) (hrow : row.Valid cfg.width) :
    cfg.measure (rows ++ [row]) = cfg.measure rows + 2 + cfg.placeholder.length + 1
      + ([44].intercalate (keyedParts (rows.flatMap Prod.fst).length row.2)).length := by
  have hlen : (rows.flatMap Prod.fst).length = (rows.flatMap Prod.snd).length :=
    (forall₂_flatMap_cells h).length_eq
  have hfirst := keyedParts_ne_nil (flatMap_snd_ne_nil hwidth hne h) 0
  have hsnd : row.2 ≠ [] := by
    intro he
    have := hrow.length_eq
    rw [he, hrow.1] at this
    exact hwidth this
  have hcount : rows.length - 1 + 1 = rows.length := by
    have := List.length_pos_iff.mpr hne
    omega
  have hmul : rows.length * (2 + cfg.placeholder.length) =
      (rows.length - 1) * (2 + cfg.placeholder.length) + (2 + cfg.placeholder.length) := by
    rw [← Nat.succ_mul, Nat.succ_eq_add_one, hcount]
  rw [PlannerConfig.measure, PlannerConfig.measure, List.flatMap_append, keyedParts_append,
    List.flatMap_singleton, intercalate_append _ hfirst (keyedParts_ne_nil hsnd _), hlen,
    Nat.zero_add]
  simp only [List.length_append, List.length_singleton, Nat.add_sub_cancel, hmul]
  omega

/-- A part of a batch measures no more than the batch. -/
theorem measure_le_append (more : List EncodedRow) :
    cfg.measure rows ≤ cfg.measure (rows ++ more) := by
  have hjoin : ([44].intercalate (keyedParts 0 (rows.flatMap Prod.snd))).length ≤
      ([44].intercalate (keyedParts 0 ((rows ++ more).flatMap Prod.snd))).length := by
    rw [List.flatMap_append, keyedParts_append]
    exact intercalate_length_le _ _ _
  have hcount : rows.length - 1 ≤ (rows ++ more).length - 1 := by
    rw [List.length_append]
    omega
  have hmul := Nat.mul_le_mul_right (2 + cfg.placeholder.length) hcount
  rw [PlannerConfig.measure, PlannerConfig.measure]
  omega

theorem fits_prefixClosed (cfg : PlannerConfig) : GreedySplit.PrefixClosed cfg.Fits := by
  intro xs ys h
  have hlen := h.1
  rw [List.length_append] at hlen
  exact ⟨by omega, (measure_le_append ys).trans h.2⟩

end Measure

/-! ### Planners and buffers -/

/-- Where a planner stands before position `t`: it has not asked for the row there, it knows that
there is none, or it holds it as pending. -/
inductive Planner.Place (cfg : PlannerConfig) (src : Source) (p : Planner) (t : Nat) : Prop
  | before : p.pending = none → p.exhausted = false → p.consumedRows = t → p.nextCalls = t →
      Place cfg src p t
  | ended : p.pending = none → p.exhausted = true → p.consumedRows = t → p.nextCalls = t + 1 →
      cfg.examine src t = .stop → Place cfg src p t
  | ahead (row : EncodedRow) : p.pending = some row → p.exhausted = false →
      p.consumedRows = t + 1 → p.nextCalls = t + 1 → cfg.examine src t = .row row →
      Place cfg src p t

/-- The parts of a planner that do not depend on its position. -/
structure Planner.Sound (cfg : PlannerConfig) (src : Source) (p : Planner) : Prop where
  context : ∀ c, p.context = some c → cfg.freshContext = .ok (c, p.singleOverhead)
  iterated : p.iterated = true → src.iter = none
  iterCalls : p.iterCalls = if p.iterated then 1 else 0
  started : p.nextCalls ≠ 0 → p.iterated = true

structure Planner.At (cfg : PlannerConfig) (src : Source) (p : Planner) (t : Nat) : Prop where
  sound : p.Sound cfg src
  place : p.Place cfg src t

/-- The confirmed progress of two planners is the same. -/
def Planner.SameProgress (p p' : Planner) : Prop :=
  p'.confirmedRows = p.confirmedRows ∧ p'.completed = p.completed

theorem Planner.SameProgress.trans {p p' p'' : Planner} (h : p.SameProgress p')
    (h' : p'.SameProgress p'') : p.SameProgress p'' := ⟨h'.1.trans h.1, h'.2.trans h.2⟩

/-- A buffer of `rows`. -/
structure Buffer.Holds (cfg : PlannerConfig) (rows : List EncodedRow) (buf : Buffer) : Prop where
  params : buf.params = rows.flatMap Prod.fst
  rowCount : buf.rowCount = rows.length
  fragments : [44].intercalate buf.fragments =
    [44].intercalate (keyedParts 0 (rows.flatMap Prod.snd))
  count : buf.fragments.length = rows.length
  size : rows ≠ [] → buf.size = cfg.measure rows
  fits : rows ≠ [] → cfg.measure rows ≤ cfg.maxBytes

theorem Buffer.holds_empty (cfg : PlannerConfig) : Buffer.Holds cfg [] {} where
  params := rfl
  rowCount := rfl
  fragments := rfl
  count := rfl
  size h := absurd rfl h
  fits h := absurd rfl h

theorem Planner.at_initial (cfg : PlannerConfig) (src : Source) : ({} : Planner).At cfg src 0 where
  sound := ⟨by simp, by simp, rfl, fun h => absurd rfl h⟩
  place := .before rfl rfl rfl rfl

/-! ### One record -/

section Steps

variable {cfg : PlannerConfig} {src : Source}

/-- A planner with the record of position `t` in hand. -/
structure Planner.Taken (cfg : PlannerConfig) (src : Source) (p : Planner) (t : Nat)
    (row : EncodedRow) : Prop where
  sound : p.Sound cfg src
  pending : p.pending = none
  exhausted : p.exhausted = false
  consumedRows : p.consumedRows = t + 1
  nextCalls : p.nextCalls = t + 1
  record : src.iter = none ∧ ∃ r, src.next t = .row r ∧ encodeRecord cfg.width r = .ok row

/-- A planner that has stopped on a fault at position `t`. -/
structure Planner.Halted (src : Source) (p : Planner) (t : Nat) (phase : BatchPhase) : Prop where
  iterCalls : p.iterCalls = 1
  nextCalls : src.iter = none → p.nextCalls = t + 1
  consumedRows : p.consumedRows = if phase = .input then t else t + 1

theorem Planner.Taken.halted {p : Planner} {t : Nat} {row : EncodedRow}
    (h : p.Taken cfg src t row) : p.Halted src t .validation where
  iterCalls := by
    have hiterated := h.sound.started (by rw [h.nextCalls]; exact Nat.succ_ne_zero t)
    rw [h.sound.iterCalls, if_pos hiterated]
  nextCalls _ := h.nextCalls
  consumedRows := h.consumedRows

/-- What asking for the record of position `t` comes to. -/
inductive TakeResult (cfg : PlannerConfig) (src : Source) (p : Planner) (t : Nat) :
    Except BatchWriteError (Option EncodedRow) × Planner → Prop
  | ended {p' : Planner} : p'.At cfg src t → cfg.examine src t = .stop → p'.context = p.context →
      p.SameProgress p' → TakeResult cfg src p t (.ok none, p')
  | taken {p' : Planner} {row : EncodedRow} : p'.Taken cfg src t row → p'.context = p.context →
      p.SameProgress p' → TakeResult cfg src p t (.ok (some row), p')
  | faulted {p' : Planner} {phase : BatchPhase} {cause : Exc} :
      cfg.examine src t = .fault phase cause → p'.Halted src t phase → p.SameProgress p' →
      TakeResult cfg src p t (.error (p'.error cause phase), p')

theorem TakeResult.of_kept {p q : Planner} {t : Nat}
    {x : Except BatchWriteError (Option EncodedRow) × Planner} (h : TakeResult cfg src q t x)
    (hcontext : q.context = p.context) (hsame : p.SameProgress q) : TakeResult cfg src p t x := by
  cases h with
  | ended hat hstop hctx hq => exact .ended hat hstop (hctx.trans hcontext) (hsame.trans hq)
  | taken htaken hctx hq => exact .taken htaken (hctx.trans hcontext) (hsame.trans hq)
  | faulted hfault hhalted hq => exact .faulted hfault hhalted (hsame.trans hq)

theorem pullRecord_spec {p : Planner} {t : Nat} (hsound : p.Sound cfg src)
    (hiterated : p.iterated = true) (hpending : p.pending = none)
    (hexhausted : p.exhausted = false) (hconsumed : p.consumedRows = t) (hcalls : p.nextCalls = t) :
    TakeResult cfg src p t (p.pullRecord cfg src) := by
  have hiter := hsound.iterated hiterated
  have hcall : p.iterCalls = 1 := by rw [hsound.iterCalls, hiterated]; rfl
  rw [Planner.pullRecord, hcalls]
  dsimp only
  cases hnext : src.next t with
  | stop =>
    have hstop : cfg.examine src t = .stop := examine_eq_stop.mpr ⟨hiter, hnext⟩
    exact .ended ⟨⟨hsound.context, hsound.iterated, hsound.iterCalls, fun _ => hiterated⟩,
      .ended hpending rfl hconsumed rfl hstop⟩ hstop rfl ⟨rfl, rfl⟩
  | raised e =>
    have hfault : cfg.examine src t = .fault .input e := by
      rw [PlannerConfig.examine, hiter, hnext]
    exact .faulted hfault ⟨hcall, fun _ => rfl, hconsumed⟩ ⟨rfl, rfl⟩
  | row r =>
    dsimp only
    rw [hconsumed]
    cases henc : encodeRecord cfg.width r with
    | error e =>
      have hfault : cfg.examine src t = .fault .validation e :=
        examine_eq_fault_validation hiter hnext (examineRecord_of_encode henc)
      exact .faulted hfault ⟨hcall, fun _ => rfl, rfl⟩ ⟨rfl, rfl⟩
    | ok row =>
      exact .taken ⟨⟨hsound.context, hsound.iterated, hsound.iterCalls, fun _ => hiterated⟩,
        hpending, hexhausted, rfl, rfl, hiter, r, hnext, henc⟩ rfl ⟨rfl, rfl⟩

/-- **Asking for the next record** finds what the source has there. -/
theorem takeRecord_spec {p : Planner} {t : Nat} (h : p.At cfg src t) :
    TakeResult cfg src p t (p.takeRecord cfg src) := by
  rw [Planner.takeRecord]
  cases h.place with
  | ahead row hpending hexhausted hconsumed hcalls hrow =>
    obtain ⟨hiter, r, hnext, hr⟩ := examine_eq_row.mp hrow
    rw [hpending]
    exact .taken ⟨⟨h.sound.context, h.sound.iterated, h.sound.iterCalls, h.sound.started⟩, rfl,
      hexhausted, hconsumed, hcalls, hiter, r, hnext, (examineRecord_eq_ok.mp hr).1⟩ rfl ⟨rfl, rfl⟩
  | ended hpending hexhausted hconsumed hcalls hstop =>
    rw [hpending]
    dsimp only
    rw [Planner.record, if_pos hexhausted]
    exact .ended h hstop rfl ⟨rfl, rfl⟩
  | before hpending hexhausted hconsumed hcalls =>
    rw [hpending]
    dsimp only
    rw [Planner.record, hexhausted, if_neg Bool.false_ne_true, Planner.startIteration]
    by_cases hiterated : p.iterated = true
    · rw [if_pos hiterated]
      exact pullRecord_spec h.sound hiterated hpending hexhausted hconsumed hcalls
    · have hzero : p.iterCalls = 0 := by rw [h.sound.iterCalls, if_neg hiterated]
      rw [if_neg hiterated, hzero]
      cases hiter : src.iter with
      | some e =>
        have hfault : cfg.examine src t = .fault .input e := by rw [PlannerConfig.examine, hiter]
        have hhalted : ({ p with iterCalls := 0 + 1 } : Planner).Halted src t .input :=
          ⟨rfl, fun hnone => by simp [hiter] at hnone, hconsumed⟩
        exact .faulted hfault hhalted ⟨rfl, rfl⟩
      | none =>
        dsimp only
        have hstarted : ({ p with iterated := true, iterCalls := 0 + 1 } : Planner).Sound cfg src :=
          ⟨h.sound.context, fun _ => hiter, rfl, fun _ => rfl⟩
        exact (pullRecord_spec hstarted rfl hpending hexhausted hconsumed hcalls).of_kept rfl
          ⟨rfl, rfl⟩

/-- What the `try` block of `next_batch` comes to for the record of position `t`, with `rows` in the
buffer. -/
inductive ConsiderResult (cfg : PlannerConfig) (src : Source) (p : Planner) (t : Nat)
    (rows : List EncodedRow) (row : EncodedRow) : Except Exc (Option Buffer × Planner) → Prop
  | refused {cause : Exc} : cfg.examine src t = .fault .validation cause →
      ConsiderResult cfg src p t rows row (.error cause)
  | kept {p' : Planner} : p'.At cfg src t → cfg.examine src t = .row row → p'.context ≠ none →
      rows ≠ [] → cfg.maxBytes < cfg.measure (rows ++ [row]) → p.SameProgress p' →
      ConsiderResult cfg src p t rows row (.ok (none, p'))
  | added {p' : Planner} {buf : Buffer} : p'.At cfg src (t + 1) → cfg.examine src t = .row row →
      p'.context ≠ none → buf.Holds cfg (rows ++ [row]) → p.SameProgress p' →
      ConsiderResult cfg src p t rows row (.ok (some buf, p'))

theorem currentContext_eq {p : Planner} (h : p.Sound cfg src) :
    p.currentContext cfg = cfg.freshContext := by
  rw [Planner.currentContext]
  cases hc : p.context with
  | none => rfl
  | some c => exact (h.context c hc).symm

/-- A buffer with one more row. -/
theorem Buffer.Holds.snoc {rows : List EncodedRow} {row : EncodedRow} {buf : Buffer}
    (h : buf.Holds cfg rows) (hwidth : cfg.width ≠ 0)
    (hrows : ∀ row ∈ rows, row.Valid cfg.width) (hrow : row.Valid cfg.width)
    (hfits : cfg.measure (rows ++ [row]) ≤ cfg.maxBytes) :
    Buffer.Holds cfg (rows ++ [row]) {
      params := buf.params ++ row.1
      fragments := buf.fragments
        ++ [[44].intercalate (keyedParts (rows.flatMap Prod.fst).length row.2)]
      rowCount := buf.rowCount + 1
      size := cfg.measure (rows ++ [row]) } where
  params := by rw [h.params, List.flatMap_append, List.flatMap_singleton]
  rowCount := by rw [h.rowCount, List.length_append, List.length_singleton]
  count := by rw [List.length_append, h.count, List.length_append]; rfl
  size _ := rfl
  fits _ := hfits
  fragments := by
    have hlen : (rows.flatMap Prod.fst).length = (rows.flatMap Prod.snd).length :=
      (forall₂_flatMap_cells hrows).length_eq
    rw [List.flatMap_append, List.flatMap_singleton, keyedParts_append, hlen, Nat.zero_add]
    by_cases hne : rows = []
    · have hnil : buf.fragments = [] := List.eq_nil_of_length_eq_zero (by rw [h.count, hne]; rfl)
      subst hne
      rw [hnil]
      simp [keyedParts]
    · have hfragments : buf.fragments ≠ [] := by
        intro he
        have hcount := h.count
        rw [he] at hcount
        exact hne (List.eq_nil_of_length_eq_zero hcount.symm)
      have hsnd : row.2 ≠ [] := by
        have hsingle : [row].flatMap Prod.snd ≠ [] :=
          flatMap_snd_ne_nil hwidth (List.cons_ne_nil _ _) (by simpa using hrow)
        simpa using hsingle
      rw [intercalate_append _ hfragments (List.cons_ne_nil _ _), h.fragments,
        intercalate_append _ (keyedParts_ne_nil (flatMap_snd_ne_nil hwidth hne hrows) 0)
          (keyedParts_ne_nil hsnd _)]
      simp

/-- **One record**: it is refused when it does not fit alone, kept when it does not fit the buffer,
and added otherwise. -/
theorem consider_spec {p : Planner} {t : Nat} {rows : List EncodedRow} {row : EncodedRow}
    {buf : Buffer} (hwidth : cfg.width ≠ 0) (htaken : p.Taken cfg src t row)
    (hrows : ∀ row ∈ rows, row.Valid cfg.width) (hbuf : buf.Holds cfg rows) :
    ConsiderResult cfg src p t rows row (p.consider cfg row buf) := by
  obtain ⟨hiter, r, hnext, henc⟩ := htaken.record
  have hvalid : row.Valid cfg.width := (encodeRecord_eq_ok.mp henc).2
  rw [Planner.consider, currentContext_eq htaken.sound]
  cases hctx : cfg.freshContext with
  | error e =>
    exact .refused (examine_eq_fault_validation hiter hnext (examineRecord_of_context henc hctx))
  | ok c =>
    have hover : cfg.overhead = c.2 := by rw [PlannerConfig.overhead, hctx]
    have hfresh : cfg.freshContext = .ok (c.1, cfg.overhead) := by rw [hctx, hover]
    have hsingle : c.2 + ([44].intercalate (keyedParts 0 row.2)).length = cfg.measure [row] := by
      simp [PlannerConfig.measure, hover]
    have hindex : (p.consumedRows : Int) - 1 = t := by rw [htaken.consumedRows]; omega
    dsimp only [bind, Except.bind]
    rw [fragment_eq]
    dsimp only
    rw [hsingle, hindex]
    by_cases hlt : cfg.maxBytes < cfg.measure [row]
    · rw [if_pos hlt]
      exact .refused (examine_eq_fault_validation hiter hnext
        (examineRecord_of_oversize henc ⟨c.1, hfresh⟩ hlt))
    · have hle : cfg.measure [row] ≤ cfg.maxBytes := by omega
      have hexamine : cfg.examine src t = .row row := examine_eq_row.mpr
        ⟨hiter, r, hnext, examineRecord_eq_ok.mpr ⟨henc, ⟨c.1, hfresh⟩, hle⟩⟩
      have hsound : ({ p with context := some c.1, singleOverhead := c.2 } : Planner).Sound cfg src :=
        ⟨fun c' hc' => by cases hc'; exact hctx, htaken.sound.iterated, htaken.sound.iterCalls,
          htaken.sound.started⟩
      have hnextAt : ({ p with context := some c.1, singleOverhead := c.2 } : Planner).At cfg src
          (t + 1) := ⟨hsound, .before htaken.pending htaken.exhausted htaken.consumedRows
            htaken.nextCalls⟩
      rw [if_neg hlt, hbuf.rowCount]
      by_cases hne : rows = []
      · subst hne
        have hadded := hbuf.snoc hwidth hrows hvalid hle
        rw [List.length_nil, if_pos rfl, if_pos rfl, if_neg hlt]
        simp only [hbuf.rowCount, List.length_nil] at hadded
        exact .added hnextAt hexamine (Option.some_ne_none _) hadded ⟨rfl, rfl⟩
      · have hlen : rows.length ≠ 0 := fun h0 => hne (List.eq_nil_of_length_eq_zero h0)
        have hmeasure := measure_snoc hwidth hne hrows hvalid
        rw [if_neg hlen, fragment_eq]
        dsimp only
        rw [if_neg hlen, hbuf.params, hbuf.size hne, ← hmeasure]
        by_cases hover' : cfg.maxBytes < cfg.measure (rows ++ [row])
        · rw [if_pos hover']
          exact .kept ⟨⟨hsound.context, hsound.iterated, hsound.iterCalls, hsound.started⟩,
            .ahead row rfl htaken.exhausted htaken.consumedRows htaken.nextCalls hexamine⟩ hexamine
            (Option.some_ne_none _) hne hover' ⟨rfl, rfl⟩
        · have hadded := hbuf.snoc hwidth hrows hvalid (by omega)
          rw [if_neg hover']
          rw [hbuf.params, hbuf.rowCount] at hadded
          exact .added hnextAt hexamine (Option.some_ne_none _) hadded ⟨rfl, rfl⟩

end Steps

end SnowflakeSqlApi
