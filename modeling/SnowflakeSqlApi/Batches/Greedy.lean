import SnowflakeSqlApi.Batches.Invariant

/-!
# One call of `next_batch`

`next_batch` takes the longest run of rows that fits.  It fills a buffer until it is full, or one
more row would not fit, or the source stops or fails (`fill_spec`), and builds the body of what
it has (`flush_spec`).  `nextBatch_spec` is the two together, from any position of the source.
-/

namespace SnowflakeSqlApi

open GreedySplit

section Calls

variable {cfg : PlannerConfig} {src : Source}

/-- A planner in the loop of `next_batch`, with `rows` in its buffer since position `s`. -/
structure Planner.Filling (cfg : PlannerConfig) (src : Source) (p : Planner) (s : Nat)
    (rows : List EncodedRow) (buf : Buffer) : Prop where
  place : p.At cfg src (s + rows.length)
  buffered : RowsAt cfg src s rows
  holds : buf.Holds cfg rows
  context : rows ≠ [] → p.context ≠ none

/-- There is no further row after `rows`, or it does not fit with them. -/
def Closes (cfg : PlannerConfig) (src : Source) (s : Nat) (rows : List EncodedRow) : Prop :=
  cfg.examine src (s + rows.length) = .stop ∨
    ∃ row, cfg.examine src (s + rows.length) = .row row ∧ rows ≠ [] ∧
      cfg.maxBytes < cfg.measure (rows ++ [row])

/-- What the loop of `next_batch` comes to when `n` more rows are allowed. -/
inductive FillResult (cfg : PlannerConfig) (src : Source) (p : Planner) (s n : Nat)
    (rows : List EncodedRow) : Except BatchWriteError Buffer × Planner → Prop
  | filled {p' : Planner} {buf : Buffer} {all more : List EncodedRow} :
      all = rows ++ more → p'.Filling cfg src s all buf → more.length ≤ n →
      more.length = n ∨ Closes cfg src s all → p.SameProgress p' →
      FillResult cfg src p s n rows (.ok buf, p')
  | faulted {p' : Planner} {all more : List EncodedRow} {phase : BatchPhase} {cause : Exc} :
      all = rows ++ more → RowsAt cfg src s all → more.length < n →
      (all ≠ [] → cfg.measure all ≤ cfg.maxBytes) →
      cfg.examine src (s + all.length) = .fault phase cause →
      p'.Halted src (s + all.length) phase → p.SameProgress p' →
      FillResult cfg src p s n rows (.error (p'.error cause phase), p')

/-- The loop after one more row is the loop. -/
theorem FillResult.of_snoc {p q : Planner} {s n : Nat} {rows : List EncodedRow} {row : EncodedRow}
    {x : Except BatchWriteError Buffer × Planner} (hsame : p.SameProgress q)
    (h : FillResult cfg src q s n (rows ++ [row]) x) : FillResult cfg src p s (n + 1) rows x := by
  have happ : ∀ more, rows ++ [row] ++ more = rows ++ row :: more := by simp
  cases h with
  | filled hall hfilling hle hclose hq =>
    rw [happ] at hall
    refine .filled hall hfilling (Nat.succ_le_succ hle) ?_ (hsame.trans hq)
    exact hclose.imp_left (congrArg Nat.succ)
  | faulted hall hrows hlt hfits hfault hhalted hq =>
    rw [happ] at hall
    exact .faulted hall hrows (Nat.succ_lt_succ hlt) hfits hfault hhalted (hsame.trans hq)

/-- **The loop of `next_batch`** takes rows until none is allowed any more, or there is no further
row that fits, or it meets a fault. -/
theorem fill_spec (hwidth : cfg.width ≠ 0) {s n : Nat} {rows : List EncodedRow} {buf : Buffer}
    {p : Planner} (h : p.Filling cfg src s rows buf) :
    FillResult cfg src p s n rows (p.fill cfg src n buf) := by
  have hnil : rows = rows ++ [] := (List.append_nil rows).symm
  induction n generalizing rows buf p with
  | zero =>
    rw [Planner.fill]
    exact .filled hnil h le_rfl (.inl rfl) ⟨rfl, rfl⟩
  | succ n ih =>
    rw [Planner.fill]
    have htake := takeRecord_spec h.place
    generalize p.takeRecord cfg src = taken at htake
    cases htake with
    | ended hat hstop hcontext hsame =>
      have hfilling : Planner.Filling cfg src _ s rows buf :=
        ⟨hat, h.buffered, h.holds, fun hne => by rw [hcontext]; exact h.context hne⟩
      exact .filled hnil hfilling (Nat.zero_le _) (.inr (.inl hstop)) hsame
    | faulted hfault hhalted hsame =>
      exact .faulted hnil h.buffered (Nat.succ_pos n) h.holds.fits hfault hhalted hsame
    | @taken p' row htaken _ hsame =>
      dsimp only
      have hconsider := consider_spec hwidth htaken h.buffered.valid h.holds
      generalize p'.consider cfg row buf = considered at hconsider
      cases hconsider with
      | refused hfault =>
        exact .faulted hnil h.buffered (Nat.succ_pos n) h.holds.fits hfault htaken.halted hsame
      | kept hat hrow hctx hne hover hq =>
        exact .filled hnil ⟨hat, h.buffered, h.holds, fun _ => hctx⟩ (Nat.zero_le _)
          (.inr (.inr ⟨row, hrow, hne, hover⟩)) (hsame.trans hq)
      | added hat hrow hctx hholds hq =>
        have hlen : s + (rows ++ [row]).length = s + rows.length + 1 := by
          rw [List.length_append, List.length_singleton, Nat.add_assoc]
        have hstep : Planner.Filling cfg src _ s (rows ++ [row]) _ :=
          ⟨by rwa [hlen], h.buffered.snoc hrow, hholds, fun _ => hctx⟩
        exact (ih hstep (List.append_nil _).symm).of_snoc (hsame.trans hq)

/-! ### One call -/

/-- **What a batch is**: the statement and the parameters of its rows, and the whole payload of
these as its content. -/
structure PreparedBatch.Carries (cfg : PlannerConfig) (b : PreparedBatch)
    (rows : List EncodedRow) : Prop where
  sql : b.sql = cfg.sqlPrefix ++ valuesText cfg.width rows.length
  params : b.params = rows.flatMap Prod.fst
  rowCount : b.rowCount = rows.length
  content : payloadBytes cfg.ctx b.sql b.params = .ok b.content
  length : b.content.length = cfg.measure rows

/-- What a call of `next_batch` before position `s` comes to. -/
inductive NextResult (cfg : PlannerConfig) (src : Source) (p : Planner) (s : Nat) :
    Except Raised (Option PreparedBatch) × Planner → Prop
  | batch {p' : Planner} {b : PreparedBatch} {rows : List EncodedRow} :
      rows ≠ [] → RowsAt cfg src s rows → b.Carries cfg rows → cfg.Fits rows →
      rows.length = cfg.maxRows ∨ Closes cfg src s rows → p'.At cfg src (s + rows.length) →
      p.SameProgress p' → NextResult cfg src p s (.ok (some b), p')
  | ended {p' : Planner} : cfg.examine src s = .stop → p'.At cfg src s → p.SameProgress p' →
      NextResult cfg src p s (.ok none, p')
  | faulted {p' : Planner} {rows : List EncodedRow} {phase : BatchPhase} {cause : Exc} :
      RowsAt cfg src s rows → rows.length < cfg.maxRows → (rows ≠ [] → cfg.Fits rows) →
      cfg.examine src (s + rows.length) = .fault phase cause →
      p'.Halted src (s + rows.length) phase → p.SameProgress p' →
      NextResult cfg src p s (.error (.stopped (p'.error cause phase)), p')

theorem freshContext_eq_ok {c : Bytes × Nat} : cfg.freshContext = .ok c ↔
    contextBytes cfg.ctx = .ok c.1 ∧
      ∃ whole, body c.1 (cfg.sqlPrefix ++ cfg.placeholder) [] = .ok whole ∧ c.2 = whole.length := by
  rw [PlannerConfig.freshContext]
  cases hctx : contextBytes cfg.ctx with
  | error e => simp [bind, Except.bind]
  | ok context =>
    dsimp only [bind, Except.bind]
    refine ⟨fun h => ?_, fun h => ?_⟩
    · cases hbody : body context (cfg.sqlPrefix ++ cfg.placeholder) [] with
      | error e => rw [hbody] at h; cases h
      | ok whole =>
        rw [hbody] at h
        cases h
        exact ⟨rfl, whole, hbody, rfl⟩
    · obtain ⟨hc, whole, hbody, hlen⟩ := h
      cases hc
      rw [hbody]
      exact congrArg Except.ok (Prod.ext rfl hlen.symm)

/-- The body of validated rows can be built, and `measure` is its size. -/
theorem body_of_rows (hplaceholder : cfg.placeholder = placeholderText cfg.width) {c : Bytes}
    (hctx : cfg.freshContext = .ok (c, cfg.overhead)) {rows : List EncodedRow} (hne : rows ≠ []) :
    ∃ content, body c (cfg.sqlPrefix ++ valuesText cfg.width rows.length)
        ([44].intercalate (keyedParts 0 (rows.flatMap Prod.snd))) = .ok content ∧
      content.length = cfg.measure rows := by
  obtain ⟨_, whole, hwhole, hover⟩ := freshContext_eq_ok.mp hctx
  have hcount : rows.length - 1 + 1 = rows.length := by
    have := List.length_pos_iff.mpr hne
    omega
  rw [hplaceholder] at hwhole
  obtain ⟨content, hbody, hlen⟩ := body_valuesText hwhole (rows.length - 1)
    ([44].intercalate (keyedParts 0 (rows.flatMap Prod.snd)))
  rw [hcount] at hbody
  refine ⟨content, hbody, ?_⟩
  rw [hlen, PlannerConfig.measure, hplaceholder, ← hover]

/-- Validated rows can be carried: their payload is the body of their fragments. -/
theorem carries_of_rows (hwidth : cfg.width ≠ 0)
    (hplaceholder : cfg.placeholder = placeholderText cfg.width) {c : Bytes}
    (hctx : cfg.freshContext = .ok (c, cfg.overhead)) {rows : List EncodedRow} (hne : rows ≠ [])
    (hrows : ∀ row ∈ rows, row.Valid cfg.width) :
    ∃ content, body c (cfg.sqlPrefix ++ valuesText cfg.width rows.length)
        ([44].intercalate (keyedParts 0 (rows.flatMap Prod.snd))) = .ok content ∧
      PreparedBatch.Carries cfg ⟨cfg.sqlPrefix ++ valuesText cfg.width rows.length,
        rows.flatMap Prod.fst, content, rows.length⟩ rows := by
  obtain ⟨content, hbody, hlen⟩ := body_of_rows hplaceholder hctx hne
  have hcells := forall₂_flatMap_cells hrows
  have hparams : rows.flatMap Prod.fst ≠ [] := by
    intro he
    rw [he, List.forall₂_nil_left_iff] at hcells
    exact flatMap_snd_ne_nil hwidth hne hrows hcells
  have hpayload : payloadBytes cfg.ctx (cfg.sqlPrefix ++ valuesText cfg.width rows.length)
      (rows.flatMap Prod.fst) = .ok content :=
    (payloadBytes_eq_ok hcells hparams).mpr ⟨c, (freshContext_eq_ok.mp hctx).1, hbody⟩
  exact ⟨content, hbody, rfl, rfl, rfl, hpayload, hlen⟩

/-- **The running size is the size of the body**: the statement of a buffer can be built, and the
last check passes. -/
theorem flush_spec (hwidth : cfg.width ≠ 0) (hplaceholder : cfg.placeholder = placeholderText cfg.width)
    {p : Planner} {s : Nat} {rows : List EncodedRow} {buf : Buffer} (hne : rows ≠ [])
    (h : p.Filling cfg src s rows buf) :
    ∃ b, p.flush cfg buf = .ok (some b) ∧ b.Carries cfg rows ∧ b.content.length = buf.size := by
  obtain ⟨c, hc⟩ := Option.ne_none_iff_exists'.mp (h.context hne)
  have hctx := h.place.sound.context c hc
  have hover : cfg.overhead = p.singleOverhead := by rw [PlannerConfig.overhead, hctx]
  rw [← hover] at hctx
  obtain ⟨content, hbody, hcarries⟩ :=
    carries_of_rows hwidth hplaceholder hctx hne h.buffered.valid
  have hlen : content.length = cfg.measure rows := hcarries.length
  have hsize := h.holds.size hne
  have hfits := h.holds.fits hne
  have hcount : buf.rowCount ≠ 0 := by
    rw [h.holds.rowCount]
    exact fun h0 => hne (List.eq_nil_of_length_eq_zero h0)
  have hsql : cfg.sqlPrefix ++ join (py ", ") (List.replicate buf.rowCount cfg.placeholder) =
      cfg.sqlPrefix ++ valuesText cfg.width rows.length := by
    rw [h.holds.rowCount, hplaceholder, valuesText]
  refine ⟨_, ?_, hcarries, by rw [hsize]; exact hlen⟩
  rw [Planner.flush, if_neg hcount]
  dsimp only
  rw [hc, Option.getD_some, hsql, h.holds.fragments, hbody]
  dsimp only
  rw [if_neg (by omega), h.holds.params, h.holds.rowCount]

/-- **One call of `next_batch`** from position `s`: the longest batch there, the end of the source,
or the first fault after `s`. -/
theorem nextBatch_spec (hwidth : cfg.width ≠ 0)
    (hplaceholder : cfg.placeholder = placeholderText cfg.width) (hmax : 0 < cfg.maxRows)
    {p : Planner} {s : Nat} (h : p.At cfg src s) :
    NextResult cfg src p s (p.nextBatch cfg src) := by
  have hstart : p.Filling cfg src s [] {} :=
    ⟨h, .nil, Buffer.holds_empty cfg, fun hne => absurd rfl hne⟩
  have hfill := fill_spec (n := cfg.maxRows) hwidth hstart
  rw [Planner.nextBatch]
  generalize p.fill cfg src cfg.maxRows {} = filled at hfill
  cases hfill with
  | faulted hall hrows hlt hfits hfault hhalted hsame =>
    rw [List.nil_append] at hall
    subst hall
    exact .faulted hrows hlt (fun hne => ⟨hlt.le, hfits hne⟩) hfault hhalted hsame
  | @filled p' buf rows more hall hfilling hle hclose hsame =>
    rw [List.nil_append] at hall
    subst hall
    by_cases hne : rows = []
    · subst hne
      have hzero : buf.rowCount = 0 := hfilling.holds.rowCount
      dsimp only
      rw [Planner.flush, if_pos hzero]
      rcases hclose with hlen | hstop | ⟨_, _, hne, _⟩
      · exact absurd hlen (by rw [List.length_nil]; omega)
      · exact .ended hstop hfilling.place hsame
      · exact absurd rfl hne
    · obtain ⟨b, hflush, hcarries, _⟩ := flush_spec hwidth hplaceholder hne hfilling
      dsimp only
      rw [hflush]
      exact .batch hne hfilling.buffered hcarries ⟨hle, hfilling.holds.fits hne⟩ hclose
        hfilling.place hsame

end Calls

end SnowflakeSqlApi
