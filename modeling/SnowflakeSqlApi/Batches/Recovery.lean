import SnowflakeSqlApi.Batches.Outcome

/-!
# Imports that are resumed

An import that fails is not resumed by the client: that is left to the application, which may go on
from the row that the error names.  A batch of which the error says that it was committed is
skipped, one that was not is written again, and of one whose fate is unknown the application has to
find out first.

The requests of all the imports, and those that the application makes between them, are one
history.  In it the rows before the one to go on from are committed, once and in order, and whatever
is committed later is later than they are (`Reached`).  Each failed import keeps that
(`Reached.failedImport`), hence so does any number of them (`Reached.resumed`).
-/

namespace SnowflakeSqlApi

open Ledger

/-! ### The rest of a source -/

/-- A source without its first rows. -/
def Source.rest (src : Source) (k : Nat) : Source :=
  { src with next := fun i => src.next (k + i) }

namespace Source.Lists

variable {src : Source} {k s : Nat} {xs ys : List (List Value)}

theorem of_rest (h : (src.rest k).Lists s xs) : src.Lists (k + s) xs := by
  intro i hi
  rw [Nat.add_assoc]
  exact h i hi

theorem rest_add (h : (src.rest k).Lists s xs) : (src.rest (k + s)).Lists 0 xs := by
  intro i hi
  rw [Nat.zero_add]
  exact h.of_rest i hi

theorem append (hxs : src.Lists s xs) (hys : src.Lists (s + xs.length) ys) :
    src.Lists s (xs ++ ys) := by
  intro i hi
  by_cases hlt : i < xs.length
  · rw [List.getElem_append_left hlt]
    exact hxs i hlt
  · rw [List.length_append] at hi
    have hrow := hys (i - xs.length) (by omega)
    rw [Nat.add_assoc, Nat.add_sub_cancel' (Nat.not_lt.mp hlt)] at hrow
    rw [List.getElem_append_right (Nat.not_lt.mp hlt)]
    exact hrow

end Source.Lists

/-! ### What the application does -/

/-- Whether the application takes a batch for committed: as the error says, or else as it has found
out. -/
def BatchOutcome.executed (found : Bool) : BatchOutcome → Bool
  | .succeeded => true
  | .notExecuted | .failed => false
  | .unknown => found

/-- The row to go on from. -/
def BatchWriteError.resumeAt (e : BatchWriteError) (found : Bool) : Nat :=
  e.nextRowIndex +
    if e.outcome.executed found then e.failedBatch.elim 0 FailedBatch.rowCount else 0

/-- An import that failed, and what the application did about it. -/
structure FailedImport where
  run : InsertRun
  /-- The requests that the application made to find out about the last batch. -/
  asked : List Exchange
  /-- Whether it is committed, as they say. -/
  found : Bool

namespace FailedImport

variable (a : FailedImport)

def exchanges : List Exchange := a.run.history ++ a.asked

/-- The requests before those for the last batch. -/
def earlier : List Exchange := a.run.submissions.dropLast.flatMap Submission.exchanges

/-- **What the application has found is so**, the import beginning with request `n`: the last batch
is committed by now, or it never will be. -/
def Reconciled (history : List Exchange) (log : Log) (n : Nat) : Prop :=
  if a.found then
    Confirmed (posts Exchange.posted history) log (n + a.earlier.length) (n + a.exchanges.length)
  else
    ∀ c ∈ log.entries history.length,
      ¬ (n + a.earlier.length ≤ c ∧ c < n + a.exchanges.length)

end FailedImport

/-- A run of `insert_batches` on the rest of a source. -/
def ImportsFrom (table : PyStr) (columns : List PyStr) (ctx : ClientContext) (src : Source) (k : Nat)
    (run : InsertRun) : Prop :=
  ∃ c maxRows maxBytes scripts,
    insertBatches c ctx table columns (src.rest k) maxRows maxBytes scripts = .ok run

/-- **Imports one after the other**, from request `n` and row `k` on: each failed, and the next goes on
where its error says. -/
inductive Resumed (table : PyStr) (columns : List PyStr) (ctx : ClientContext) (src : Source)
    (history : List Exchange) (log : Log) : Nat → Nat → List FailedImport → Nat → Prop
  | nil {n k : Nat} : Resumed table columns ctx src history log n k [] k
  | cons {n k l : Nat} {a : FailedImport} {e : BatchWriteError} {rest : List FailedImport} :
      ImportsFrom table columns ctx src k a.run → a.run.outcome = .raised (.stopped e) →
      (∀ x ∈ a.asked, x.posted = none) →
      (e.failedBatch.isSome → e.outcome = .unknown → a.Reconciled history log n) →
      Resumed table columns ctx src history log (n + a.exchanges.length) (k + e.resumeAt a.found)
        rest l →
      Resumed table columns ctx src history log n k (a :: rest) l

/-! ### How far the rows are committed -/

/-- By request `n` the first `k` rows are committed, once and in order, and what is committed from
then on was posted from then on. -/
structure Reached (table : PyStr) (columns : List PyStr) (ctx : ClientContext) (src : Source)
    (history : List Exchange) (log : Log) (n k : Nat) : Prop where
  passed : Passed log history.length n
  inserted : ∃ parts, InsertsFirst table columns ctx src k
    ((log.upTo n).filterMap (requestAt history)) parts

section Reached

variable {table : PyStr} {columns : List PyStr} {ctx : ClientContext} {src : Source}
  {history : List Exchange} {log : Log} {n k : Nat}

theorem InsertsFirst.append {count : Nat} {requests requests' : List Request}
    {parts parts' : List (List (List Value))} (h : InsertsFirst table columns ctx src k requests parts)
    (h' : InsertsFirst table columns ctx (src.rest k) count requests' parts') :
    InsertsFirst table columns ctx src (k + count) (requests ++ requests') (parts ++ parts') := by
  refine ⟨List.rel_append h.inserts h'.inserts, ?_, ?_⟩
  · rw [List.flatten_append]
    refine h.lists.append ?_
    rw [h.count_eq, Nat.zero_add]
    exact h'.lists.of_rest
  · rw [List.flatten_append, List.length_append, h.count_eq, h'.count_eq]

theorem reached_zero : Reached table columns ctx src history log 0 0 := by
  refine ⟨passed_zero, [], ?_⟩
  rw [Log.upTo, Log.between_self]
  exact ⟨.nil, fun i hi => absurd hi (Nat.not_lt_zero i), rfl⟩

namespace Reached

theorem add (h : Reached table columns ctx src history log n k) {m count : Nat} (hle : n ≤ m)
    (hpassed : Passed log history.length m) {parts : List (List (List Value))}
    (hinserts : InsertsFirst table columns ctx (src.rest k) count
      ((log.between n m).filterMap (requestAt history)) parts) :
    Reached table columns ctx src history log m (k + count) := by
  obtain ⟨parts', hparts⟩ := h.inserted
  refine ⟨hpassed, parts' ++ parts, ?_⟩
  rw [Log.upTo_append hle, List.filterMap_append]
  exact hparts.append hinserts

variable {pre block rest : List Exchange}

/-- The confirmed submissions of an import. -/
theorem imported {cfg : PlannerConfig} {c : InsertClient} {done : List (Submission × List EncodedRow)}
    {q : Planner} {t : Nat} (h : Reached table columns cfg.ctx src history log pre.length k)
    (hcfg : cfg.MadeFor table columns) (himported : Imported cfg (src.rest k) c {} 0 done q t)
    (hhistory : history = pre ++ ((done.map Prod.fst).flatMap Submission.exchanges ++ rest))
    (hserver : Honest history log) :
    Reached table columns cfg.ctx src history log
      (pre.length + ((done.map Prod.fst).flatMap Submission.exchanges).length) (k + t) := by
  obtain ⟨hentries, hpassed⟩ := between_imported himported hhistory hserver h.passed
  obtain ⟨hrows, ht⟩ := himported.rowsAt
  refine h.add (Nat.le_add_right _ _) hpassed
    ⟨inserts_entries hcfg himported hentries, ?_, ?_⟩
  · rw [← List.map_flatten]
    exact hrows.lists
  · rw [← List.map_flatten, List.length_map, ht, Nat.zero_add]

section Block

variable (h : Reached table columns ctx src history log pre.length k)
  (hhistory : history = pre ++ (block ++ rest)) (hserver : Honest history log)
include h hhistory hserver

/-- Requests that come to nothing. -/
theorem void (hvoid : ∀ c ∈ log.entries history.length,
      ¬ (pre.length ≤ c ∧ c < pre.length + block.length)) :
    Reached table columns ctx src history log (pre.length + block.length) k := by
  have hn : pre.length + block.length ≤ history.length := by
    rw [hhistory, List.length_append, List.length_append]
    omega
  subst hhistory
  obtain ⟨hnone, hpassed⟩ := h.passed.void hserver.atMostOnce hn hvoid
  have hadd := @add _ _ _ _ _ _ _ _ h _ 0 (Nat.le_add_right _ _) hpassed []
  rw [hnone] at hadd
  exact hadd ⟨.nil, fun i hi => absurd hi (Nat.not_lt_zero i), rfl⟩

/-- Requests that post nothing. -/
theorem unposted (hnone : ∀ x ∈ block, x.posted = none) :
    Reached table columns ctx src history log (pre.length + block.length) k := by
  refine h.void hhistory hserver fun c hc ⟨hs, he⟩ => ?_
  have hposted := posted_of_logged hserver.atMostOnce (s := 0) c hc
  obtain ⟨p, hp⟩ := Option.isSome_iff_exists.mp hposted
  rw [hhistory] at hp
  obtain ⟨i, x, -, hx, hpost⟩ := exists_of_posts hs he hp
  rw [hnone x (List.mem_of_getElem? hx)] at hpost
  cases hpost

/-- Requests of which one inserts the next rows. -/
theorem batch {part : List (List Value)} (hone : PostsOne Exchange.posted block)
    (hconfirmed : Confirmed (posts Exchange.posted history) log pre.length
      (pre.length + block.length))
    (hlists : (src.rest k).Lists 0 part)
    (hinserts : ∀ x ∈ block, ∀ a, history[a]? = some x → x.posted.isSome →
      ∃ request, requestAt history a = some request ∧ request.Inserts table columns ctx part) :
    Reached table columns ctx src history log (pre.length + block.length) (k + part.length) := by
  have hn : pre.length + block.length ≤ history.length := by
    rw [hhistory, List.length_append, List.length_append]
    omega
  subst hhistory
  obtain ⟨⟨c, hc, -, -, x, hx, hat, hposted⟩, hpassed⟩ :=
    h.passed.confirmed hserver.atMostOnce hn hone hconfirmed
  obtain ⟨request, hrequest, hinsert⟩ := hinserts x hx c hat hposted
  have hadd := @add _ _ _ _ _ _ _ _ h _ part.length (Nat.le_add_right _ _) hpassed [part]
  rw [hc, List.filterMap_cons_some hrequest] at hadd
  refine hadd ⟨.cons hinsert .nil, ?_, ?_⟩
  · rw [List.flatten_singleton]
    exact hlists
  · rw [List.flatten_singleton]

end Block

/-- A rejected submission, with what the application asked after it, comes to nothing. -/
theorem rejected {c : InsertClient} {script : SubmissionScript} {b : PreparedBatch}
    {start : FailedBatch} {s : Submission} {asked : List Exchange}
    (h : Reached table columns ctx src history log pre.length k)
    (hhistory : history = pre ++ ((s.exchanges ++ asked) ++ rest)) (hserver : Honest history log)
    (hissues : s.Issues c script b start) (hrejected : s.Rejected)
    (hasked : ∀ x ∈ asked, x.posted = none) :
    Reached table columns ctx src history log (pre.length + (s.exchanges ++ asked).length) k := by
  refine h.void hhistory hserver fun a ha ⟨hs, he⟩ => ?_
  have hposted := posted_of_logged hserver.atMostOnce (s := 0) a ha
  obtain ⟨p, hp⟩ := Option.isSome_iff_exists.mp hposted
  rw [hhistory] at hp
  obtain ⟨i, x, rfl, hx, hpost⟩ := exists_of_posts hs he hp
  have hat : history[pre.length + i]? = some x := by
    rw [hhistory, getElem?_block (by omega), hx]
  have hpost' : x.posted.isSome := by rw [hpost]; rfl
  by_cases hi : i < s.exchanges.length
  · rw [List.append_assoc] at hhistory
    subst hhistory
    exact notMem_of_rejected hserver hissues hrejected hs (by omega) hat hpost' ha
  · rw [List.getElem?_append_right (Nat.not_lt.mp hi)] at hx
    rw [hasked x (List.mem_of_getElem? hx)] at hpost
    cases hpost

/-- The last submission of an import that failed, with what the application asked after it. -/
theorem submission {cfg : PlannerConfig} {c : InsertClient} {script : SubmissionScript}
    {b : PreparedBatch} {p : Planner} {s : Submission} {e : Exc} {rows : List EncodedRow}
    {asked : List Exchange} {t : Nat} (found : Bool) (hcfg : cfg.MadeFor table columns)
    (h : Reached table columns cfg.ctx src history log pre.length (k + t))
    (hhistory : history = pre ++ ((s.exchanges ++ asked) ++ rest)) (hserver : Honest history log)
    (htaken : b.TakenAt cfg (src.rest k) t rows)
    (hsubmission : s = c.submitBatch script b (.start p b script.requestId.str))
    (houtcome : s.outcome = some (.error e)) (hasked : ∀ x ∈ asked, x.posted = none)
    (hfound : (s.execution.classify e).2 = .unknown →
      if found then Confirmed (posts Exchange.posted history) log pre.length
        (pre.length + (s.exchanges ++ asked).length)
      else ∀ c ∈ log.entries history.length,
        ¬ (pre.length ≤ c ∧ c < pre.length + (s.exchanges ++ asked).length)) :
    Reached table columns cfg.ctx src history log (pre.length + (s.exchanges ++ asked).length)
      (k + t + if (s.execution.classify e).2.executed found then rows.length else 0) := by
  obtain ⟨hissues, hsound⟩ := submitBatch_sound c script b p
  rw [← hsubmission] at hissues hsound
  have hagrees : s.batch.Agrees table columns cfg.ctx (rows.map Prod.fst) := by
    rw [hissues.batch_eq]
    exact htaken.agrees hcfg
  have hone : PostsOne Exchange.posted (s.exchanges ++ asked) :=
    hissues.postsOne.take_append List.prefix_rfl hasked
  have hinserts : ∀ x ∈ s.exchanges ++ asked, ∀ a, history[a]? = some x → x.posted.isSome →
      ∃ request, requestAt history a = some request ∧
        request.Inserts table columns cfg.ctx (rows.map Prod.fst) := by
    intro x hx a ha hposted
    rcases List.mem_append.mp hx with hx | hx
    · exact inserts_of_posted hagrees hissues.content hx ha hposted
    · rw [hasked x hx] at hposted
      cases hposted
  -- It is committed by the end of the requests asked, or never.
  have hcommitted : Confirmed (posts Exchange.posted history) log pre.length
      (pre.length + (s.exchanges ++ asked).length) →
      Reached table columns cfg.ctx src history log (pre.length + (s.exchanges ++ asked).length)
        (k + t + rows.length) := by
    intro hconfirmed
    have hbatch := h.batch hhistory hserver hone hconfirmed htaken.rowsAt.lists.rest_add hinserts
    rwa [List.length_map] at hbatch
  cases hclassified : (s.execution.classify e).2 with
  | succeeded =>
    have hconfirmed : Confirmed (posts Exchange.posted history) log pre.length
        (pre.length + s.exchanges.length) := by
      rw [List.append_assoc] at hhistory
      subst hhistory
      exact confirmed_of_accepted hserver hissues (hsound.succeeded e houtcome hclassified)
    refine hcommitted (hconfirmed.mono ?_)
    rw [List.length_append]
    omega
  | notExecuted =>
    exact h.rejected hhistory hserver hissues (hsound.rejected e houtcome (.inl hclassified)) hasked
  | failed =>
    exact h.rejected hhistory hserver hissues (hsound.rejected e houtcome (.inr hclassified)) hasked
  | unknown =>
    have hfound := hfound hclassified
    cases found with
    | true => exact hcommitted hfound
    | false => exact h.void hhistory hserver hfound

/-- An import reaches its confirmed submissions, and then ends. -/
theorem imports {run : InsertRun} (h : Reached table columns ctx src history log pre.length k)
    (himports : ImportsFrom table columns ctx src k run) {asked : List Exchange}
    (hhistory : history = pre ++ ((run.history ++ asked) ++ rest)) (hserver : Honest history log) :
    ∃ (cfg : PlannerConfig) (c : InsertClient) (scripts : List SubmissionScript)
      (done : List (Submission × List EncodedRow)) (q : Planner) (t : Nat) (last : InsertRun),
      cfg.MadeFor table columns ∧ cfg.ctx = ctx ∧
      run = InsertRun.after last (done.map Prod.fst) ∧
      (∀ {p : Planner}, q.SameProgress p → p.confirmedRows = t) ∧
      Ending cfg (src.rest k) c q t scripts last ∧
      history = (pre ++ (done.map Prod.fst).flatMap Submission.exchanges) ++
        ((last.history ++ asked) ++ rest) ∧
      Reached table columns ctx src history log
        (pre ++ (done.map Prod.fst).flatMap Submission.exchanges).length (k + t) := by
  obtain ⟨c, maxRows, maxBytes, scripts, himports⟩ := himports
  obtain ⟨cfg, hmake, rfl⟩ := insertBatches_eq_ok.mp himports
  have hcfg := madeFor_of_make hmake
  obtain rfl := ctx_of_make hmake
  obtain ⟨done, q, t, last, hloop, himported, hending⟩ :=
    insertLoop_spec (c := c) hcfg scripts (Planner.at_initial cfg (src.rest k))
  rw [hloop] at hhistory ⊢
  have hrun : (InsertRun.after last (done.map Prod.fst)).history =
      (done.map Prod.fst).flatMap Submission.exchanges ++ last.history := List.flatMap_append
  rw [hrun, List.append_assoc, List.append_assoc] at hhistory
  have hreached := h.imported hcfg himported hhistory hserver
  rw [← List.length_append] at hreached
  refine ⟨cfg, c, _, done, q, t, last, hcfg, rfl, rfl, fun hsame => ?_, hending, ?_, hreached⟩
  · rw [hsame.1, himported.progress.1, himported.rowsAt.2]
  · rw [hhistory]
    simp only [List.append_assoc]

/-- **An import that failed** leaves off at the row that its error says to go on from. -/
theorem failedImport {a : FailedImport} {e : BatchWriteError}
    (h : Reached table columns ctx src history log pre.length k)
    (himports : ImportsFrom table columns ctx src k a.run)
    (hraised : a.run.outcome = .raised (.stopped e)) (hasked : ∀ x ∈ a.asked, x.posted = none)
    (hfound : e.failedBatch.isSome → e.outcome = .unknown → a.Reconciled history log pre.length)
    (hhistory : history = pre ++ (a.exchanges ++ rest)) (hserver : Honest history log) :
    Reached table columns ctx src history log (pre.length + a.exchanges.length)
      (k + e.resumeAt a.found) := by
  obtain ⟨run, asked, found⟩ := a
  obtain ⟨cfg, c, scripts, done, q, t, last, hcfg, rfl, rfl, hnext, hending, hhistory, hreached⟩ :=
    h.imports himports hhistory hserver
  have hexchanges : FailedImport.exchanges ⟨InsertRun.after last (done.map Prod.fst), asked, found⟩ =
      (done.map Prod.fst).flatMap Submission.exchanges ++ (last.history ++ asked) := by
    rw [FailedImport.exchanges, InsertRun.history, InsertRun.after, List.flatMap_append,
      List.append_assoc]
    rfl
  rw [hexchanges, List.length_append, ← Nat.add_assoc, ← List.length_append]
  cases hending with
  | returned _ _ => cases hraised
  | outOfScripts _ _ _ | polling _ _ _ _ => cases hraised
  | faulted _ _ _ _ _ hsame | hookRaised _ hsame _ _ =>
    cases hraised
    have hunposted := hreached.unposted hhistory hserver hasked
    rw [← hnext hsame] at hunposted
    exact hunposted
  | @failed p b rows script s cause htaken hsame hsubmission houtcome =>
    cases hraised
    have hearlier : FailedImport.earlier ⟨InsertRun.after ⟨[s], p, .raised (.stopped
        (s.execution.error p cause))⟩ (done.map Prod.fst), asked, found⟩ =
        (done.map Prod.fst).flatMap Submission.exchanges := by
      rw [FailedImport.earlier, InsertRun.after, List.dropLast_concat]
    have hissues := (submitBatch_sound c script b p).1
    rw [← hsubmission] at hissues
    have hrows : (s.execution.failedWith cause).rowCount = rows.length := by
      rw [← htaken.carries.rowCount]
      exact hissues.rowCount
    have hlast : InsertRun.history ⟨[s], p, .raised (.stopped (s.execution.error p cause))⟩ =
        s.exchanges := List.append_nil _
    rw [hlast] at hhistory hexchanges ⊢
    have hsubmitted := hreached.submission found hcfg hhistory hserver htaken hsubmission houtcome
      hasked ?_
    · show Reached _ _ _ _ _ _ _ (k + (p.confirmedRows + if (s.execution.classify cause).2.executed found
        then (s.execution.failedWith cause).rowCount else 0))
      rw [hnext hsame, hrows, ← Nat.add_assoc]
      exact hsubmitted
    · intro hunknown
      have hreconciled := hfound rfl hunknown
      rw [FailedImport.Reconciled, hearlier, hexchanges, List.length_append, ← Nat.add_assoc,
        ← List.length_append] at hreconciled
      exact hreconciled

/-- **Imports that were resumed** leave off at the row that the last error says to go on from. -/
theorem resumed {attempts : List FailedImport} {l : Nat}
    (hresumed : Resumed table columns ctx src history log n k attempts l)
    (h : Reached table columns ctx src history log n k) (hn : n = pre.length)
    (hhistory : history = pre ++ (attempts.flatMap FailedImport.exchanges ++ rest))
    (hserver : Honest history log) :
    Reached table columns ctx src history log
      (pre.length + (attempts.flatMap FailedImport.exchanges).length) l := by
  induction hresumed generalizing pre with
  | nil =>
    subst hn
    exact h
  | @cons n k l a e later himports hraised hasked hfound _ ih =>
    subst hn
    rw [List.flatMap_cons, List.append_assoc] at hhistory
    have hfailed := h.failedImport himports hraised hasked hfound hhistory hserver
    rw [← List.append_assoc] at hhistory
    have hlater := ih hfailed List.length_append.symm hhistory
    rw [List.length_append, Nat.add_assoc] at hlater
    rw [List.flatMap_cons, List.length_append]
    exact hlater

/-- At the end of the requests all is said. -/
theorem committed (h : Reached table columns ctx src history log history.length k)
    (hserver : Honest history log) :
    ∃ parts, InsertsFirst table columns ctx src k (committed history log) parts := by
  have htail : log.tail = [] := by
    refine List.eq_nil_iff_forall_not_mem.mpr fun c hc => ?_
    have hle := h.passed c (List.mem_append_right _ hc)
    have hlt := (hserver.atMostOnce.postedTail c hc).1
    omega
  obtain ⟨parts, hparts⟩ := h.inserted
  refine ⟨parts, ?_⟩
  rw [SnowflakeSqlApi.committed, Log.entries, htail, List.append_nil]
  exact hparts

/-- What the error of a last import says of its last batch. -/
theorem accounts {cfg : PlannerConfig} {c : InsertClient} {script : SubmissionScript}
    {b : PreparedBatch} {p : Planner} {s : Submission} {e : Exc} {rows : List EncodedRow} {t : Nat}
    (hcfg : cfg.MadeFor table columns)
    (h : Reached table columns cfg.ctx src history log pre.length (k + t))
    (hhistory : history = pre ++ (s.exchanges ++ [])) (hserver : Honest history log)
    (htaken : b.TakenAt cfg (src.rest k) t rows) (hp : p.confirmedRows = t)
    (hsubmission : s = c.submitBatch script b (.start p b script.requestId.str))
    (houtcome : s.outcome = some (.error e)) : ∃ requests left parts,
      SnowflakeSqlApi.committed history log = requests ++ left ∧
      InsertsFirst table columns cfg.ctx src (k + t) requests parts ∧
      (s.execution.error p e).Accounts table columns cfg.ctx (src.rest k) left := by
  obtain ⟨hissues, hsound⟩ := submitBatch_sound c script b p
  rw [← hsubmission] at hissues hsound
  have hagrees : s.batch.Agrees table columns cfg.ctx (rows.map Prod.fst) := by
    rw [hissues.batch_eq]
    exact htaken.agrees hcfg
  obtain ⟨parts, hparts⟩ := h.inserted
  have hlen : history.length = pre.length + s.exchanges.length := by
    rw [hhistory, List.append_nil, List.length_append]
  have hsplit : SnowflakeSqlApi.committed history log =
      (log.upTo pre.length).filterMap (requestAt history) ++
        (log.between pre.length (pre.length + s.exchanges.length) ++ log.tail).filterMap
          (requestAt history) := by
    rw [SnowflakeSqlApi.committed, Log.entries, hlen, Log.upTo_append (Nat.le_add_right _ _),
      List.append_assoc, List.filterMap_append]
  have hpassed := h.passed
  subst hhistory
  refine ⟨_, _, parts, hsplit, hparts, ?_⟩
  show (s.execution.failedWith e).startRowIndex = p.confirmedRows ∧ ∃ part,
    (src.rest k).Lists p.confirmedRows part ∧ part.length = (s.execution.failedWith e).rowCount ∧
      Leaves table columns cfg.ctx part (s.execution.classify e).2 _
  refine ⟨hissues.startRowIndex, _, ?_, ?_,
    leaves_of_passed hserver hpassed hissues hsound houtcome hagrees⟩
  · rw [hp]
    exact htaken.rowsAt.lists
  · rw [List.length_map, ← htaken.carries.rowCount]
    exact hissues.rowCount.symm

end Reached

end Reached

/-- **An import that is resumed writes every row once.** After any number of imports that failed, each
resumed where the error of the one before it says, one that returns has the whole source committed,
once and in order, over all their requests; and one that raises says what is committed, as the first
would. -/
theorem resumed_sound {table : PyStr} {columns : List PyStr} {ctx : ClientContext} {src : Source}
    {history : List Exchange} {log : Log} {attempts : List FailedImport} {k : Nat} {run : InsertRun}
    (hresumed : Resumed table columns ctx src history log 0 0 attempts k)
    (himports : ImportsFrom table columns ctx src k run)
    (hhistory : history = attempts.flatMap FailedImport.exchanges ++ run.history)
    (hserver : Honest history log) :
    (∀ batches, run.outcome = .returned batches → ∃ count parts,
      InsertsFirst table columns ctx src count (committed history log) parts ∧
      src.iter = none ∧ src.next count = .stop) ∧
    ∀ e, run.outcome = .raised (.stopped e) → ∃ requests rest parts,
      committed history log = requests ++ rest ∧
      InsertsFirst table columns ctx src (k + e.nextRowIndex) requests parts ∧
      e.Accounts table columns ctx (src.rest k) rest := by
  have hattempts := @Reached.resumed _ _ _ _ _ _ 0 0 [] _ attempts k hresumed reached_zero rfl
    hhistory hserver
  rw [List.length_nil, Nat.zero_add] at hattempts
  rw [← List.append_nil run.history, ← List.append_nil (run.history ++ [])] at hhistory
  obtain ⟨cfg, c, scripts, done, q, t, last, hcfg, rfl, rfl, hnext, hending, hhistory, hreached⟩ :=
    hattempts.imports himports hhistory hserver
  rw [List.append_nil, List.append_nil] at hhistory
  have hall : last.history = [] → ∃ parts,
      InsertsFirst table columns cfg.ctx src (k + t) (committed history log) parts := by
    intro hnil
    rw [hnil, List.append_nil] at hhistory
    rw [← hhistory] at hreached
    exact hreached.committed hserver
  show (∀ batches, last.outcome = _ → _) ∧ ∀ e, last.outcome = _ → _
  cases hending with
  | returned hstop hsame =>
    obtain ⟨parts, hparts⟩ := hall rfl
    obtain ⟨hiter, hend⟩ := examine_eq_stop.mp hstop
    refine ⟨fun _ _ => ⟨k + t, parts, hparts, hiter, hend⟩, fun e he => ?_⟩
    cases he
  | faulted _ _ _ _ _ hsame | hookRaised _ hsame _ _ =>
    obtain ⟨parts, hparts⟩ := hall rfl
    refine ⟨fun _ h => ?_, fun e he => ?_⟩
    · cases h
    · cases he
      rw [← hnext hsame] at hparts
      exact ⟨_, [], parts, (List.append_nil _).symm, hparts, rfl⟩
  | failed htaken hsame hsubmission houtcome =>
    refine ⟨fun _ h => ?_, fun e he => ?_⟩
    · cases h
    · cases he
      have haccounts := hreached.accounts hcfg hhistory hserver htaken (hnext hsame) hsubmission
        houtcome
      rw [← hnext hsame] at haccounts
      exact haccounts
  | outOfScripts _ _ _ | polling _ _ _ _ =>
    refine ⟨fun _ h => ?_, fun e he => ?_⟩
    · cases h
    · cases he

/-! ### An import that hears nothing

Every reply to the first batch is lost, but it was committed. The application finds that out, and
imports the rest. -/

def unheardRun : InsertRun :=
  insertLoop pairConfig pairSource importClient [{ insertedScript with post := lostScript }] {}

def restRun : InsertRun :=
  insertLoop pairConfig (pairSource.rest 1) importClient [insertedScript] {}

def unheardImport : FailedImport := ⟨unheardRun, [], true⟩

def resumedHistory : List Exchange := [unheardImport].flatMap FailedImport.exchanges ++ restRun.history

def resumedLog : Log where
  window t := if t = 0 then [0] else if t = 3 then [3] else []
  tail := []

theorem seen_resumedHistory : resumedHistory.map seen =
    [(some (some sampleUuid.str, false), none), (some (some sampleUuid.str, true), none),
      (some (some sampleUuid.str, true), none), (some (some sampleUuid.str, false), some 200)] := by
  decide +kernel

theorem length_resumedHistory : resumedHistory.length = 4 := by
  have hlen := congrArg List.length seen_resumedHistory
  rwa [List.length_map] at hlen

theorem answered_resumedHistory {a : Nat} {x : Exchange} {status : Nat}
    (hx : resumedHistory[a]? = some x) (h : x.Answered status) :
    x.posted.isSome ∧ a = 3 ∧ status = 200 := by
  obtain ⟨s, hs, hstatus, hposted⟩ := answered_of_seen seen_resumedHistory hx h
  clear hx h
  match a with
  | 0 | 1 | 2 =>
    cases hs
    cases hstatus
  | 3 =>
    cases hs
    cases hstatus
    exact ⟨hposted rfl, rfl, rfl⟩
  | a + 4 => cases hs

/-- The POST of the second batch is not marked. -/
theorem honest_resumedHistory : Honest resumedHistory resumedLog := by
  have hentries : resumedLog.entries resumedHistory.length = [0, 3] := by
    rw [length_resumedHistory]
    rfl
  refine honest_of_confirmed ⟨?_, ?_, ?_⟩ fun a x status hx h => ?_
  · intro t _ a ha
    match t with
    | 0 =>
      obtain rfl := List.mem_singleton.mp ha
      exact ⟨le_rfl, by rw [posts_of_seen seen_resumedHistory]; rfl⟩
    | 1 | 2 => cases ha
    | 3 =>
      obtain rfl := List.mem_singleton.mp ha
      exact ⟨le_rfl, by rw [posts_of_seen seen_resumedHistory]; rfl⟩
    | t + 4 => cases ha
  · exact fun a ha => absurd ha List.not_mem_nil
  · rw [hentries, List.pairwise_pair]
    rintro (h | ⟨_, p, q, hp, hq, hid, hmarked⟩ | ⟨h, _⟩)
    · omega
    · have hreplay := hmarked 3 q (by decide) le_rfl hq rfl
      rw [posts_of_seen seen_resumedHistory] at hq
      cases hq
      cases hreplay
    · omega
  · obtain ⟨hposted, rfl, rfl⟩ := answered_resumedHistory hx h
    exact ⟨hposted, rfl, by decide⟩

/-- The row to go on from after a run, if its batch is found to be committed. -/
def resumesAt (run : InsertRun) : Option Nat :=
  match run.outcome with
  | .raised (.stopped e) => some (e.resumeAt true)
  | _ => none

theorem outcome_of_resumesAt {run : InsertRun} {k : Nat} (h : resumesAt run = some k) :
    ∃ e, run.outcome = .raised (.stopped e) ∧ e.resumeAt true = k := by
  rw [resumesAt] at h
  split at h
  · exact ⟨_, ‹_›, Option.some.inj h⟩
  · cases h

def returns (run : InsertRun) : Bool :=
  match run.outcome with
  | .returned _ => true
  | _ => false

theorem outcome_of_returns {run : InsertRun} (h : returns run = true) :
    ∃ batches, run.outcome = .returned batches := by
  rw [returns] at h
  split at h
  · exact ⟨_, ‹_›⟩
  · cases h

theorem resumed_unheardImport : Resumed hostileTable hostileColumns pairContext pairSource
    resumedHistory resumedLog 0 0 [unheardImport] 1 := by
  have hend : resumesAt unheardRun = some 1 := by decide +kernel
  obtain ⟨e, he, hnext⟩ := outcome_of_resumesAt hend
  have hrun : unheardImport.run = unheardRun := by rw [unheardImport]
  have hfound : unheardImport.found = true := by rw [unheardImport]
  have himports : ImportsFrom hostileTable hostileColumns pairContext pairSource 0 unheardRun := by
    refine ⟨importClient, 3, 273, [{ insertedScript with post := lostScript }],
      insertBatches_eq_ok.mpr ⟨pairConfig, make_pairConfig, ?_⟩⟩
    have hrest : pairSource.rest 0 = pairSource := by
      rw [Source.rest]
      simp only [Nat.zero_add]
    rw [hrest]
    rfl
  have hexchanges : unheardImport.exchanges.length = 3 := by decide +kernel
  have hearlier : unheardImport.earlier.length = 0 := by decide +kernel
  rw [← hrun] at himports he
  refine .cons himports he (List.forall_mem_nil _) (fun _ _ => ?_) ?_
  · rw [FailedImport.Reconciled, hexchanges, hearlier, if_pos hfound]
    exact ⟨0, le_rfl, by decide, by rw [posts_of_seen seen_resumedHistory]; rfl, 0, by decide,
      .inl rfl⟩
  · rw [hfound, hnext]
    exact .nil

theorem resumed_sound_unheardImport : ∃ (count : Nat) (parts : List (List (List Value))),
    InsertsFirst hostileTable hostileColumns pairContext pairSource count
      (committed resumedHistory resumedLog) parts ∧ pairSource.next count = .stop := by
  have himports : ImportsFrom hostileTable hostileColumns pairContext pairSource 1 restRun :=
    ⟨importClient, 3, 273, [insertedScript],
      insertBatches_eq_ok.mpr ⟨pairConfig, make_pairConfig, rfl⟩⟩
  have hend : returns restRun = true := by decide +kernel
  obtain ⟨batches, hreturned⟩ := outcome_of_returns hend
  obtain ⟨count, parts, hparts, -, hstop⟩ := (resumed_sound resumed_unheardImport himports rfl
    honest_resumedHistory).1 batches hreturned
  exact ⟨count, parts, hparts, hstop⟩

end SnowflakeSqlApi
