import SnowflakeSqlApi.Batches.Import
import SnowflakeSqlApi.Lib.Ledger

/-!
# What an import has committed

`Honest` is what the client may assume of the server: what a reply means for the statement of the
request, and that a statement sent again under its identity with the retry mark takes effect
once.  Otherwise the server is free: it commits what it was sent at any time, also
after the client has given up, and a request that was lost may have been committed.

`insert_sound`: whatever happens to the requests of an import, its result says what is
committed.  The rows of the confirmed batches are, once each and in the order of the
source; of the batch that failed, what the outcome of the error says; and nothing else.
-/

namespace SnowflakeSqlApi

open Ledger

/-- The post of a request for a statement, as a server sees it that recognises replays. -/
def Exchange.posted (x : Exchange) : Option (Replay.Post (Option PyStr)) :=
  match x.request.target with
  | .statements => some x.request.post
  | _ => none

/-- **What the server promises**, of the requests of a client and of what it commits. -/
structure Honest (history : List Exchange) (log : Log) : Prop where
  /-- Only what was posted is committed, and a statement that is sent again only once. -/
  atMostOnce : AtMostOnce (posts Exchange.posted history) history.length log
  /-- A refused request was not executed. -/
  refused : ∀ a x, history[a]? = some x → x.request.target = .statements →
    (∃ status ∈ [400, 401, 403], x.Answered status) → a ∉ log.entries history.length
  /-- A statement that failed had no effect. -/
  failed : ∀ a x, history[a]? = some x → x.request.target = .statements → x.Answered 422 →
    ∀ c ∈ log.entries history.length, ¬ Same (posts Exchange.posted history) a c
  /-- A statement that has finished is committed. -/
  finished : ∀ a x, history[a]? = some x → x.request.target = .statements → x.Answered 200 →
    ∃ c ∈ log.upTo (a + 1), Same (posts Exchange.posted history) a c
  /-- The same of the statement that a polled handle was given for. -/
  pollFailed : ∀ a x t y, a < t → history[a]? = some x → history[t]? = some y →
    x.request.target = .statements → x.event.handle.truthy = true →
    y.request.target = .status x.event.handle → y.Answered 422 →
    ∀ c ∈ log.entries history.length, ¬ Same (posts Exchange.posted history) a c
  pollFinished : ∀ a x t y, a < t → history[a]? = some x → history[t]? = some y →
    x.request.target = .statements → x.event.handle.truthy = true →
    y.request.target = .status x.event.handle → y.Answered 200 →
    ∃ c ∈ log.upTo (t + 1), Same (posts Exchange.posted history) a c

def requestAt (history : List Exchange) (a : Nat) : Option Request := history[a]?.map (·.request)

/-- The requests whose statements the server has committed, in this order. -/
def committed (history : List Exchange) (log : Log) : List Request :=
  (log.entries history.length).filterMap (requestAt history)

namespace InsertRun

/-- The requests of a run, in order. -/
def history (run : InsertRun) : List Exchange := run.submissions.flatMap Submission.exchanges

end InsertRun

/-! ### The requests of one submission -/

section Submission

variable {c : InsertClient} {script : SubmissionScript} {batch : PreparedBatch} {start : FailedBatch}
  {s : Submission}

/-- The attempts of a submission have its identity, and all but the first are marked. -/
theorem attempt_posted (id : PyStr) (batch : PreparedBatch) (i : Nat) (event : Event) :
    Exchange.posted ⟨(InsertClient.batchRequest id batch).attempt i, event⟩ =
      some ⟨some id, decide (i ≠ 0)⟩ := by
  cases i with
  | zero => rfl
  | succ i => rfl

/-- The first attempt, and the others. -/
theorem Script.exchanges_cons (script : Script) (request : Request) (k : Nat) :
    script.exchanges request (k + 1) = ⟨request.attempt 0, (script 0).event⟩ ::
      (List.range k).map fun i => ⟨request.attempt (i + 1), (script (i + 1)).event⟩ := by
  rw [exchanges, List.range_succ_eq_map, List.map_cons, List.map_map]
  rfl

namespace Submission.Issues

theorem posts_eq (h : s.Issues c script batch start) : ∃ k, s.posts =
    script.post.exchanges (InsertClient.batchRequest script.requestId.str batch) k := by
  rw [h.posts]
  exact exists_send_exchanges _ _ _ _

theorem posted_of_get (h : s.Issues c script batch start) : ∀ x ∈ s.gets, x.posted = none := by
  intro x hx
  have htarget := h.gets x hx
  rw [Exchange.posted]
  split
  · contradiction
  · rfl

theorem posted_of_post (h : s.Issues c script batch start) : ∀ x ∈ s.posts,
    x.request.target = .statements ∧ x.posted.isSome := by
  obtain ⟨k, hk⟩ := h.posts_eq
  rw [hk]
  intro x hx
  obtain ⟨i, _, rfl⟩ := List.mem_map.mp hx
  rw [attempt_posted]
  exact ⟨Request.attempt_target _ i, rfl⟩

/-- **A submission posts one statement**, first plainly and then as replays. -/
theorem postsOne (h : s.Issues c script batch start) : PostsOne Exchange.posted s.exchanges := by
  obtain ⟨k, hk⟩ := h.posts_eq
  have hposts : ∀ x ∈ s.exchanges, ∀ p, x.posted = some p → x ∈ s.posts := by
    intro x hx p hp
    rcases List.mem_append.mp hx with hx | hx
    · exact hx
    · rw [h.posted_of_get x hx] at hp
      cases hp
  cases k with
  | zero =>
    have hnone : s.posts = [] := by rw [hk]; rfl
    rw [hnone] at hposts
    refine ⟨fun x hx p hp => ?_, fun x hx p hp => ?_⟩
    · exact absurd (hposts x hx p hp) List.not_mem_nil
    · exact absurd (hposts x (List.mem_of_mem_tail hx) p hp) List.not_mem_nil
  | succ k =>
    have hcons := hk.trans (script.post.exchanges_cons _ k)
    refine ⟨fun x hx p hp => ?_, fun x hx p hp => ?_⟩
    · refine ⟨⟨some script.requestId.str, false⟩, ?_, rfl, ?_⟩
      · rw [Submission.exchanges, hcons]
        exact attempt_posted _ _ 0 _
      · have hmem := hposts x hx p hp
        rw [hk] at hmem
        obtain ⟨i, _, rfl⟩ := List.mem_map.mp hmem
        rw [attempt_posted] at hp
        cases hp
        rfl
    · rw [Submission.exchanges, hcons, List.cons_append, List.tail_cons] at hx
      rcases List.mem_append.mp hx with hx | hx
      · obtain ⟨i, _, rfl⟩ := List.mem_map.mp hx
        rw [attempt_posted] at hp
        cases hp
        exact decide_eq_true (Nat.succ_ne_zero i)
      · rw [h.posted_of_get x hx] at hp
        cases hp

end Submission.Issues

/-! ### A submission in a history -/

variable {pre rest : List Exchange} {log : Log}

variable (pre rest) in
theorem exists_at_of_post {x : Exchange} (hx : x ∈ s.posts) : ∃ i, i < s.posts.length ∧
    i < s.exchanges.length ∧ (pre ++ (s.exchanges ++ rest))[pre.length + i]? = some x := by
  obtain ⟨i, hi, rfl⟩ := List.mem_iff_getElem.mp hx
  have hlen : i < s.exchanges.length := by
    rw [Submission.exchanges, List.length_append]
    omega
  refine ⟨i, hi, hlen, ?_⟩
  rw [getElem?_block hlen, Submission.exchanges, List.getElem?_append_left hi,
    List.getElem?_eq_getElem hi]

variable (pre rest) in
theorem exists_at_of_get {y : Exchange} (hy : y ∈ s.gets) : ∃ j, s.posts.length ≤ j ∧
    j < s.exchanges.length ∧ (pre ++ (s.exchanges ++ rest))[pre.length + j]? = some y := by
  obtain ⟨j, hj, rfl⟩ := List.mem_iff_getElem.mp hy
  have hlen : s.posts.length + j < s.exchanges.length := by
    have hsplit : s.exchanges.length = s.posts.length + s.gets.length := List.length_append
    omega
  refine ⟨s.posts.length + j, Nat.le_add_right _ _, hlen, ?_⟩
  rw [getElem?_block hlen, Submission.exchanges,
    List.getElem?_append_right (Nat.le_add_right _ _), Nat.add_sub_cancel_left]
  exact List.getElem?_eq_getElem hj

theorem posts_isSome {history : List Exchange} {a : Nat} {x : Exchange} (ha : history[a]? = some x)
    (hx : x.posted.isSome) : (posts Exchange.posted history a).isSome := by
  rw [posts, ha]
  exact hx

variable (pre rest) in
/-- A handle that a POST of the submission was given, and the GET of it that was answered so. -/
theorem exists_at_of_polled {status : Nat} (h : s.Polled status) : ∃ x i y j, x ∈ s.posts ∧
    i < j ∧ j < s.exchanges.length ∧
    (pre ++ (s.exchanges ++ rest))[pre.length + i]? = some x ∧
    (pre ++ (s.exchanges ++ rest))[pre.length + j]? = some y ∧
    x.event.handle.truthy = true ∧ y.request.target = .status x.event.handle ∧ y.Answered status := by
  obtain ⟨_, htruthy, ⟨x, hx, rfl⟩, y, hy, htarget, hanswered⟩ := h
  obtain ⟨i, hi, _, hxi⟩ := exists_at_of_post pre rest hx
  obtain ⟨j, hij, hj, hyj⟩ := exists_at_of_get pre rest hy
  exact ⟨x, i, y, j, hx, by omega, hj, hxi, hyj, htruthy, htarget, hanswered⟩

section Server

variable (hserver : Honest (pre ++ (s.exchanges ++ rest)) log) (hissues : s.Issues c script batch start)
include hserver hissues

/-- **An accepted submission is committed** by the end of its requests. -/
theorem confirmed_of_accepted (haccepted : s.Accepted) :
    Confirmed (posts Exchange.posted (pre ++ (s.exchanges ++ rest))) log pre.length
      (pre.length + s.exchanges.length) := by
  have hmono : ∀ {t c : Nat}, t < pre.length + s.exchanges.length → c ∈ log.upTo (t + 1) →
      c ∈ log.upTo (pre.length + s.exchanges.length) := by
    intro t c ht hc
    rw [Log.upTo_append (m := t + 1) ht]
    exact List.mem_append_left _ hc
  rcases haccepted with ⟨x, hx, h200⟩ | hpolled
  · obtain ⟨htarget, hposted⟩ := hissues.posted_of_post x hx
    obtain ⟨i, _, hi, hxi⟩ := exists_at_of_post pre rest hx
    obtain ⟨c, hc, hsame⟩ := hserver.finished _ x hxi htarget h200
    exact ⟨_, Nat.le_add_right _ _, by omega, posts_isSome hxi hposted, c, hmono (by omega) hc, hsame⟩
  · obtain ⟨x, i, y, j, hx, hij, hj, hxi, hyj, htruthy, hget, h200⟩ :=
      exists_at_of_polled pre rest hpolled
    obtain ⟨htarget, hposted⟩ := hissues.posted_of_post x hx
    obtain ⟨c, hc, hsame⟩ :=
      hserver.pollFinished _ x _ y (by omega) hxi hyj htarget htruthy hget h200
    exact ⟨_, Nat.le_add_right _ _, by omega, posts_isSome hxi hposted, c, hmono (by omega) hc, hsame⟩

/-- **A rejected submission is not committed.** -/
theorem notMem_of_rejected (hrejected : s.Rejected) {a : Nat} (ha : pre.length ≤ a)
    (ha' : a < pre.length + s.exchanges.length) {x : Exchange}
    (hx : (pre ++ (s.exchanges ++ rest))[a]? = some x) (hposted : x.posted.isSome) :
    a ∉ log.entries (pre ++ (s.exchanges ++ rest)).length := by
  obtain ⟨i, rfl⟩ := Nat.exists_eq_add_of_le ha
  rw [getElem?_block (by omega)] at hx
  have hpost : s.posts[i]? = some x := by
    rw [Submission.exchanges] at hx
    by_cases hi : i < s.posts.length
    · rwa [List.getElem?_append_left hi] at hx
    · rw [List.getElem?_append_right (by omega)] at hx
      rw [hissues.posted_of_get x (List.mem_of_getElem? hx)] at hposted
      cases hposted
  have hat : (pre ++ (s.exchanges ++ rest))[pre.length + i]? = some x := by
    rw [getElem?_block (by omega), hx]
  have hsame : ∀ {b : Nat} {y : Exchange}, y ∈ s.posts → b < s.exchanges.length →
      (pre ++ (s.exchanges ++ rest))[pre.length + b]? = some y →
      Same (posts Exchange.posted (pre ++ (s.exchanges ++ rest))) (pre.length + b)
        (pre.length + i) := by
    intro b y hy hb hyb
    exact hissues.postsOne.same (by omega) (by omega) (by omega) (by omega)
      (posts_isSome hyb (hissues.posted_of_post y hy).2) (posts_isSome hat hposted)
  rcases hrejected with hnone | ⟨y, hone, hrefused⟩ | ⟨y, hy, h422⟩ | hpolled
  · rw [hnone] at hpost
    cases hpost
  · rw [hone] at hpost
    obtain rfl : y = x := List.mem_singleton.mp (List.mem_of_getElem? hpost) ▸ rfl
    have htarget := (hissues.posted_of_post y (by rw [hone]; exact List.mem_singleton_self y)).1
    exact hserver.refused _ y hat htarget hrefused
  · obtain ⟨b, _, hb, hyb⟩ := exists_at_of_post pre rest hy
    intro hmem
    exact hserver.failed _ y hyb (hissues.posted_of_post y hy).1 h422 _ hmem (hsame hy hb hyb)
  · obtain ⟨y, b, z, j, hy, hbj, hj, hyb, hzj, htruthy, hget, h422⟩ :=
      exists_at_of_polled pre rest hpolled
    intro hmem
    exact hserver.pollFailed _ y _ z (by omega) hyb hzj (hissues.posted_of_post y hy).1 htruthy
      hget h422 _ hmem (hsame hy (by omega) hyb)

end Server

end Submission

/-! ### What is committed -/

/-- The request inserts these rows: its body is that of the plain path. -/
def Request.Inserts (request : Request) (table : PyStr) (columns : List PyStr) (ctx : ClientContext)
    (rows : List (List Value)) : Prop :=
  ∃ b : PreparedBatch, b.Agrees table columns ctx rows ∧ request.body = .content b.content

section Import

variable {cfg : PlannerConfig} {src : Source} {c : InsertClient} {table : PyStr}
  {columns : List PyStr} {ctx : ClientContext} {p q : Planner} {t : Nat}
  {done : List (Submission × List EncodedRow)} {history last : List Exchange} {log : Log}

/-- A confirmed submission was accepted. -/
theorem Imported.accepted {s : Nat} (himported : Imported cfg src c p s done q t) :
    ∀ s ∈ done.map Prod.fst, (∃ script batch start, s.Issues c script batch start) ∧ s.Accepted := by
  intro s hs
  obtain ⟨x, hx, rfl⟩ := List.mem_map.mp hs
  obtain ⟨_, p, b, script, affected, _, hsubmission, houtcome⟩ := himported.submitted x hx
  obtain ⟨hissues, hsound⟩ := submitBatch_sound c script b p
  rw [← hsubmission] at hissues hsound
  exact ⟨⟨_, _, _, hissues⟩, hsound.counted affected houtcome⟩

section Accepted

variable {pre : List Exchange} {submissions : List Submission}
  (haccepted : ∀ s ∈ submissions, (∃ script batch start, s.Issues c script batch start) ∧ s.Accepted)
include haccepted

theorem postsOne_of_accepted : ∀ block ∈ submissions.map Submission.exchanges,
    PostsOne Exchange.posted block := by
  intro block hblock
  obtain ⟨s, hs, rfl⟩ := List.mem_map.mp hblock
  obtain ⟨⟨_, _, _, hissues⟩, _⟩ := haccepted s hs
  exact hissues.postsOne

theorem confirmed_of_split
    (hhistory : history = pre ++ ((submissions.map Submission.exchanges).flatten ++ last))
    (hserver : Honest history log) {first : List (List Exchange)} {block : List Exchange}
    {rest : List (List Exchange)}
    (hsplit : submissions.map Submission.exchanges = first ++ block :: rest) :
    Confirmed (posts Exchange.posted history) log (pre.length + first.flatten.length)
      (pre.length + first.flatten.length + block.length) := by
  obtain ⟨before, after, rfl, rfl, hafter⟩ := List.map_eq_append_iff.mp hsplit
  obtain ⟨s, later, rfl, rfl, rfl⟩ := List.map_eq_cons_iff.mp hafter
  obtain ⟨⟨_, _, _, hissues⟩, haccepted⟩ := haccepted s (by simp)
  rw [List.map_append, List.map_cons, List.flatten_append, List.flatten_cons, List.append_assoc,
    List.append_assoc, ← List.append_assoc] at hhistory
  subst hhistory
  rw [← List.length_append]
  exact confirmed_of_accepted hserver hissues haccepted

end Accepted

/-- **Confirmed submissions are committed once each, in order**, after other requests. -/
theorem between_imported {pre : List Exchange} {s : Nat} (himported : Imported cfg src c p s done q t)
    (hhistory : history = pre ++ ((done.map Prod.fst).flatMap Submission.exchanges ++ last))
    (hserver : Honest history log) (hpassed : Passed log history.length pre.length) :
    List.Forall₂ (fun a s => ∃ x ∈ Submission.exchanges s, history[a]? = some x ∧ x.posted.isSome)
      (log.between pre.length
        (pre.length + ((done.map Prod.fst).flatMap Submission.exchanges).length))
      (done.map Prod.fst) ∧
    Passed log history.length
      (pre.length + ((done.map Prod.fst).flatMap Submission.exchanges).length) := by
  have haccepted := himported.accepted
  generalize done.map Prod.fst = submissions at hhistory haccepted ⊢
  rw [List.flatMap_def] at hhistory ⊢
  have hlen : pre.length + (submissions.map Submission.exchanges).flatten.length ≤
      history.length := by
    rw [hhistory, List.length_append, List.length_append]
    omega
  have hblocks := hpassed.blocks hhistory hserver.atMostOnce hlen (postsOne_of_accepted haccepted)
    fun first block rest hsplit => confirmed_of_split haccepted hhistory hserver hsplit
  rw [List.forall₂_map_right_iff] at hblocks
  exact hblocks

/-- **Confirmed submissions are committed once each, in order.** -/
theorem upTo_imported (himported : Imported cfg src c p 0 done q t)
    (hhistory : history = (done.map Prod.fst).flatMap Submission.exchanges ++ last)
    (hserver : Honest history log) :
    List.Forall₂ (fun a s => ∃ x ∈ Submission.exchanges s, history[a]? = some x ∧ x.posted.isSome)
      (log.upTo ((done.map Prod.fst).flatMap Submission.exchanges).length) (done.map Prod.fst) ∧
    Settled (posts Exchange.posted history) log
      ((done.map Prod.fst).flatMap Submission.exchanges).length := by
  have haccepted := himported.accepted
  generalize done.map Prod.fst = submissions at hhistory haccepted ⊢
  rw [List.flatMap_def] at hhistory ⊢
  have hlen : (submissions.map Submission.exchanges).flatten.length ≤ history.length := by
    rw [hhistory, List.length_append]
    omega
  have hblocks := upTo_confirmed hhistory hserver.atMostOnce hlen (postsOne_of_accepted haccepted) ?_
  · rw [List.forall₂_map_right_iff] at hblocks
    exact hblocks
  · intro pre block rest hsplit
    have hconfirmed := @confirmed_of_split c _ last _ [] _ haccepted hhistory hserver _ _ _ hsplit
    rwa [List.length_nil, Nat.zero_add] at hconfirmed

/-- Entries that stand for one request each. -/
theorem forall₂_filterMap {α β γ : Type} {f : α → Option β} {R : β → γ → Prop} {as : List α}
    {cs : List γ} (h : List.Forall₂ (fun a c => ∃ b, f a = some b ∧ R b c) as cs) :
    List.Forall₂ R (as.filterMap f) cs := by
  induction h with
  | nil => exact .nil
  | cons hhead _ ih =>
    obtain ⟨b, hb, hrel⟩ := hhead
    rw [List.filterMap_cons_some hb]
    exact .cons hrel ih

theorem inserts_of_posted {s : Submission} {x : Exchange} {a : Nat} {part : List (List Value)}
    (hagrees : s.batch.Agrees table columns ctx part)
    (hcontent : ∀ x ∈ s.exchanges, x.request.target = .statements →
      x.request.body = .content s.batch.content)
    (hx : x ∈ s.exchanges) (ha : history[a]? = some x) (hposted : x.posted.isSome) :
    ∃ request, requestAt history a = some request ∧ request.Inserts table columns ctx part := by
  refine ⟨x.request, by rw [requestAt, ha]; rfl, s.batch, hagrees, hcontent x hx ?_⟩
  rw [Exchange.posted] at hposted
  split at hposted
  · assumption
  · cases hposted

/-- The entries of confirmed submissions insert their rows. -/
theorem inserts_entries {s : Nat} {entries : List Nat} (hcfg : cfg.MadeFor table columns)
    (himported : Imported cfg src c p s done q t)
    (hentries : List.Forall₂
      (fun a s => ∃ x ∈ Submission.exchanges s, history[a]? = some x ∧ x.posted.isSome) entries
      (done.map Prod.fst)) :
    List.Forall₂ (fun request part => request.Inserts table columns cfg.ctx part)
      (entries.filterMap (requestAt history)) ((done.map Prod.snd).map (List.map Prod.fst)) := by
  have hboth := forall₂_comp.mpr ⟨_, hentries, himported.agrees hcfg⟩
  refine forall₂_filterMap (hboth.imp fun a part h => ?_)
  obtain ⟨s, ⟨x, hx, ha, hposted⟩, hagrees, hcontent⟩ := h
  exact inserts_of_posted hagrees hcontent hx ha hposted

/-- The requests of confirmed submissions insert their rows. -/
theorem inserts_upTo (hcfg : cfg.MadeFor table columns) (himported : Imported cfg src c p 0 done q t)
    (hhistory : history = (done.map Prod.fst).flatMap Submission.exchanges ++ last)
    (hserver : Honest history log) :
    List.Forall₂ (fun request part => request.Inserts table columns cfg.ctx part)
      ((log.upTo ((done.map Prod.fst).flatMap Submission.exchanges).length).filterMap
        (requestAt history))
      ((done.map Prod.snd).map (List.map Prod.fst)) :=
  inserts_entries hcfg himported (upTo_imported himported hhistory hserver).1

variable (log) in
/-- What is committed, by the end of the confirmed submissions and after it. -/
theorem committed_eq
    (hhistory : history = (done.map Prod.fst).flatMap Submission.exchanges ++ last) :
    committed history log =
      (log.upTo ((done.map Prod.fst).flatMap Submission.exchanges).length).filterMap
        (requestAt history) ++
      (log.between ((done.map Prod.fst).flatMap Submission.exchanges).length
        (((done.map Prod.fst).flatMap Submission.exchanges).length + last.length) ++
          log.tail).filterMap (requestAt history) := by
  have hlen : history.length =
      ((done.map Prod.fst).flatMap Submission.exchanges).length + last.length := by
    rw [hhistory, List.length_append]
  rw [committed, Log.entries, hlen, Log.upTo_append (Nat.le_add_right _ _), List.append_assoc,
    List.filterMap_append]

/-- Nothing is committed after confirmed submissions without further requests. -/
theorem committed_of_none (himported : Imported cfg src c p 0 done q t)
    (hhistory : history = (done.map Prod.fst).flatMap Submission.exchanges)
    (hserver : Honest history log) :
    committed history log =
      (log.upTo ((done.map Prod.fst).flatMap Submission.exchanges).length).filterMap
        (requestAt history) := by
  have hnil : history = (done.map Prod.fst).flatMap Submission.exchanges ++ ([] ++ []) := by
    rw [hhistory, List.append_nil, List.append_nil]
  have hsettled := (upTo_imported himported hnil hserver).2
  have hlog := hserver.atMostOnce
  rw [hnil] at hsettled hlog
  have hone : PostsOne Exchange.posted [] :=
    ⟨fun x hx => absurd hx List.not_mem_nil, fun x hx => absurd hx List.not_mem_nil⟩
  rw [committed_eq log hnil]
  rcases rest_of_last (by simpa using hlog) hsettled hone with hrest | ⟨a, _, ha, ha', _⟩
  · rw [List.append_nil, hrest, List.filterMap_nil, List.append_nil]
  · rw [List.length_nil] at ha'
    omega

/-- **What a failed submission leaves**: its statement once, or nothing, and the outcome it is given
does not say otherwise. -/
structure Leaves (table : PyStr) (columns : List PyStr) (ctx : ClientContext)
    (part : List (List Value)) (outcome : BatchOutcome) (rest : List Request) : Prop where
  atMostOnce : rest = [] ∨
    ∃ request, rest = [request] ∧ request.Inserts table columns ctx part
  succeeded : outcome = .succeeded → rest ≠ []
  notExecuted : outcome = .notExecuted → rest = []
  failed : outcome = .failed → rest = []

theorem leaves_of_passed {pre : List Exchange} {script : SubmissionScript} {batch : PreparedBatch}
    {start : FailedBatch} {s : Submission} {e : Exc} {part : List (List Value)}
    (hserver : Honest (pre ++ (s.exchanges ++ [])) log)
    (hpassed : Passed log (pre ++ (s.exchanges ++ [])).length pre.length)
    (hissues : s.Issues c script batch start) (hsound : s.Sound)
    (houtcome : s.outcome = some (.error e)) (hagrees : s.batch.Agrees table columns ctx part) :
    Leaves table columns ctx part (s.execution.classify e).2
      ((log.between pre.length (pre.length + s.exchanges.length) ++ log.tail).filterMap
        (requestAt (pre ++ (s.exchanges ++ [])))) := by
  have hlen : (pre ++ (s.exchanges ++ [])).length = pre.length + s.exchanges.length := by simp
  have hlog := hserver.atMostOnce
  rw [hlen] at hlog hpassed
  have hrejected : ∀ a, a ∈ log.between pre.length (pre.length + s.exchanges.length) ++ log.tail →
      pre.length ≤ a → a < pre.length + s.exchanges.length →
      (∃ x ∈ s.exchanges, (pre ++ (s.exchanges ++ []))[a]? = some x ∧ x.posted.isSome) →
      ¬ s.Rejected := by
    rintro a hmem ha ha' ⟨x, _, hx, hposted⟩ hrejected
    refine notMem_of_rejected hserver hissues hrejected ha ha' hx hposted ?_
    rw [hlen, Log.entries, Log.upTo_append (Nat.le_add_right _ _), List.append_assoc]
    exact List.mem_append_right _ hmem
  rcases hpassed.last hlog hissues.postsOne with hrest | ⟨a, hrest, ha, ha', hentry⟩
  · rw [hrest]
    refine ⟨.inl rfl, fun hsucceeded => ?_, fun _ => rfl, fun _ => rfl⟩
    have hconfirmed := confirmed_of_accepted hserver hissues
      (hsound.succeeded e houtcome hsucceeded)
    obtain ⟨⟨a, hentry, _⟩, _⟩ := hpassed.confirmed hlog le_rfl hissues.postsOne hconfirmed
    rw [hentry] at hrest
    cases hrest
  · have hnot := hrejected a (by rw [hrest]; exact List.mem_singleton_self a) ha ha' hentry
    obtain ⟨x, hx, hat, hposted⟩ := hentry
    obtain ⟨request, hrequest, hinserts⟩ :=
      inserts_of_posted hagrees hissues.content hx hat hposted
    rw [hrest, List.filterMap_cons_some hrequest, List.filterMap_nil]
    refine ⟨.inr ⟨request, rfl, hinserts⟩, fun _ => List.cons_ne_nil _ _, fun h => ?_, fun h => ?_⟩
    · exact absurd (hsound.rejected e houtcome (.inl h)) hnot
    · exact absurd (hsound.rejected e houtcome (.inr h)) hnot

theorem leaves_of_failed {pre : List Exchange} {script : SubmissionScript} {batch : PreparedBatch}
    {start : FailedBatch} {s : Submission} {e : Exc} {part : List (List Value)}
    (hserver : Honest (pre ++ (s.exchanges ++ [])) log)
    (hsettled : Settled (posts Exchange.posted (pre ++ (s.exchanges ++ []))) log pre.length)
    (hissues : s.Issues c script batch start) (hsound : s.Sound)
    (houtcome : s.outcome = some (.error e)) (hagrees : s.batch.Agrees table columns ctx part) :
    Leaves table columns ctx part (s.execution.classify e).2
      ((log.between pre.length (pre.length + s.exchanges.length) ++ log.tail).filterMap
        (requestAt (pre ++ (s.exchanges ++ [])))) := by
  have hle : pre.length ≤ (pre ++ (s.exchanges ++ [])).length := by
    rw [List.length_append]
    omega
  exact leaves_of_passed hserver (hsettled.passed hserver.atMostOnce hle) hissues hsound houtcome
    hagrees

end Import

/-! ### The result of an import -/

/-- The committed requests insert the first `count` rows of the source, in order and once each. -/
structure InsertsFirst (table : PyStr) (columns : List PyStr) (ctx : ClientContext) (src : Source)
    (count : Nat) (requests : List Request) (parts : List (List (List Value))) : Prop where
  inserts : List.Forall₂ (fun request part => request.Inserts table columns ctx part) requests parts
  lists : src.Lists 0 parts.flatten
  count_eq : parts.flatten.length = count

/-- What an error says of the requests that are committed beside the confirmed ones. -/
def BatchWriteError.Accounts (e : BatchWriteError) (table : PyStr) (columns : List PyStr)
    (ctx : ClientContext) (src : Source) (rest : List Request) : Prop :=
  match e.failedBatch with
  | none => rest = []
  | some failed => failed.startRowIndex = e.nextRowIndex ∧ ∃ part,
      src.Lists e.nextRowIndex part ∧ part.length = failed.rowCount ∧
        Leaves table columns ctx part e.outcome rest

section Result

variable {cfg : PlannerConfig} {src : Source} {c : InsertClient} {table : PyStr}
  {columns : List PyStr} {q : Planner} {t : Nat} {done : List (Submission × List EncodedRow)}
  {history last : List Exchange} {log : Log}

/-- The confirmed submissions of an import insert the first rows of its source. -/
theorem insertsFirst_imported (hcfg : cfg.MadeFor table columns)
    (himported : Imported cfg src c {} 0 done q t)
    (hhistory : history = (done.map Prod.fst).flatMap Submission.exchanges ++ last)
    (hserver : Honest history log) :
    InsertsFirst table columns cfg.ctx src t
      ((log.upTo ((done.map Prod.fst).flatMap Submission.exchanges).length).filterMap
        (requestAt history))
      ((done.map Prod.snd).map (List.map Prod.fst)) := by
  obtain ⟨hrows, ht⟩ := himported.rowsAt
  refine ⟨inserts_upTo hcfg himported hhistory hserver, ?_, ?_⟩
  · rw [← List.map_flatten]
    exact hrows.lists
  · rw [← List.map_flatten, List.length_map, ht, Nat.zero_add]

/-- An import that ends without a failed submission has committed the confirmed ones. -/
theorem insertsFirst_of_none (hcfg : cfg.MadeFor table columns)
    (himported : Imported cfg src c {} 0 done q t)
    (hhistory : history = (done.map Prod.fst).flatMap Submission.exchanges)
    (hserver : Honest history log) :
    InsertsFirst table columns cfg.ctx src t (committed history log)
      ((done.map Prod.snd).map (List.map Prod.fst)) := by
  rw [committed_of_none himported hhistory hserver]
  have hnil : history = (done.map Prod.fst).flatMap Submission.exchanges ++ [] := by
    rw [hhistory, List.append_nil]
  exact insertsFirst_imported hcfg himported hnil hserver

/-- An import that ends with a failed submission accounts for it. -/
theorem accounts_of_failed (hcfg : cfg.MadeFor table columns)
    (himported : Imported cfg src c {} 0 done q t) {script : SubmissionScript} {b : PreparedBatch}
    {rows : List EncodedRow} {s : Submission} {p : Planner} {e : Exc}
    (hhistory : history = (done.map Prod.fst).flatMap Submission.exchanges ++ (s.exchanges ++ []))
    (hserver : Honest history log) (htaken : b.TakenAt cfg src t rows) (hp : p.confirmedRows = t)
    (hsubmission : s = c.submitBatch script b (.start p b script.requestId.str))
    (houtcome : s.outcome = some (.error e)) : ∃ requests rest parts,
      committed history log = requests ++ rest ∧
      InsertsFirst table columns cfg.ctx src (s.execution.error p e).nextRowIndex requests parts ∧
      (s.execution.error p e).Accounts table columns cfg.ctx src rest := by
  obtain ⟨hissues, hsound⟩ := submitBatch_sound c script b p
  rw [← hsubmission] at hissues hsound
  have hagrees : s.batch.Agrees table columns cfg.ctx (rows.map Prod.fst) := by
    rw [hissues.batch_eq]
    exact htaken.agrees hcfg
  have hfirst := insertsFirst_imported hcfg himported hhistory hserver
  have hsettled := (upTo_imported himported hhistory hserver).2
  have hsplit := committed_eq log hhistory
  subst hhistory
  have hleaves := leaves_of_failed hserver hsettled hissues hsound houtcome hagrees
  have hlen : (s.exchanges ++ []).length = s.exchanges.length := by rw [List.append_nil]
  rw [hlen] at hsplit
  refine ⟨_, _, (done.map Prod.snd).map (List.map Prod.fst), hsplit, ?_, ?_⟩
  · show InsertsFirst table columns cfg.ctx src p.confirmedRows _ _
    rw [hp]
    exact hfirst
  · show (s.execution.failedWith e).startRowIndex = p.confirmedRows ∧ ∃ part,
      src.Lists p.confirmedRows part ∧ part.length = (s.execution.failedWith e).rowCount ∧
        Leaves table columns cfg.ctx part (s.execution.classify e).2 _
    refine ⟨hissues.startRowIndex, _, ?_, ?_, hleaves⟩
    · rw [hp]
      exact htaken.rowsAt.lists
    · rw [List.length_map, ← htaken.carries.rowCount]
      exact hissues.rowCount.symm

end Result

/-- **The result of an import says what is committed.** If it returns, every row of the source is,
once and in order. If it raises, the rows before `next_row_index` are, once and in order; those of the
failed batch as its outcome says, and once at most; and no other row. It raises no other error. -/
theorem insert_sound {table : PyStr} {columns : List PyStr} {ctx : ClientContext} {src : Source}
    {maxRows maxBytes : Int} {c : InsertClient} {scripts : List SubmissionScript} {run : InsertRun}
    {log : Log} (hrun : insertBatches c ctx table columns src maxRows maxBytes scripts = .ok run)
    (hserver : Honest run.history log) :
    (∀ batches, run.outcome = .returned batches → ∃ count parts,
      InsertsFirst table columns ctx src count (committed run.history log) parts ∧
      src.iter = none ∧ src.next count = .stop) ∧
    (∀ e, run.outcome = .raised (.stopped e) → ∃ requests rest parts,
      committed run.history log = requests ++ rest ∧
      InsertsFirst table columns ctx src e.nextRowIndex requests parts ∧
      e.Accounts table columns ctx src rest) ∧
    (∀ e, run.outcome ≠ .raised (.escaped e)) := by
  obtain ⟨cfg, hmake, rfl⟩ := insertBatches_eq_ok.mp hrun
  have hcfg := madeFor_of_make hmake
  obtain rfl := ctx_of_make hmake
  obtain ⟨done, q, t, last, hloop, himported, hending⟩ :=
    insertLoop_spec (c := c) hcfg scripts (Planner.at_initial cfg src)
  have hnext : ∀ {p : Planner}, q.SameProgress p → p.confirmedRows = t := by
    intro p hsame
    rw [hsame.1, himported.progress.1, himported.rowsAt.2]
  have hhistory : (InsertRun.after last (done.map Prod.fst)).history =
      (done.map Prod.fst).flatMap Submission.exchanges ++ last.history := List.flatMap_append
  rw [hloop] at hserver ⊢
  generalize hall : (InsertRun.after last (done.map Prod.fst)).history = history at *
  show (∀ batches, last.outcome = _ → _) ∧ (∀ e, last.outcome = _ → _) ∧ ∀ e, last.outcome ≠ _
  cases hending with
  | returned hstop hsame =>
    have hfirst := insertsFirst_of_none hcfg himported (hhistory.trans (List.append_nil _)) hserver
    obtain ⟨hiter, hend⟩ := examine_eq_stop.mp hstop
    refine ⟨fun _ _ => ⟨t, _, hfirst, hiter, hend⟩, fun e he => ?_, fun e he => ?_⟩
    · cases he
    · cases he
  | faulted _ _ _ _ _ hsame | hookRaised _ hsame _ _ =>
    have hfirst := insertsFirst_of_none hcfg himported (hhistory.trans (List.append_nil _)) hserver
    refine ⟨fun _ h => ?_, fun e he => ?_, fun e he => ?_⟩
    · cases h
    · cases he
      rw [← hnext hsame] at hfirst
      exact ⟨_, [], _, (List.append_nil _).symm, hfirst, rfl⟩
    · cases he
  | @failed p b rows script submission e htaken hsame hsubmission houtcome =>
    refine ⟨fun _ h => ?_, fun e he => ?_, fun e he => ?_⟩
    · cases h
    · cases he
      exact accounts_of_failed hcfg himported hhistory hserver htaken (hnext hsame) hsubmission houtcome
    · cases he
  | outOfScripts _ _ _ | polling _ _ _ _ =>
    refine ⟨fun _ h => ?_, fun e he => ?_, fun e he => ?_⟩
    · cases h
    · cases he
    · cases he

/-! ### A lost reply, and a batch that fails

The reply to the first POST is lost, but its batch is committed; it is sent again and found. The
second batch fails. Both submissions happen to have one identity. -/

def lossyScripts : List SubmissionScript :=
  [{ insertedScript with
      post := fun | 0 => lostScript 0 | i + 1 => insertedScript.post (i + 1) },
    { insertedScript with post := answering 422 [] }]

def lossyRun : InsertRun := insertLoop pairConfig pairSource importClient lossyScripts {}

def lossyLog : Log where
  window t := if t = 0 then [0] else []
  tail := []

/-- What a server sees of a request, and the status of its reply. -/
def seen (x : Exchange) : Option (Option PyStr × Bool) × Option Nat :=
  (x.posted.map fun p => (p.id, p.replay), x.event.response.map (·.statusCode))

theorem seen_lossyRun : lossyRun.history.map seen =
    [(some (some sampleUuid.str, false), none), (some (some sampleUuid.str, true), some 200),
      (some (some sampleUuid.str, false), some 422)] := by decide +kernel

section Seen

variable {history : List Exchange} {all : List (Option (Option PyStr × Bool) × Option Nat)} {a : Nat}
  (hall : history.map seen = all)
include hall

theorem posts_of_seen : posts Exchange.posted history a =
    all[a]?.bind fun s => s.1.map fun p => ⟨p.1, p.2⟩ := by
  rw [← hall, List.getElem?_map, posts]
  cases history[a]? with
  | none => rfl
  | some x =>
    rw [Option.map_some, Option.bind_some, Option.bind_some, seen]
    cases x.posted with
    | none => rfl
    | some p => rfl

theorem answered_of_seen {x : Exchange} {status : Nat} (hx : history[a]? = some x)
    (h : x.Answered status) : ∃ s, all[a]? = some s ∧ s.2 = some status ∧
      (s.1.isSome → x.posted.isSome) := by
  obtain ⟨r, hr, rfl⟩ := h
  refine ⟨seen x, by rw [← hall, List.getElem?_map, hx]; rfl, by rw [seen, hr]; rfl, ?_⟩
  rw [seen, Option.isSome_map]
  exact id

end Seen

theorem length_lossyRun : lossyRun.history.length = 3 := by
  have hlen := congrArg List.length seen_lossyRun
  rwa [List.length_map] at hlen

theorem answered_lossyRun {a : Nat} {x : Exchange} {status : Nat}
    (hx : lossyRun.history[a]? = some x) (h : x.Answered status) :
    x.posted.isSome ∧ (a = 1 ∧ status = 200 ∨ a = 2 ∧ status = 422) := by
  obtain ⟨s, hs, hstatus, hposted⟩ := answered_of_seen seen_lossyRun hx h
  clear hx h
  match a with
  | 0 =>
    cases hs
    cases hstatus
  | 1 =>
    cases hs
    cases hstatus
    exact ⟨hposted rfl, .inl ⟨rfl, rfl⟩⟩
  | 2 =>
    cases hs
    cases hstatus
    exact ⟨hposted rfl, .inr ⟨rfl, rfl⟩⟩
  | a + 3 => cases hs

theorem not_status_of_posted {x : Exchange} {handle : Json} (h : x.posted.isSome) :
    x.request.target ≠ .status handle := by
  intro htarget
  rw [Exchange.posted, htarget] at h
  cases h

/-- A server that confirms what it has committed, and says nothing else. -/
theorem honest_of_confirmed {history : List Exchange} {log : Log}
    (hlog : AtMostOnce (posts Exchange.posted history) history.length log)
    (hanswered : ∀ a x status, history[a]? = some x → x.Answered status →
      x.posted.isSome ∧ status = 200 ∧ a ∈ log.upTo (a + 1)) : Honest history log := by
  refine ⟨hlog, ?_, ?_, ?_, ?_, ?_⟩
  · rintro a x hx _ ⟨status, hstatus, h⟩
    obtain ⟨_, rfl, _⟩ := hanswered a x status hx h
    simp at hstatus
  · intro a x hx _ h
    cases (hanswered a x _ hx h).2.1
  · intro a x hx _ h
    exact ⟨a, (hanswered a x _ hx h).2.2, .inl rfl⟩
  · intro a x t y _ _ hy _ _ htarget h
    exact absurd htarget (not_status_of_posted (hanswered t y _ hy h).1)
  · intro a x t y _ _ hy _ _ htarget h
    exact absurd htarget (not_status_of_posted (hanswered t y _ hy h).1)

/-- The second POST replays the first, and the third replays neither. -/
theorem honest_lossyRun : Honest lossyRun.history lossyLog := by
  have hentries : lossyLog.entries lossyRun.history.length = [0] := by
    rw [length_lossyRun]
    rfl
  have hreplay : Same (posts Exchange.posted lossyRun.history) 1 0 := by
    refine .inr (.inr ⟨by decide, _, _, posts_of_seen seen_lossyRun, posts_of_seen seen_lossyRun, rfl, ?_⟩)
    intro a p ha ha' hp _
    obtain rfl : a = 1 := by omega
    rw [posts_of_seen seen_lossyRun] at hp
    cases hp
    rfl
  have hother : ¬ Same (posts Exchange.posted lossyRun.history) 2 0 := by
    rintro (h | ⟨h, _⟩ | ⟨_, p, q, hp, hq, hid, hmarked⟩)
    · omega
    · omega
    · have hreplay := hmarked 2 q (by decide) le_rfl hq rfl
      rw [posts_of_seen seen_lossyRun] at hq
      cases hq
      cases hreplay
  refine ⟨⟨?_, ?_, ?_⟩, ?_, ?_, ?_, ?_, ?_⟩
  · intro t _ a ha
    match t with
    | 0 =>
      obtain rfl := List.mem_singleton.mp ha
      exact ⟨le_rfl, by rw [posts_of_seen seen_lossyRun]; rfl⟩
    | t + 1 => cases ha
  · exact fun a ha => absurd ha List.not_mem_nil
  · rw [hentries]
    exact List.pairwise_singleton _ _
  · rintro a x hx _ ⟨status, hstatus, hanswered⟩
    rcases (answered_lossyRun hx hanswered).2 with ⟨_, rfl⟩ | ⟨_, rfl⟩
    · simp at hstatus
    · simp at hstatus
  · intro a x hx _ hanswered c hc
    rw [hentries] at hc
    obtain rfl := List.mem_singleton.mp hc
    rcases (answered_lossyRun hx hanswered).2 with ⟨_, h⟩ | ⟨rfl, _⟩
    · cases h
    · exact hother
  · intro a x hx _ hanswered
    rcases (answered_lossyRun hx hanswered).2 with ⟨rfl, _⟩ | ⟨_, h⟩
    · exact ⟨0, List.mem_singleton_self 0, hreplay⟩
    · cases h
  · intro a x t y _ _ hy _ _ htarget hanswered
    exact absurd htarget (not_status_of_posted (answered_lossyRun hy hanswered).1)
  · intro a x t y _ _ hy _ _ htarget hanswered
    exact absurd htarget (not_status_of_posted (answered_lossyRun hy hanswered).1)

def failedAfterOne (run : InsertRun) : Bool :=
  match run.outcome with
  | .raised (.stopped e) => e.nextRowIndex = 1 && e.outcome = .failed
  | _ => false

theorem insert_sound_lossyRun : ∃ e requests rest parts,
    lossyRun.outcome = .raised (.stopped e) ∧ e.nextRowIndex = 1 ∧ e.outcome = .failed ∧
    committed lossyRun.history lossyLog = requests ++ rest ∧
    InsertsFirst hostileTable hostileColumns pairContext pairSource 1 requests parts ∧
    e.Accounts hostileTable hostileColumns pairContext pairSource rest := by
  have hrun : insertBatches importClient pairContext hostileTable hostileColumns pairSource 3 273
      lossyScripts = .ok lossyRun := insertBatches_eq_ok.mpr ⟨pairConfig, make_pairConfig, rfl⟩
  have hend : failedAfterOne lossyRun = true := by decide +kernel
  have hsound := (insert_sound hrun honest_lossyRun).2.1
  rw [failedAfterOne] at hend
  split at hend
  · rename_i e he
    simp only [Bool.and_eq_true, decide_eq_true_eq] at hend
    obtain ⟨requests, rest, parts, hcommitted, hfirst, haccounts⟩ := hsound e he
    rw [hend.1] at hfirst
    exact ⟨e, requests, rest, parts, he, hend.1, hend.2, hcommitted, hfirst, haccounts⟩
  · cases hend

end SnowflakeSqlApi
