import SnowflakeSqlApi.ClientBase
import SnowflakeSqlApi.Transport
import SnowflakeSqlApi.Lib.Replay

/-!
# Submitting under an identity of the caller

`submit` and `resubmit` post a statement under a `requestId` that the caller keeps, so that
another worker can take over.  The retry mark of a post comes from two places: `resubmit`
asks for it, and the transport adds it after the first attempt of a call.

`posts_replay_safe` is the law of a history of such calls: all posts are the same
statement, and only the first post of the `submit` may be without the mark.
-/

namespace SnowflakeSqlApi

/-! ### UUIDs -/

/-- A `uuid.UUID`, by its integer. -/
structure Uuid where
  value : Nat
  valid : value < 2 ^ 128
  deriving DecidableEq

/-- `s.replace(text, "")`. The counter runs over the characters of an occurrence. -/
def removeText (text : PyStr) : Nat → PyStr → PyStr
  | _, [] => []
  | k + 1, _ :: cs => removeText text k cs
  | 0, c :: cs =>
    if text.isPrefixOf (c :: cs) then removeText text (text.length - 1) cs
    else c :: removeText text 0 cs

def hexRun (acc : Nat) : PyStr → Option Nat
  | [] => some acc
  | c :: cs => (hexValue c).bind fun d => hexRun (acc * 16 + d) cs

namespace Uuid

/-- `uuid.UUID(s)`, `none` where it raises `ValueError`: the prefixes, braces and hyphens are
dropped, and 32 hexadecimal digits must be left. -/
def parse (s : PyStr) : Option Uuid :=
  let bare := removeText (py "uuid:") 0 (removeText (py "urn:") 0 s)
  let hex := (stripBy (fun c => c = ch '\x7b' || c = ch '\x7d') bare).filter (· ≠ ch '-')
  if hex.length ≠ 32 then none
  else
    (hexRun 0 hex).bind fun n => if h : n < 2 ^ 128 then some ⟨n, h⟩ else none

/-- The hexadecimal digits of the lowest `k` places. -/
def hexDigits : Nat → Nat → PyStr
  | 0, _ => []
  | k + 1, n => hexDigits k (n / 16) ++ [hexDigit (n % 16)]

/-- `str(u)`. -/
def str (u : Uuid) : PyStr :=
  let hex := hexDigits 32 u.value
  hex.take 8 ++ [ch '-'] ++ (hex.drop 8).take 4 ++ [ch '-'] ++ (hex.drop 12).take 4 ++ [ch '-']
    ++ (hex.drop 16).take 4 ++ [ch '-'] ++ hex.drop 20

end Uuid

/-- The `request_id` argument. -/
inductive RequestId
  | none
  | uuid (u : Uuid)
  | text (s : PyStr)
  | other

/-- `_submission_id`. `fresh` is what `uuid.uuid4()` returns. -/
def submissionId (fresh : Uuid) (requestId : RequestId) (retry : Bool) : Except Exc PyStr :=
  match requestId with
  | .none =>
    if retry then .error (.config [lit "request_id must be a UUID string or UUID object"])
    else .ok fresh.str
  | .uuid u => .ok u.str
  | .text s =>
    match Uuid.parse s with
    | some u => .ok u.str
    | Option.none => .error (.config [lit "request_id must be a valid UUID"])
  | .other => .error (.config [lit "request_id must be a UUID string or UUID object"])

/-! ### One call -/

/-- A `QueryHandle`. -/
structure QueryHandle where
  statementHandle : Json
  requestId : PyStr

/-- A worker that submits or resubmits: its client, its form of the identity, what its
`on_query` hook raises, and the network it meets. -/
structure Worker where
  policy : RetryPolicy
  mode : Mode
  requestId : RequestId
  fresh : Uuid
  notifyError : Option Exc := none
  script : Script

/-- `except SnowflakeError as exc: exc.request_id = canonical_id`. -/
def withRequestId (canonicalId : PyStr) (e : Exc) : Exc :=
  if e.cls.isSnowflake then { e with requestId := some canonicalId } else e

/-- The `try` block of `_submit_handle`. -/
def submitPayload (ctx : ClientContext) (sql : PyStr) (params : List Value) (retry : Bool)
    (w : Worker) (canonicalId : PyStr) : List Exchange × Except Exc QueryHandle :=
  match ctx.buildPayload sql params with
  | .error e => ([], .error (withRequestId canonicalId e))
  | .ok payload =>
    match send w.policy w.mode (.submit canonicalId true retry (.json payload)) w.script with
    | (exchanges, .error e) => (exchanges, .error (withRequestId canonicalId e))
    | (exchanges, .ok response) =>
      match response.statementHandle with
      | .null => (exchanges, .error (withRequestId canonicalId
          { cls := .request, message := [lit "async submit returned no statement handle"] }))
      | handle => (exchanges, .ok ⟨handle, canonicalId⟩)

/-- `_submit_handle`: `submit` without `retry`, `resubmit` with it. -/
def submitHandle (ctx : ClientContext) (sql : PyStr) (params : List Value) (retry : Bool)
    (w : Worker) : List Exchange × Except Exc QueryHandle :=
  match submissionId w.fresh w.requestId retry with
  | .error e => ([], .error e)
  | .ok canonicalId =>
    match w.notifyError with
    | some e => ([], .error e)
    | none => submitPayload ctx sql params retry w canonicalId

/-! ### The posts of a history -/

namespace Request

/-- A query parameter. -/
def param (request : Request) (key : PyStr) : Option PyStr := (request.params.getD []).lookup key

/-- A post as a server sees it that recognises replays. -/
def post (request : Request) : Replay.Post (Option PyStr) where
  id := request.param (py "requestId")
  replay := request.param (py "retry") = some (py "true")

end Request

/-- A post of a statement under `id`, to be executed asynchronously. -/
structure PostsStatement (ctx : ClientContext) (sql : PyStr) (params : List Value) (id : PyStr)
    (request : Request) : Prop where
  target : request.target = .statements
  requestId : request.param (py "requestId") = some id
  async : request.param (py "async") = some (py "true")
  body : ∃ payload, ctx.buildPayload sql params = .ok payload ∧ request.body = .json payload

section History

variable {ctx : ClientContext} {sql : PyStr} {params : List Value}

/-- The attempts of a submit are the same post, marked as a replay from the second on. -/
theorem attempt_submit (id : PyStr) (retry : Bool) {payload : Dict}
    (hpayload : ctx.buildPayload sql params = .ok payload) (i : Nat) :
    PostsStatement ctx sql params id ((Request.submit id true retry (.json payload)).attempt i) ∧
      ((retry = true ∨ i ≠ 0) →
        ((Request.submit id true retry (.json payload)).attempt i).post.replay = true) := by
  cases i with
  | zero =>
    refine ⟨⟨rfl, ?_, ?_, payload, hpayload, rfl⟩, fun h => ?_⟩
    · cases retry <;> rfl
    · cases retry <;> rfl
    · rcases h with rfl | h
      · rfl
      · exact absurd rfl h
  | succ i =>
    refine ⟨⟨rfl, ?_, ?_, payload, hpayload, rfl⟩, fun _ => ?_⟩
    · cases retry <;> rfl
    · cases retry <;> rfl
    · cases retry <;> rfl

theorem submitPayload_posts (retry : Bool) (w : Worker) (id : PyStr) :
    (∀ e ∈ (submitPayload ctx sql params retry w id).1, PostsStatement ctx sql params id e.request) ∧
      (∀ e ∈ (submitPayload ctx sql params retry w id).1.tail, e.request.post.replay = true) ∧
      (retry = true → ∀ e ∈ (submitPayload ctx sql params retry w id).1,
        e.request.post.replay = true) := by
  cases hpayload : ctx.buildPayload sql params with
  | error e =>
    rw [submitPayload, hpayload]
    simp
  | ok payload =>
    obtain ⟨k, hk⟩ := exists_send_exchanges w.policy w.mode
      (.submit id true retry (.json payload)) w.script
    have hposts : (submitPayload ctx sql params retry w id).1 =
        w.script.exchanges (.submit id true retry (.json payload)) k := by
      rw [← hk, submitPayload, hpayload]
      dsimp only
      generalize send w.policy w.mode _ w.script = out
      obtain ⟨exchanges, result⟩ := out
      cases result with
      | error e => rfl
      | ok response =>
        dsimp only
        cases response.statementHandle <;> rfl
    have hattempt := attempt_submit id retry hpayload
    rw [hposts]
    refine ⟨fun e he => ?_, fun e he => ?_, fun hretry e he => ?_⟩
    · obtain ⟨i, _, rfl⟩ := List.mem_map.mp he
      exact (hattempt i).1
    · rw [Script.exchanges, ← List.map_tail, List.tail_range] at he
      obtain ⟨i, hi, rfl⟩ := List.mem_map.mp he
      refine (hattempt i).2 (.inr ?_)
      have := (List.mem_range'_1.mp hi).1
      omega
    · obtain ⟨i, _, rfl⟩ := List.mem_map.mp he
      exact (hattempt i).2 (.inl hretry)

variable (ctx sql params) in
/-- **The posts of one call** are one statement under the canonical identity, all marked as replays
but perhaps the first of a call without `retry`. -/
theorem submitHandle_posts (retry : Bool) (w : Worker) {id : PyStr}
    (hid : submissionId w.fresh w.requestId retry = .ok id) :
    (∀ e ∈ (submitHandle ctx sql params retry w).1, PostsStatement ctx sql params id e.request) ∧
      (∀ e ∈ (submitHandle ctx sql params retry w).1.tail, e.request.post.replay = true) ∧
      (retry = true → ∀ e ∈ (submitHandle ctx sql params retry w).1,
        e.request.post.replay = true) := by
  rw [submitHandle, hid]
  dsimp only
  cases w.notifyError with
  | some e => simp
  | none => exact submitPayload_posts retry w id

/-- The form of an identity that a caller may give. -/
def RequestId.Denotes (requestId : RequestId) (u : Uuid) : Prop :=
  requestId = .uuid u ∨ ∃ s, requestId = .text s ∧ Uuid.parse s = some u

theorem submissionId_of_denotes {requestId : RequestId} {u : Uuid} (h : requestId.Denotes u)
    (fresh : Uuid) (retry : Bool) : submissionId fresh requestId retry = .ok u.str := by
  rcases h with rfl | ⟨s, rfl, hs⟩
  · rfl
  · rw [submissionId, hs]

/-- What a worker posts before it is lost, after `issued` requests. -/
def Worker.posts (ctx : ClientContext) (sql : PyStr) (params : List Value) (retry : Bool)
    (w : Worker) (issued : Nat) : List Request :=
  ((submitHandle ctx sql params retry w).1.take issued).map (·.request)

variable (ctx sql params) in
theorem posts_eq {id : PyStr} (retry : Bool) (w : Worker) (issued : Nat)
    (hid : submissionId w.fresh w.requestId retry = .ok id) :
    (∀ r ∈ w.posts ctx sql params retry issued, PostsStatement ctx sql params id r) ∧
      (∀ r ∈ (w.posts ctx sql params retry issued).tail, r.post.replay = true) ∧
      (retry = true → ∀ r ∈ w.posts ctx sql params retry issued, r.post.replay = true) := by
  obtain ⟨hposts, htail, hretry⟩ := submitHandle_posts ctx sql params retry w hid
  rw [Worker.posts]
  refine ⟨fun r hr => ?_, fun r hr => ?_, fun hflag r hr => ?_⟩
  · obtain ⟨e, he, rfl⟩ := List.mem_map.mp hr
    exact hposts e (List.mem_of_mem_take he)
  · rw [← List.map_tail] at hr
    obtain ⟨e, he, rfl⟩ := List.mem_map.mp hr
    exact htail e ((List.take_sublist _ _).tail.subset he)
  · obtain ⟨e, he, rfl⟩ := List.mem_map.mp hr
    exact hretry hflag e (List.mem_of_mem_take he)

theorem mem_tail_append {α : Type} {xs ys : List α} {a : α} (h : a ∈ (xs ++ ys).tail) :
    a ∈ xs.tail ++ ys := by
  cases xs with
  | nil => exact List.mem_of_mem_tail h
  | cons x xs => exact h

variable (ctx sql params) in
/-- **Replay is safe across workers.** One worker submits under an identity, any others resubmit
under it, each in its own form of it, and each may be lost after any number of requests. All posts
are the same statement, all are marked as replays but the first of the submit, and a server that
recognises replays executes at most one of those that reach it. -/
theorem posts_replay_safe {u : Uuid} (submitter : Worker) (issued : Nat)
    (resubmitters : List (Worker × Nat)) (hsubmitter : submitter.requestId.Denotes u)
    (hresubmitters : ∀ w ∈ resubmitters, w.1.requestId.Denotes u) :
    let first := submitter.posts ctx sql params false issued
    let later := resubmitters.flatMap fun w => w.1.posts ctx sql params true w.2
    (∀ r ∈ first ++ later, PostsStatement ctx sql params u.str r) ∧
      (∀ r ∈ first.tail ++ later, r.post.replay = true) ∧
      ∀ (accepted : List (Option PyStr)) (received : List Request),
        received.Sublist (first ++ later) →
          (Replay.executed accepted (received.map Request.post)).length ≤ 1 := by
  intro first later
  obtain ⟨hfirst, hfirstTail, _⟩ := posts_eq ctx sql params false submitter issued
    (submissionId_of_denotes hsubmitter _ _)
  have hlater : ∀ r ∈ later, PostsStatement ctx sql params u.str r ∧ r.post.replay = true := by
    intro r hr
    obtain ⟨w, hw, hr⟩ := List.mem_flatMap.mp hr
    obtain ⟨hposts, _, hmarked⟩ := posts_eq ctx sql params true w.1 w.2
      (submissionId_of_denotes (hresubmitters w hw) _ _)
    exact ⟨hposts r hr, hmarked rfl r hr⟩
  have hall : ∀ r ∈ first ++ later, PostsStatement ctx sql params u.str r := by
    intro r hr
    rcases List.mem_append.mp hr with hr | hr
    · exact hfirst r hr
    · exact (hlater r hr).1
  have hmarked : ∀ r ∈ first.tail ++ later, r.post.replay = true := by
    intro r hr
    rcases List.mem_append.mp hr with hr | hr
    · exact hfirstTail r hr
    · exact (hlater r hr).2
  refine ⟨hall, hmarked, fun accepted received hsub => ?_⟩
  have hids : ∀ p ∈ (first ++ later).map Request.post, p.id = some u.str := by
    intro p hp
    obtain ⟨r, hr, rfl⟩ := List.mem_map.mp hp
    exact (hall r hr).requestId
  have hreplay : ∀ p ∈ ((first ++ later).map Request.post).tail, p.replay = true := by
    intro p hp
    rw [← List.map_tail] at hp
    obtain ⟨r, hr, rfl⟩ := List.mem_map.mp hp
    exact hmarked r (mem_tail_append hr)
  exact Replay.executed_length_le_one_of_sublist accepted (hsub.map Request.post) hids hreplay

end History

/-! ### A takeover -/

def sampleUuid : Uuid := ⟨0x0123456789ABCDEF0123456789ABCDEF, by decide⟩

/-- The network loses every request. -/
def lostScript : Script := fun _ =>
  ⟨idleDraw, .lost (py "ReadTimeout")⟩

def sampleSubmitter : Worker where
  policy := { defaultRetryPolicy with jitter := false }
  mode := .sync
  requestId := .text (py "01234567-89ab-cdef-0123-456789abcdef")
  fresh := ⟨0, by decide⟩
  script := lostScript

/-- A worker with another way to write the identity. -/
def sampleResubmitter : Worker :=
  { sampleSubmitter with
    requestId := .text (py "urn:uuid:\x7b0123456789ABCDEF0123456789ABCDEF\x7d") }

theorem posts_replay_safe_takeover :
    (sampleSubmitter.posts {} (py "SELECT 1") [] false 2).length = 2 ∧
      (sampleResubmitter.posts {} (py "SELECT 1") [] true 1).length = 1 ∧
      (Replay.executed [] ((sampleSubmitter.posts {} (py "SELECT 1") [] false 2 ++
        [(sampleResubmitter, 1)].flatMap fun w =>
          w.1.posts {} (py "SELECT 1") [] true w.2).map Request.post)).length ≤ 1 := by
  have hsubmitter : sampleSubmitter.requestId.Denotes sampleUuid := .inr ⟨_, rfl, by decide +kernel⟩
  have hresubmitter : sampleResubmitter.requestId.Denotes sampleUuid :=
    .inr ⟨_, rfl, by decide +kernel⟩
  refine ⟨by decide +kernel, by decide +kernel, ?_⟩
  have hsafe := posts_replay_safe {} (py "SELECT 1") [] sampleSubmitter 2 [(sampleResubmitter, 1)]
    hsubmitter (by simpa using hresubmitter)
  exact hsafe.2.2 [] _ (List.Sublist.refl _)

end SnowflakeSqlApi
