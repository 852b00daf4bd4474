import SnowflakeSqlApi.Pagination
import SnowflakeSqlApi.Testing.Fake

/-!
# Statements of the fake server

A statement of the fake is its registration and the polls that are left of it
(`State`), and the other operations do not touch it: `step_opened` says what one
operation does to an open statement, whatever it is, and what a GET of it is answered.
From it `fake_isolates` gives the replies of a whole run.

Handles come from a counter that only grows, so no two are the same.
-/

namespace SnowflakeSqlApi.Testing

/-! ### Requests about a statement -/

namespace HttpRequest

def IsSubmit (request : HttpRequest) : Prop :=
  request.method = py "POST" ∧ request.path = statementsPath

/-- A GET of the statement. -/
def IsGet (request : HttpRequest) (handle : PyStr) : Prop :=
  request.method = py "GET" ∧ statementsPath ++ [ch '/'] <+: request.path ∧
    Fake.lastSegment request.path = handle

def IsStatusGet (request : HttpRequest) (handle : PyStr) : Prop :=
  request.IsGet handle ∧ request.params.lookup (py "partition") = none

def IsPartitionGet (request : HttpRequest) (handle : PyStr) (index : Nat) : Prop :=
  request.IsGet handle ∧ ∃ text, request.params.lookup (py "partition") = some text ∧
    parseInt text = some (index : Int)

instance (request : HttpRequest) : Decidable request.IsSubmit := inferInstanceAs (Decidable (_ ∧ _))

instance (request : HttpRequest) (handle : PyStr) : Decidable (request.IsGet handle) :=
  inferInstanceAs (Decidable (_ ∧ _ ∧ _))

instance (request : HttpRequest) (handle : PyStr) : Decidable (request.IsStatusGet handle) :=
  inferInstanceAs (Decidable (_ ∧ _))

end HttpRequest

/-- What one operation of a run came to. -/
abbrev Outcome := Op × Except Exc (Option Response)

/-- The reply to a status GET of the statement, if the operation is one. -/
def statusReply (handle : PyStr) : Outcome → Option (Except Exc (Option Response))
  | (.request request, reply) => if request.IsStatusGet handle then some reply else none
  | _ => none

/-- The handle a submit is answered with. -/
def issuedHandle : Outcome → Option Json
  | (.request request, .ok (some reply)) => if request.IsSubmit then some reply.handle else none
  | _ => none

/-- The operation registers `reg` for the statement. -/
def Op.Registers (conv : Conversions) (sql : Json) (reg : Reg) : Op → Prop
  | .register text r => sql = .str text ∧ build conv r = .ok reg
  | .registerMatch predicate r => predicate sql = true ∧ build conv r = .ok reg
  | .registerDml text rowcount => sql = .str text ∧ dmlReg rowcount = .ok reg
  | .registerError text error => sql = .str text ∧ reg = errorReg error
  | .request _ => False

/-! ### What a registration builds -/

theorem build_eq_ok {conv : Conversions} {r : Registration} {reg : Reg} (h : build conv r = .ok reg) :
    ∃ columns wire, wireRows conv r = .ok (columns, wire) ∧ reg.rowType = columns.map Column.entry ∧
      1 ≤ r.partitions ∧ reg.chunks.length = r.partitions.toNat ∧ reg.chunks.flatten = wire ∧
      reg.pollsBeforeReady = r.pollsBeforeReady ∧ reg.error = none := by
  rw [build] at h
  split at h
  · cases h
  next columns wire hwire =>
  split at h
  · cases h
  next chunks hsplit =>
  cases h
  obtain ⟨hpos, -, hlength, hflatten⟩ := split_eq_ok hsplit
  exact ⟨columns, wire, hwire, rfl, hpos, hlength, hflatten, rfl, rfl⟩

theorem partitions_le_of_build {conv : Conversions} {r : Registration} {reg : Reg}
    (h : build conv r = .ok reg) : r.partitions ≤ maxSize := by
  obtain ⟨-, -, -, -, hpos, hlength, -⟩ := build_eq_ok h
  have hle := reg.chunks_le
  omega

/-! ### Replies -/

namespace Fake

theorem handleText_injective {n m : Nat} (h : handleText n = handleText m) : n = m := by
  have htext : strNat n = strNat m := List.append_cancel_left h
  exact strNat_injective htext

/-- The body of a finished statement. -/
def resultBody (reg : Reg) (handle : PyStr) : Dict := [
  (py "resultSetMetaData", .obj [
    (py "numRows", .int (reg.chunks.head reg.chunks_ne).length),
    (py "format", .str (py "jsonv2")),
    (py "partitionInfo", .arr (.obj [(py "rowCount", .int (reg.chunks.head reg.chunks_ne).length)]
      :: List.replicate (reg.chunks.length - 1) (.obj [(py "rowCount", .int 0)]))),
    (py "rowType", .arr reg.rowType)]),
  (py "data", dataJson (reg.chunks.head reg.chunks_ne)),
  (py "code", .str (py "090001")),
  (py "sqlState", .str (py "00000")),
  (py "statementHandle", .str handle),
  (py "statementStatusUrl", .str (statusUrl handle))]
  ++ reg.stats.elim [] fun stats => [(py "stats", stats)]

/-- A registration always has its first chunk to serve. -/
theorem resultResponse_eq (reg : Reg) (handle : PyStr) :
    resultResponse reg handle = .ok (response 200 (resultBody reg handle)) := by
  have hlength := List.length_pos_of_ne_nil reg.chunks_ne
  rw [resultResponse, okBody, if_neg (by omega)]
  rfl

/-- **The body announces the chunks there are.** -/
theorem partitionCount_resultBody (reg : Reg) (handle : PyStr) :
    partitionCount (resultBody reg handle) = .ok reg.chunks.length := by
  have hlength := List.length_pos_of_ne_nil reg.chunks_ne
  show Except.ok (List.length (_ :: List.replicate (reg.chunks.length - 1) _)) = _
  rw [List.length_cons, List.length_replicate]
  congr 1
  omega

/-- The reply to a status GET of a statement. -/
def answer (st : State) (handle : PyStr) : Response :=
  if 0 < st.remainingPolls then response 202 (runningBody handle)
  else response 200 (resultBody st.reg handle)

/-- What a status GET leaves of a statement. -/
def polled (st : State) : State :=
  if 0 < st.remainingPolls then { st with remainingPolls := st.remainingPolls - 1 } else st

/-! ### One operation -/

/-- The statement `n` is open in the fake. -/
structure Opened (fake : Fake) (n : Nat) (st : State) : Prop where
  issued : n ≤ fake.counter
  state : fake.state.lookup (handleText n) = some st

variable {conv : Conversions} {fake : Fake} {n : Nat} {st : State}

theorem handle_of_submit {request : HttpRequest} (h : request.IsSubmit) :
    fake.handle request = (fake.log request).onSubmit request := if_pos h

theorem handle_of_get {request : HttpRequest} {handle : PyStr} (h : request.IsGet handle) :
    fake.handle request = (fake.log request).onGet request := by
  have hpost : request.method ≠ py "POST" := by
    rw [h.1]
    decide
  rw [Fake.handle, route, if_neg (fun hp => hpost hp.1), if_neg (fun hp => hpost hp.1),
    if_pos ⟨h.1, h.2.1⟩]

/-- A request that is neither is logged. -/
theorem handle_other {request : HttpRequest} (hsubmit : ¬ request.IsSubmit)
    (hget : ¬ request.IsGet (lastSegment request.path)) :
    (fake.handle request).2 = fake.log request := by
  have hstatements : ¬ (request.method = py "POST" ∧ request.path = statementsPath) := hsubmit
  rw [handle, route, if_neg hstatements]
  split
  · rfl
  · rw [if_neg]
    intro h
    exact hget ⟨h.1, h.2, rfl⟩

/-- What a submit does: it is logged, and it may open the next statement. -/
theorem submit_cases (fake : Fake) {request : HttpRequest} (h : request.IsSubmit) :
    ((∃ e, (fake.handle request).1 = .error e) ∧ (fake.handle request).2 = fake.log request) ∨
    ∃ sql reg, statementOf request = .ok sql ∧ fake.lookup sql = .ok (some reg) ∧
      fake.handle request = (fake.log request).openStatement reg request := by
  rw [handle_of_submit h, onSubmit]
  cases hsql : statementOf request with
  | error e => exact .inl ⟨⟨e, rfl⟩, rfl⟩
  | ok sql =>
    have hlookup : (fake.log request).lookup sql = fake.lookup sql := rfl
    dsimp only
    rw [hlookup]
    cases hfound : fake.lookup sql with
    | error e => exact .inl ⟨⟨e, rfl⟩, rfl⟩
    | ok found =>
      cases found with
      | none => exact .inl ⟨⟨_, rfl⟩, rfl⟩
      | some reg => exact .inr ⟨sql, reg, rfl, hfound, rfl⟩

/-- **A submit opens a statement** under the next handle, and is answered as its first poll would
be, or with a promise of polls. -/
theorem openStatement_opened {reg : Reg} (h : reg.error = none) (request : HttpRequest) :
    (fake.openStatement reg request).2.Opened (fake.counter + 1) ⟨reg, reg.pollsBeforeReady⟩ ∧
      (fake.openStatement reg request).1 = .ok
        (if request.params.lookup (py "async") = some (py "true") ∨ 0 < reg.pollsBeforeReady then
          response 202 (runningBody (handleText (fake.counter + 1)))
        else response 200 (resultBody reg (handleText (fake.counter + 1)))) := by
  rw [openStatement, h]
  dsimp only
  split
  · refine ⟨⟨le_rfl, ?_⟩, rfl⟩
    rw [lookup_assocSet, if_pos rfl]
  · refine ⟨⟨le_rfl, ?_⟩, resultResponse_eq reg _⟩
    rw [lookup_assocSet, if_pos rfl]

/-- A submit leaves the statements there are. -/
theorem Opened.openStatement (h : fake.Opened n st) (reg : Reg) (request : HttpRequest) :
    (fake.openStatement reg request).2.Opened n st := by
  have hne : handleText n ≠ handleText (fake.counter + 1) := by
    intro he
    have hn := handleText_injective he
    have hissued := h.issued
    omega
  rw [Fake.openStatement]
  cases reg.error with
  | some error => exact ⟨Nat.le_succ_of_le h.issued, h.state⟩
  | none =>
    dsimp only
    split
    · refine ⟨Nat.le_succ_of_le h.issued, ?_⟩
      rw [lookup_assocSet, if_neg hne]
      exact h.state
    · refine ⟨Nat.le_succ_of_le h.issued, ?_⟩
      rw [lookup_assocSet, if_neg hne]
      exact h.state

/-- What a GET of an open statement does and is answered. -/
theorem Opened.get (h : fake.Opened n st) {request : HttpRequest}
    (hget : request.IsGet (handleText n)) :
    (request.params.lookup (py "partition") = none ∧
      (fake.handle request).1 = .ok (answer st (handleText n)) ∧
      (fake.handle request).2.Opened n (polled st)) ∨
    ∃ partition, request.params.lookup (py "partition") = some partition ∧
      (fake.handle request).1 = partitionResponse st.reg partition ∧
      (fake.handle request).2.Opened n st := by
  have hstate : (fake.log request).state.lookup (lastSegment request.path) = some st := by
    rw [hget.2.2]
    exact h.state
  rw [handle_of_get hget, onGet, hstate]
  dsimp only
  cases hpartition : request.params.lookup (py "partition") with
  | some partition => exact .inr ⟨partition, rfl, rfl, h.issued, h.state⟩
  | none =>
    refine .inl ⟨rfl, ?_⟩
    dsimp only
    by_cases hpolls : 0 < st.remainingPolls
    · rw [if_pos hpolls, answer, if_pos hpolls, polled, if_pos hpolls, hget.2.2]
      refine ⟨rfl, h.issued, ?_⟩
      rw [lookup_assocSet, if_pos rfl]
    · rw [if_neg hpolls, answer, if_neg hpolls, polled, if_neg hpolls, hget.2.2]
      exact ⟨resultResponse_eq _ _, h.issued, h.state⟩

/-- A GET of another statement leaves this one. -/
theorem Opened.getOther (h : fake.Opened n st) {request : HttpRequest} {handle : PyStr}
    (hget : request.IsGet handle) (hne : handle ≠ handleText n) :
    (fake.handle request).2.Opened n st := by
  rw [handle_of_get hget, onGet, hget.2.2]
  cases hstate : (fake.log request).state.lookup handle with
  | none => exact ⟨h.issued, h.state⟩
  | some other =>
    dsimp only
    cases hpartition : request.params.lookup (py "partition") with
    | some partition => exact ⟨h.issued, h.state⟩
    | none =>
      dsimp only
      split
      · refine ⟨h.issued, ?_⟩
        rw [lookup_assocSet, if_neg hne.symm]
        exact h.state
      · exact ⟨h.issued, h.state⟩

theorem Opened.request (h : fake.Opened n st) {request : HttpRequest}
    (hget : ¬ request.IsGet (handleText n)) : (fake.handle request).2.Opened n st := by
  by_cases hother : request.IsGet (lastSegment request.path)
  · apply h.getOther hother
    intro he
    exact hget (he ▸ hother)
  by_cases hsubmit : request.IsSubmit
  · rcases submit_cases fake hsubmit with ⟨-, hfake⟩ | ⟨sql, reg, -, -, hfake⟩
    · rw [hfake]
      exact ⟨h.issued, h.state⟩
    · have hlog : (fake.log request).Opened n st := ⟨h.issued, h.state⟩
      rw [hfake]
      exact hlog.openStatement reg request
  · rw [handle_other hsubmit hother]
    exact ⟨h.issued, h.state⟩

/-- **One operation**: a status GET of the statement polls it, and nothing else touches it. -/
theorem Opened.step (h : fake.Opened n st) (conv : Conversions) (op : Op) :
    (fake.step conv op).2.Opened n
      (if (statusReply (handleText n) (op, (fake.step conv op).1)).isSome then polled st else st) := by
  cases op with
  | request request =>
    show (fake.handle request).2.Opened n _
    by_cases hget : request.IsGet (handleText n)
    · rcases h.get hget with ⟨hnone, -, hopened⟩ | ⟨partition, hsome, -, hopened⟩
      · have hstatus : request.IsStatusGet (handleText n) := ⟨hget, hnone⟩
        rw [statusReply, if_pos hstatus]
        exact hopened
      · have hstatus : ¬ request.IsStatusGet (handleText n) := by
          intro hstatus
          rw [hstatus.2] at hsome
          cases hsome
        rw [statusReply, if_neg hstatus]
        exact hopened
    · have hstatus : ¬ request.IsStatusGet (handleText n) := fun hstatus => hget hstatus.1
      rw [statusReply, if_neg hstatus]
      exact h.request hget
  | register sql r =>
    show (fake.step conv (.register sql r)).2.Opened n st
    rw [Fake.step]
    cases build conv r with
    | error e => exact h
    | ok reg => exact ⟨h.issued, h.state⟩
  | registerMatch predicate r =>
    show (fake.step conv (.registerMatch predicate r)).2.Opened n st
    rw [Fake.step]
    cases build conv r with
    | error e => exact h
    | ok reg => exact ⟨h.issued, h.state⟩
  | registerDml sql rowcount =>
    show (fake.step conv (.registerDml sql rowcount)).2.Opened n st
    rw [Fake.step]
    cases dmlReg rowcount with
    | error e => exact h
    | ok reg => exact ⟨h.issued, h.state⟩
  | registerError sql error => exact ⟨h.issued, h.state⟩

theorem Opened.statusReply_eq (h : fake.Opened n st) {op : Op}
    {reply : Except Exc (Option Response)}
    (hreply : statusReply (handleText n) (op, (fake.step conv op).1) = some reply) :
    reply = .ok (some (answer st (handleText n))) := by
  cases op with
  | request request =>
    rw [statusReply] at hreply
    split at hreply
    · next hstatus =>
      obtain ⟨hget, hnone⟩ := hstatus
      rcases h.get hget with ⟨-, hanswer, -⟩ | ⟨partition, hsome, -, -⟩
      · cases hreply
        show (fake.handle request).1.map some = _
        rw [hanswer]
        rfl
      · rw [hnone] at hsome
        cases hsome
    · cases hreply
  | register sql r => cases hreply
  | registerMatch predicate r => cases hreply
  | registerDml sql rowcount => cases hreply
  | registerError sql error => cases hreply

/-- The answer after so many polls. -/
def answerAt (st : State) (handle : PyStr) (polls : Nat) : Response :=
  if polls < st.remainingPolls.toNat then response 202 (runningBody handle)
  else response 200 (resultBody st.reg handle)

theorem answerAt_zero (st : State) (handle : PyStr) : answerAt st handle 0 = answer st handle := by
  rw [answerAt, answer]
  by_cases h : 0 < st.remainingPolls
  · rw [if_pos h, if_pos (by omega)]
  · rw [if_neg h, if_neg (by omega)]

theorem answerAt_polled (st : State) (handle : PyStr) (polls : Nat) :
    answerAt (polled st) handle polls = answerAt st handle (polls + 1) := by
  rw [answerAt, answerAt, polled]
  by_cases h : 0 < st.remainingPolls
  · rw [if_pos h]
    by_cases hpolls : polls + 1 < st.remainingPolls.toNat
    · rw [if_pos hpolls, if_pos (by dsimp only; omega)]
    · rw [if_neg hpolls, if_neg (by dsimp only; omega)]
  · rw [if_neg h, if_neg (by omega), if_neg (by omega)]

/-- **A whole run**: the status GETs of a statement are answered by its own polls alone. -/
theorem Opened.statusReplies (h : fake.Opened n st) (ops : List Op) (k : Nat)
    {reply : Except Exc (Option Response)}
    (hreply : ((fake.trace conv ops).filterMap (statusReply (handleText n)))[k]? = some reply) :
    reply = .ok (some (answerAt st (handleText n) k)) := by
  induction ops generalizing fake st k with
  | nil => cases hreply
  | cons op ops ih =>
    have hnext := h.step conv op
    rw [trace, List.filterMap_cons] at hreply
    cases hfirst : statusReply (handleText n) (op, (fake.step conv op).1) with
    | none =>
      rw [hfirst] at hreply hnext
      exact ih hnext k hreply
    | some first =>
      rw [hfirst] at hreply hnext
      cases k with
      | zero =>
        cases hreply
        rw [answerAt_zero]
        exact h.statusReply_eq hfirst
      | succ k =>
        have hlater := ih hnext k hreply
        rw [hlater]
        exact congrArg (fun r => Except.ok (some r)) (answerAt_polled st _ k)

/-- A partition GET is answered with the chunk, whenever it comes. -/
theorem Opened.partitionReplies (h : fake.Opened n st) (ops : List Op) {request : HttpRequest}
    {reply : Except Exc (Option Response)} (hmem : (.request request, reply) ∈ fake.trace conv ops)
    {index : Nat} (hget : request.IsPartitionGet (handleText n) index) {chunk : List WireRow}
    (hchunk : st.reg.chunks[index]? = some chunk) :
    reply = .ok (some (response 200 [(py "data", dataJson chunk)])) := by
  induction ops generalizing fake st with
  | nil => cases hmem
  | cons op ops ih =>
    rcases List.mem_cons.mp hmem with hhere | hlater
    · obtain ⟨hop, hreply⟩ := Prod.mk.inj hhere
      obtain ⟨hget, text, htext, hparse⟩ := hget
      subst hop
      rcases h.get hget with ⟨hnone, -, -⟩ | ⟨partition, hsome, hpartition, -⟩
      · rw [hnone] at htext
        cases htext
      · rw [htext] at hsome
        cases hsome
        rw [hreply]
        show (fake.handle request).1.map some = _
        rw [hpartition, partitionResponse, intOfText_eq_ok.mpr hparse]
        dsimp only
        rw [if_pos (by omega), Int.toNat_natCast, hchunk]
        rfl
    · have hnext := h.step conv op
      refine ih hnext hlater ?_
      split
      · rw [polled]
        split
        · exact hchunk
        · exact hchunk
      · exact hchunk

/-! ### Handles -/

/-- The registries and the counter are the same. -/
structure Kept (fake next : Fake) : Prop where
  exact : next.exact = fake.exact
  predicates : next.predicates = fake.predicates
  counter : next.counter = fake.counter

theorem onGet_kept (fake : Fake) (request : HttpRequest) : fake.Kept (fake.onGet request).2 := by
  rw [onGet]
  cases fake.state.lookup (lastSegment request.path) with
  | none => exact ⟨rfl, rfl, rfl⟩
  | some st =>
    dsimp only
    cases request.params.lookup (py "partition") with
    | some partition => exact ⟨rfl, rfl, rfl⟩
    | none =>
      dsimp only
      split
      · exact ⟨rfl, rfl, rfl⟩
      · exact ⟨rfl, rfl, rfl⟩

/-- A request opens a statement, or issues no handle and keeps all but the statements. -/
theorem handle_cases (fake : Fake) (request : HttpRequest) :
    (request.IsSubmit ∧
      ∃ reg, fake.handle request = (fake.log request).openStatement reg request) ∨
    fake.Kept (fake.handle request).2 ∧
      (¬ request.IsSubmit ∨ ∃ e, (fake.handle request).1 = .error e) := by
  by_cases hsubmit : request.IsSubmit
  · rcases submit_cases fake hsubmit with ⟨herror, hfake⟩ | ⟨sql, reg, -, -, hfake⟩
    · rw [hfake]
      exact .inr ⟨⟨rfl, rfl, rfl⟩, .inr herror⟩
    · exact .inl ⟨hsubmit, reg, hfake⟩
  refine .inr ⟨?_, .inl hsubmit⟩
  by_cases hget : request.IsGet (lastSegment request.path)
  · obtain ⟨hexact, hpredicates, hcounter⟩ := onGet_kept (fake.log request) request
    rw [handle_of_get hget]
    exact ⟨hexact, hpredicates, hcounter⟩
  · rw [handle_other hsubmit hget]
    exact ⟨rfl, rfl, rfl⟩

/-- A statement is opened under the next handle, whether it fails or not. -/
theorem openStatement_issues (fake : Fake) (reg : Reg) (request : HttpRequest) :
    (fake.openStatement reg request).2.exact = fake.exact ∧
      (fake.openStatement reg request).2.predicates = fake.predicates ∧
      (fake.openStatement reg request).2.counter = fake.counter + 1 ∧
      ∃ reply, (fake.openStatement reg request).1 = .ok reply ∧
        reply.handle = .str (handleText (fake.counter + 1)) := by
  rw [openStatement]
  cases reg.error with
  | some error => exact ⟨rfl, rfl, rfl, _, rfl, rfl⟩
  | none =>
    dsimp only
    split
    · exact ⟨rfl, rfl, rfl, _, rfl, rfl⟩
    · exact ⟨rfl, rfl, rfl, _, resultResponse_eq _ _, rfl⟩

/-- The registries and the counter after a registration. -/
theorem step_counter_of_notRequest {op : Op} (h : ∀ request, op ≠ .request request)
    (conv : Conversions) (fake : Fake) : (fake.step conv op).2.counter = fake.counter := by
  cases op with
  | request request => exact absurd rfl (h request)
  | register sql r =>
    rw [step]
    cases build conv r with
    | error e => rfl
    | ok reg => rfl
  | registerMatch predicate r =>
    rw [step]
    cases build conv r with
    | error e => rfl
    | ok reg => rfl
  | registerDml sql rowcount =>
    rw [step]
    cases dmlReg rowcount with
    | error e => rfl
    | ok reg => rfl
  | registerError sql error => rfl

/-- **One operation**: it issues the handle of the next count, or leaves the counter. -/
theorem step_counter (conv : Conversions) (fake : Fake) (op : Op) :
    (issuedHandle (op, (fake.step conv op).1) = some (.str (handleText (fake.counter + 1))) ∧
      (fake.step conv op).2.counter = fake.counter + 1) ∨
    issuedHandle (op, (fake.step conv op).1) = none ∧
      (fake.step conv op).2.counter = fake.counter := by
  cases op with
  | request request =>
    show (issuedHandle (.request request, (fake.handle request).1.map some) = _ ∧
      (fake.handle request).2.counter = _) ∨
      issuedHandle (.request request, (fake.handle request).1.map some) = _ ∧
        (fake.handle request).2.counter = _
    rcases handle_cases fake request with ⟨hsubmit, reg, hfake⟩ | ⟨hkept, hissued⟩
    · obtain ⟨-, -, hcounter, reply, hreply, hhandle⟩ :=
        openStatement_issues (fake.log request) reg request
      rw [hfake, hreply]
      refine .inl ⟨?_, hcounter⟩
      show (if request.IsSubmit then some reply.handle else none) = _
      rw [if_pos hsubmit, hhandle]
      rfl
    · refine .inr ⟨?_, hkept.counter⟩
      cases hreply : (fake.handle request).1 with
      | error e => rfl
      | ok reply =>
        rcases hissued with hsubmit | ⟨e, he⟩
        · exact if_neg hsubmit
        · rw [hreply] at he
          cases he
  | register sql r => exact .inr ⟨rfl, step_counter_of_notRequest (by simp) conv fake⟩
  | registerMatch predicate r => exact .inr ⟨rfl, step_counter_of_notRequest (by simp) conv fake⟩
  | registerDml sql rowcount => exact .inr ⟨rfl, step_counter_of_notRequest (by simp) conv fake⟩
  | registerError sql error => exact .inr ⟨rfl, rfl⟩

/-- The handles of a run come after the counter. -/
theorem issued_gt (fake : Fake) (ops : List Op) :
    ∀ handle ∈ (fake.trace conv ops).filterMap issuedHandle,
      ∃ m, fake.counter < m ∧ handle = .str (handleText m) := by
  induction ops generalizing fake with
  | nil => intro handle h; cases h
  | cons op ops ih =>
    intro handle h
    rw [trace, List.filterMap_cons] at h
    rcases step_counter conv fake op with ⟨hissued, hcounter⟩ | ⟨hissued, hcounter⟩
    · rw [hissued] at h
      rcases List.mem_cons.mp h with rfl | h
      · exact ⟨fake.counter + 1, Nat.lt_succ_self _, rfl⟩
      · obtain ⟨m, hm, hhandle⟩ := ih _ handle h
        exact ⟨m, by omega, hhandle⟩
    · rw [hissued] at h
      obtain ⟨m, hm, hhandle⟩ := ih _ handle h
      exact ⟨m, by omega, hhandle⟩

/-- **Handles are pairwise distinct.** -/
theorem issued_nodup (fake : Fake) (ops : List Op) :
    ((fake.trace conv ops).filterMap issuedHandle).Nodup := by
  induction ops generalizing fake with
  | nil => exact List.nodup_nil
  | cons op ops ih =>
    rw [trace, List.filterMap_cons]
    rcases step_counter conv fake op with ⟨hissued, hcounter⟩ | ⟨hissued, -⟩
    · rw [hissued]
      refine List.nodup_cons.mpr ⟨?_, ih _⟩
      intro hmem
      obtain ⟨m, hm, hsame⟩ := issued_gt _ ops _ hmem
      have hm' := handleText_injective (Json.str.inj hsame)
      omega
    · rw [hissued]
      exact ih _

/-! ### What a submit finds -/

/-- The registration stands in one of the registries under the statement. -/
def Knows (fake : Fake) (sql : Json) (reg : Reg) : Prop :=
  (∃ text, sql = .str text ∧ fake.exact.lookup text = some reg) ∨
    ∃ predicate, (predicate, reg) ∈ fake.predicates ∧ predicate sql = true

theorem knows_of_lookup {sql : Json} {reg : Reg} (h : fake.lookup sql = .ok (some reg)) :
    fake.Knows sql reg := by
  have hfind : ∀ sql', ((fake.predicates.find? fun predicate => predicate.1 sql').map Prod.snd) =
      some reg → ∃ predicate, (predicate, reg) ∈ fake.predicates ∧ predicate sql' = true := by
    intro sql' hsome
    obtain ⟨⟨predicate, found⟩, hfound, rfl⟩ := Option.map_eq_some_iff.mp hsome
    have htrue := List.find?_some (p := fun predicate : (Json → Bool) × Reg => predicate.1 sql') hfound
    exact ⟨predicate, List.mem_of_find?_eq_some hfound, htrue⟩
  cases sql with
  | arr xs => cases h
  | obj kvs => cases h
  | str text =>
    have hor := Except.ok.inj h
    rcases Option.or_eq_some_iff.mp hor with hexact | ⟨-, hpredicate⟩
    · exact .inl ⟨text, rfl, hexact⟩
    · exact .inr (hfind _ hpredicate)
  | null => exact .inr (hfind _ (Except.ok.inj h))
  | bool b => exact .inr (hfind _ (Except.ok.inj h))
  | int n => exact .inr (hfind _ (Except.ok.inj h))
  | float x => exact .inr (hfind _ (Except.ok.inj h))
  | other type => exact .inr (hfind _ (Except.ok.inj h))

theorem Knows.of_exact {sql : Json} {reg found : Reg} {text : PyStr}
    (h : Knows { fake with exact := assocSet fake.exact text reg } sql found) :
    fake.Knows sql found ∨ sql = .str text ∧ found = reg := by
  rcases h with ⟨text', rfl, hlookup⟩ | hpredicate
  · rw [lookup_assocSet] at hlookup
    split at hlookup
    · next heq => exact .inr ⟨by rw [heq], (Option.some.inj hlookup).symm⟩
    · exact .inl (.inl ⟨text', rfl, hlookup⟩)
  · exact .inl (.inr hpredicate)

/-- Requests register nothing. -/
theorem handle_registries (fake : Fake) (request : HttpRequest) :
    (fake.handle request).2.exact = fake.exact ∧
      (fake.handle request).2.predicates = fake.predicates := by
  rcases handle_cases fake request with ⟨-, reg, hfake⟩ | ⟨hkept, -⟩
  · obtain ⟨hexact, hpredicates, -⟩ := openStatement_issues (fake.log request) reg request
    rw [hfake]
    exact ⟨hexact, hpredicates⟩
  · exact ⟨hkept.exact, hkept.predicates⟩

theorem Knows.of_step {op : Op} {sql : Json} {reg : Reg} (h : (fake.step conv op).2.Knows sql reg) :
    fake.Knows sql reg ∨ op.Registers conv sql reg := by
  cases op with
  | register text r =>
    rw [step] at h
    cases hbuild : build conv r with
    | error e =>
      rw [hbuild] at h
      exact .inl h
    | ok built =>
      rw [hbuild] at h
      rcases h.of_exact with hknown | ⟨hsql, hreg⟩
      · exact .inl hknown
      · exact .inr ⟨hsql, by rw [hbuild, hreg]⟩
  | registerMatch predicate r =>
    rw [step] at h
    cases hbuild : build conv r with
    | error e =>
      rw [hbuild] at h
      exact .inl h
    | ok built =>
      rw [hbuild] at h
      rcases h with hexact | ⟨predicate', hmem, htrue⟩
      · exact .inl (.inl hexact)
      · rcases List.mem_append.mp hmem with hmem | hmem
        · exact .inl (.inr ⟨predicate', hmem, htrue⟩)
        · obtain ⟨rfl, rfl⟩ := Prod.mk.inj (List.mem_singleton.mp hmem)
          exact .inr ⟨htrue, hbuild⟩
  | registerDml text rowcount =>
    rw [step] at h
    cases hbuild : dmlReg rowcount with
    | error e =>
      rw [hbuild] at h
      exact .inl h
    | ok built =>
      rw [hbuild] at h
      rcases h.of_exact with hknown | ⟨hsql, hreg⟩
      · exact .inl hknown
      · exact .inr ⟨hsql, by rw [hbuild, hreg]⟩
  | registerError text error => exact Knows.of_exact h
  | request request =>
    obtain ⟨hexact, hpredicates⟩ := handle_registries fake request
    have hknows : (fake.handle request).2.Knows sql reg := h
    rw [Knows, hexact, hpredicates] at hknows
    exact .inl hknows

/-- What a fake knows was registered. -/
theorem Knows.of_run {ops : List Op} {sql : Json} {reg : Reg} (h : (fake.run conv ops).Knows sql reg) :
    fake.Knows sql reg ∨ ∃ op ∈ ops, op.Registers conv sql reg := by
  induction ops generalizing fake with
  | nil => exact .inl h
  | cons op ops ih =>
    rcases ih h with hknown | ⟨later, hmem, hregisters⟩
    · rcases hknown.of_step with hknown | hregisters
      · exact .inl hknown
      · exact .inr ⟨op, by simp, hregisters⟩
    · exact .inr ⟨later, List.mem_cons_of_mem _ hmem, hregisters⟩

end Fake

/-! ### Runs -/

/-- What the GETs of a statement are answered in a run: the status GETs by its polls, the partition
GETs by its chunks. -/
structure Serves (handle : PyStr) (reg : Reg) (trace : List Outcome) : Prop where
  status : ∀ (k : Nat) reply, (trace.filterMap (statusReply handle))[k]? = some reply →
    reply = .ok (some (if k < reg.pollsBeforeReady.toNat then Fake.response 202 (runningBody handle)
      else Fake.response 200 (Fake.resultBody reg handle)))
  partition : ∀ (request : HttpRequest) reply index chunk, (.request request, reply) ∈ trace →
    request.IsPartitionGet handle index → reg.chunks[index]? = some chunk →
      reply = .ok (some (Fake.response 200 [(py "data", dataJson chunk)]))

theorem Fake.Opened.serves {conv : Conversions} {fake : Fake} {n : Nat} {reg : Reg}
    (h : fake.Opened n ⟨reg, reg.pollsBeforeReady⟩) (ops : List Op) :
    Serves (handleText n) reg (fake.trace conv ops) where
  status k _ hreply := h.statusReplies ops k hreply
  partition _ _ _ _ hmem hget hchunk := h.partitionReplies ops hmem hget hchunk

/-- **The fake isolates statements.** In every run the handles are distinct. A submit that finds a
registration, which was made before, issues a handle; whatever happens afterwards, that handle is
served from that registration. A registration has as many chunks as asked for, and they make up its
wire rows. -/
theorem fake_isolates (conv : Conversions) :
    (∀ ops, ((Fake.trace conv {} ops).filterMap issuedHandle).Nodup) ∧
    (∀ (before : List Op) (request : HttpRequest) (sql : Json) (reg : Reg),
      request.IsSubmit → Fake.statementOf request = .ok sql →
      (Fake.run conv {} before).lookup sql = .ok (some reg) → reg.error = none →
      (∃ op ∈ before, op.Registers conv sql reg) ∧
      ∃ handle,
        issuedHandle (.request request, ((Fake.run conv {} before).step conv (.request request)).1) =
          some (.str handle) ∧
        ∀ after,
          Serves handle reg (((Fake.run conv {} before).step conv (.request request)).2.trace conv after)) ∧
    ∀ (r : Registration) (reg : Reg), build conv r = .ok reg →
      reg.pollsBeforeReady = r.pollsBeforeReady ∧ reg.chunks.length = r.partitions.toNat ∧
      (∀ handle, partitionCount (Fake.resultBody reg handle) = .ok r.partitions.toNat ∧
        (Fake.resultBody reg handle).get (py "data") = dataJson (reg.chunks.head reg.chunks_ne)) ∧
      ∃ columns wire, wireRows conv r = .ok (columns, wire) ∧ reg.chunks.flatten = wire := by
  refine ⟨fun ops => Fake.issued_nodup {} ops, ?_, ?_⟩
  · intro before request sql reg hsubmit hsql hlookup herror
    constructor
    · rcases (Fake.knows_of_lookup hlookup).of_run with hknown | hregistered
      · rcases hknown with ⟨text, -, hexact⟩ | ⟨predicate, hmem, -⟩
        · cases hexact
        · cases hmem
      · exact hregistered
    · have hfake : (Fake.run conv {} before).handle request =
          ((Fake.run conv {} before).log request).openStatement reg request := by
        have hlogged : ((Fake.run conv {} before).log request).lookup sql =
          (Fake.run conv {} before).lookup sql := rfl
        rw [Fake.handle_of_submit hsubmit, Fake.onSubmit, hsql]
        dsimp only
        rw [hlogged, hlookup]
      have hopened : (((Fake.run conv {} before).log request).openStatement reg request).2.Opened
          ((Fake.run conv {} before).counter + 1) ⟨reg, reg.pollsBeforeReady⟩ :=
        (Fake.openStatement_opened herror request).1
      rcases Fake.step_counter conv (Fake.run conv {} before) (.request request) with
        ⟨hissued, -⟩ | ⟨-, hcounter⟩
      · refine ⟨_, hissued, fun after => ?_⟩
        rw [← hfake] at hopened
        exact hopened.serves after
      · obtain ⟨-, -, hnext, -⟩ :=
          Fake.openStatement_issues ((Fake.run conv {} before).log request) reg request
        have hsame : ((Fake.run conv {} before).handle request).2.counter =
          (Fake.run conv {} before).counter := hcounter
        rw [hfake, hnext] at hsame
        exact absurd hsame (Nat.succ_ne_self _)
  · intro r reg hbuild
    obtain ⟨columns, wire, hwire, -, -, hlength, hflatten, hpolls, -⟩ := build_eq_ok hbuild
    refine ⟨hpolls, hlength, fun handle => ⟨?_, rfl⟩, columns, wire, hwire, hflatten⟩
    rw [Fake.partitionCount_resultBody, hlength]

/-! ### A statement with two partitions -/

/-- Three rows in two partitions, ready after one poll. -/
def letters : Registration where
  rows := [.dict [(py "L", .str (py "a"))], .dict [(py "L", .none)], .dict [(py "L", .str (py "b"))]]
  partitions := 2
  pollsBeforeReady := 1

def lettersReg : Reg where
  rowType := [.obj [(py "name", .str (py "L")), (py "type", .str (py "text")),
    (py "nullable", .bool true)]]
  chunks := [[[some (py "a")], [none]], [[some (py "b")]]]
  pollsBeforeReady := 1
  chunks_ne := by simp
  chunks_le := by decide

def submitLetters : HttpRequest where
  method := py "POST"
  path := statementsPath
  content := .ok (.obj [(py "statement", .str (py "SELECT l"))])

theorem fake_isolates_letters : ∃ handle, ∀ after,
    Serves handle lettersReg
      (((Fake.run refusingConversions {} [.register (py "SELECT l") letters]).step
        refusingConversions (.request submitLetters)).2.trace refusingConversions after) := by
  obtain ⟨-, handle, -, hserves⟩ := (fake_isolates refusingConversions).2.1
    [.register (py "SELECT l") letters] submitLetters (.str (py "SELECT l")) lettersReg
    ⟨rfl, rfl⟩ rfl rfl rfl
  exact ⟨handle, hserves⟩

end SnowflakeSqlApi.Testing
