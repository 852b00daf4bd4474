import Mathlib.Data.List.GetD
import SnowflakeSqlApi.ClientBase
import SnowflakeSqlApi.Testing.Statements
import SnowflakeSqlApi.Truncation

/-!
# A client of the fake server

`make_client`: a synchronous client whose network is a fake.  Each request goes to the
fake as it is sent, so the script of a call is what the fake answers to it, in the state
that the calls before it have left.

`query_eq` is what `client.query` comes to on a registered statement whose replies `httpx`
carries: the wire rows of the registration, in order, coerced by its columns; however many
partitions and polls lie between.
-/

namespace SnowflakeSqlApi.Testing

/-- The parts of `httpx` and `json` on the way to the fake and back: `json.loads` on a body of bytes,
how an f-string shows a handle that is not text, and what `httpx.Response(status, json=body)` is for
the transport that reads it. It raises where the body cannot be encoded; the two replies that hold no
text of a registration can. -/
structure Channel where
  loads : Bytes → Except Exc Json
  shown : Json → PyStr
  reply : Response → Except Exc Response
  running (n : Nat) : reply (Fake.response 202 (runningBody (Fake.handleText n))) =
    .ok (Fake.response 202 (runningBody (Fake.handleText n)))
  cancelled : reply (Fake.response 200 [(py "code", .str (py "090001"))]) =
    .ok (Fake.response 200 [(py "code", .str (py "090001"))])

namespace Channel

variable (channel : Channel)

def handleText : Json → PyStr
  | .str s => s
  | handle => channel.shown handle

/-- A request of the transport as the fake receives it. -/
def http (request : Request) : HttpRequest where
  method :=
    match request.target with
    | .status _ => py "GET"
    | .statements | .cancel _ => py "POST"
  path :=
    match request.target with
    | .statements => statementsPath
    | .status handle => statusUrl (channel.handleText handle)
    | .cancel handle => statusUrl (channel.handleText handle) ++ py "/cancel"
  params := request.params.getD []
  content :=
    match request.body with
    | .none => .error (.valueError [lit "Expecting value"])
    | .json payload => .ok (.obj payload)
    | .content bytes => channel.loads bytes

/-- What the transport meets when the fake is sent a request: a reply, or an exception of the fake or
of `httpx`. -/
def event (handled : Except Exc Response) : Event :=
  match handled >>= channel.reply with
  | .ok reply => .answered reply
  | .error e => .failed e.cls.name

end Channel

/-- A client made by `make_client`. -/
structure Session where
  channel : Channel
  policy : RetryPolicy := defaultRetryPolicy
  draw : Nat → Draw
  context : ClientContext := {}
  pollInterval : ℚ := 0
  requestId : PyStr
  attempts_pos : 0 < policy.maxAttempts := by decide
  settled : policy.shouldRetryStatus 200 = false ∧ policy.shouldRetryStatus 202 = false := by decide
  canSleep : sleep .sync pollInterval = .ok ()

namespace Session

variable (s : Session)

/-- The fake after the first attempts of a call. -/
def after (fake : Fake) (request : Request) : Nat → Fake
  | 0 => fake
  | k + 1 => ((after fake request k).handle (s.channel.http (request.attempt k))).2

def script (fake : Fake) (request : Request) : Script := fun k =>
  ⟨s.draw k,
    s.channel.event ((s.after fake request k).handle (s.channel.http (request.attempt k))).1⟩

/-- `httpx` carries the replies to a registered statement as they are: none has a text that UTF-8 does
not encode. -/
structure Carries (reg : Reg) : Prop where
  result (n : Nat) : reg.error = none →
    s.channel.reply (Fake.response 200 (Fake.resultBody reg (Fake.handleText n))) =
      .ok (Fake.response 200 (Fake.resultBody reg (Fake.handleText n)))
  partition : ∀ chunk ∈ reg.chunks, reg.error = none →
    s.channel.reply (Fake.response 200 [(py "data", dataJson chunk)]) =
      .ok (Fake.response 200 [(py "data", dataJson chunk)])
  error (n : Nat) : ∀ error, reg.error = some error →
    s.channel.reply (Fake.errorResponse error (Fake.handleText n)) =
      .ok (Fake.errorResponse error (Fake.handleText n))

/-- One call of the transport, and the fake after it. -/
def call (fake : Fake) (request : Request) : Except Exc StatementResponse × Fake :=
  let sent := send s.policy .sync request (s.script fake request)
  (sent.2, s.after fake request sent.1.length)

/-- The fake after so many calls of the same request. -/
def calls (request : Request) : Nat → Fake → Fake
  | 0, fake => fake
  | n + 1, fake => calls request n (s.call fake request).2

/-- The rounds of a poll, by the clock after each reply. -/
def rounds (request : Request) : Fake → List ℚ → List Round
  | _, [] => []
  | fake, clock :: clocks =>
    ⟨s.script fake request, clock⟩ :: rounds request (s.call fake request).2 clocks

def pollCall (handle : Json) (started : ℚ) : PollCall where
  policy := s.policy
  pollInterval := s.pollInterval
  handle := handle
  timeout := s.context.statementTimeout.map fun t : Nat => ⟨(t : ℚ), .int (t : Int)⟩
  cancelOnTimeout := true
  started := started

/-- The fake as the client asks for a partition, having asked for the ones before it. -/
def atPartition (handle : Json) (fake : Fake) : Nat → Fake
  | 0 | 1 => fake
  | i + 2 => (s.call (atPartition handle fake (i + 1)) (.getStatement handle (some (i + 1)))).2

def fetcher (handle : Json) (fake : Fake) : Fetcher where
  policy := s.policy
  mode := .sync
  script index := s.script (s.atPartition handle fake index) (.getStatement handle (some index))

/-- `client.query(sql)`; `none` while it is still polling after the clocks given. A cancel is answered
alike in every state of the fake. -/
def query (lib : Builtins) (fake : Fake) (sql : PyStr) (started : ℚ) (clocks : List ℚ) :
    Option (Except Exc (List Row)) :=
  match s.context.buildPayload sql [] with
  | .error e => some (.error e)
  | .ok payload =>
    match s.call fake (.submit s.requestId false false (.json payload)) with
    | (.error e, _) => some (.error e)
    | (.ok response, fake) =>
      let handle := response.statementHandle
      if response.isRunning then
        let request := Request.getStatement handle
        let run := poll (s.pollCall handle started) (s.script fake (.cancelStatement handle))
          (s.rounds request fake clocks)
        let fake := s.calls request run.gets fake
        match run.outcome with
        | .returned finished =>
          some (SnowflakeSqlApi.query lib (s.fetcher finished.statementHandle fake)
            (fun _ => .ok finished) response)
        | .raised e =>
          some (SnowflakeSqlApi.query lib (s.fetcher handle fake) (fun _ => .error e) response)
        | .cancelled | .waiting => none
      else
        some (SnowflakeSqlApi.query lib (s.fetcher handle fake) (fun _ => .ok response) response)

/-! ### One call -/

variable {s} {fake : Fake} {n : Nat} {st : State}

theorem event_ok {channel : Channel} {reply : Response} (h : channel.reply reply = .ok reply) :
    channel.event (.ok reply) = .answered reply := by
  have hhandled : (Except.ok reply >>= channel.reply) = .ok reply := h
  rw [Channel.event, hhandled]

/-- A reply with one of the two settled statuses ends a call at its first attempt. -/
theorem send_eq {request : Request} {reply : Response} {next : Fake}
    (h : fake.handle (s.channel.http request) = (.ok reply, next))
    (hcarried : s.channel.reply reply = .ok reply)
    (hstatus : reply.statusCode = 200 ∨ reply.statusCode = 202) :
    send s.policy .sync request (s.script fake request) =
      ([⟨request.attempt 0, .answered reply⟩],
        .ok { statusCode := reply.statusCode
              body := reply.jsonBody
              submissionAttempts := if request.isSubmit then some 1 else none }) := by
  have hretry : s.policy.shouldRetryStatus reply.statusCode = false := by
    rcases hstatus with h200 | h202
    · rw [h200]
      exact s.settled.1
    · rw [h202]
      exact s.settled.2
  have hevent : (s.script fake request 0).event = .answered reply := by
    show s.channel.event (fake.handle (s.channel.http request)).1 = _
    rw [h]
    show s.channel.event (.ok reply) = _
    rw [event_ok hcarried]
  have hinterpret : reply.interpret = .ok { statusCode := reply.statusCode, body := reply.jsonBody } :=
    if_pos hstatus
  rw [send_answered s.attempts_pos hevent hretry, hinterpret]
  rfl

theorem call_eq {request : Request} {reply : Response} {next : Fake}
    (h : fake.handle (s.channel.http request) = (.ok reply, next))
    (hcarried : s.channel.reply reply = .ok reply)
    (hstatus : reply.statusCode = 200 ∨ reply.statusCode = 202) :
    (send s.policy .sync request (s.script fake request)).2 =
      .ok { statusCode := reply.statusCode
            body := reply.jsonBody
            submissionAttempts := if request.isSubmit then some 1 else none } ∧
    (s.call fake request).2 = next := by
  have hsend := send_eq h hcarried hstatus
  rw [call, hsend]
  refine ⟨rfl, ?_⟩
  show (fake.handle (s.channel.http request)).2 = next
  rw [h]

theorem isRunning_running (n : Nat) (attempts : Option Nat) : StatementResponse.isRunning
    { statusCode := 202, body := runningBody (Fake.handleText n), submissionAttempts := attempts } =
    true := rfl

theorem statementHandle_running (n : Nat) (attempts : Option Nat) :
    StatementResponse.statementHandle
      { statusCode := 202, body := runningBody (Fake.handleText n), submissionAttempts := attempts } =
      .str (Fake.handleText n) := rfl

theorem not_isRunning_finished (body : Dict) (attempts : Option Nat) :
    ¬ StatementResponse.isRunning
      { statusCode := 200, body := body, submissionAttempts := attempts } = true := Bool.false_ne_true

/-! ### The requests of a statement -/

theorem lastSegment_statusUrl {handle : PyStr} (h : ch '/' ∉ handle) :
    Fake.lastSegment (statusUrl handle) = handle := by
  have hall : ∀ c ∈ handle.reverse, decide (c ≠ ch '/') = true := by
    intro c hc
    rw [decide_eq_true_eq]
    rintro rfl
    exact h (List.mem_reverse.mp hc)
  rw [Fake.lastSegment, statusUrl, List.append_assoc, List.singleton_append, List.reverse_append,
    List.reverse_cons, List.append_assoc, List.takeWhile_append_of_pos hall]
  simp

theorem isGet_getStatement (channel : Channel) (n : Nat) (partition : Option Nat) :
    (channel.http (.getStatement (.str (Fake.handleText n)) partition)).IsGet (Fake.handleText n) := by
  have hslash : ch '/' ∉ Fake.handleText n := by
    rw [Fake.handleText, List.mem_append, not_or]
    exact ⟨by decide, notMem_strNat (by decide) n⟩
  refine ⟨rfl, ?_, lastSegment_statusUrl hslash⟩
  exact ⟨Fake.handleText n, rfl⟩

section Opened

variable (h : fake.Opened n st) (herror : st.reg.error = none) (hcarries : s.Carries st.reg)

include h herror hcarries

/-- A status GET is answered by the polls that are left. -/
theorem call_status :
    (send s.policy .sync (.getStatement (.str (Fake.handleText n)))
      (s.script fake (.getStatement (.str (Fake.handleText n))))).2 =
      .ok (if 0 < st.remainingPolls then
        { statusCode := 202, body := runningBody (Fake.handleText n) }
        else { statusCode := 200, body := Fake.resultBody st.reg (Fake.handleText n) }) ∧
    (s.call fake (.getStatement (.str (Fake.handleText n)))).2.Opened n (Fake.polled st) := by
  have hget := isGet_getStatement s.channel n none
  rcases h.get hget with ⟨-, hanswer, hopened⟩ | ⟨partition, hsome, -, -⟩
  · have hhandle : fake.handle (s.channel.http (.getStatement (.str (Fake.handleText n)))) =
        (.ok (Fake.answer st (Fake.handleText n)),
          (fake.handle (s.channel.http (.getStatement (.str (Fake.handleText n))))).2) :=
      Prod.ext hanswer rfl
    rw [Fake.answer] at hhandle
    by_cases hpolls : 0 < st.remainingPolls
    · rw [if_pos hpolls] at hhandle ⊢
      obtain ⟨hsend, hcall⟩ := call_eq hhandle (s.channel.running n) (.inr rfl)
      rw [hcall]
      exact ⟨hsend, hopened⟩
    · rw [if_neg hpolls] at hhandle ⊢
      obtain ⟨hsend, hcall⟩ := call_eq hhandle (hcarries.result n herror) (.inl rfl)
      rw [hcall]
      exact ⟨hsend, hopened⟩
  · cases hsome

/-- A partition GET is answered with the chunk. -/
theorem call_partition {index : Nat} {chunk : List WireRow}
    (hchunk : st.reg.chunks[index]? = some chunk) :
    (send s.policy .sync (.getStatement (.str (Fake.handleText n)) (some index))
      (s.script fake (.getStatement (.str (Fake.handleText n)) (some index)))).2 =
      .ok { statusCode := 200, body := [(py "data", dataJson chunk)] } ∧
    (s.call fake (.getStatement (.str (Fake.handleText n)) (some index))).2.Opened n st := by
  have hget := isGet_getStatement s.channel n (some index)
  have htext : (s.channel.http (.getStatement (.str (Fake.handleText n)) (some index))).params.lookup
      (py "partition") = some (strNat index) := rfl
  rcases h.get hget with ⟨hnone, -, -⟩ | ⟨partition, hsome, hanswer, hopened⟩
  · rw [htext] at hnone
    cases hnone
  · rw [htext] at hsome
    cases hsome
    rw [Fake.partitionResponse, intOfText_eq_ok.mpr (Reg.parseInt_index hchunk)] at hanswer
    dsimp only at hanswer
    rw [if_pos (by omega), Int.toNat_natCast, hchunk] at hanswer
    have hhandle : fake.handle (s.channel.http (.getStatement (.str (Fake.handleText n)) (some index))) =
        (.ok (Fake.response 200 [(py "data", dataJson chunk)]),
          (fake.handle (s.channel.http
            (.getStatement (.str (Fake.handleText n)) (some index)))).2) :=
      Prod.ext hanswer rfl
    have hcarried := hcarries.partition chunk (List.mem_of_getElem? hchunk) herror
    obtain ⟨hsend, hcall⟩ := call_eq hhandle hcarried (.inl rfl)
    rw [hcall]
    exact ⟨hsend, hopened⟩

/-! ### The poll -/

/-- **The poll ends with the result** after the polls that are left. The induction is on the clocks;
each round uses up one poll. -/
theorem poll_eq {started : ℚ} {clocks : List ℚ} (cancelReply : Script)
    (hlength : st.remainingPolls.toNat < clocks.length)
    (hclocks : ∀ clock ∈ clocks, clock < (s.pollCall (.str (Fake.handleText n)) started).deadline) :
    (poll (s.pollCall (.str (Fake.handleText n)) started) cancelReply
      (s.rounds (.getStatement (.str (Fake.handleText n))) fake clocks)).outcome =
        .returned { statusCode := 200, body := Fake.resultBody st.reg (Fake.handleText n) } ∧
    ∃ st', st'.reg = st.reg ∧
      (s.calls (.getStatement (.str (Fake.handleText n)))
        (poll (s.pollCall (.str (Fake.handleText n)) started) cancelReply
          (s.rounds (.getStatement (.str (Fake.handleText n))) fake clocks)).gets fake).Opened n st' := by
  induction clocks generalizing fake st with
  | nil => exact absurd hlength (Nat.not_lt_zero _)
  | cons clock clocks ih =>
    obtain ⟨hsend, hopened⟩ := call_status (s := s) h herror hcarries
    have hreg : (Fake.polled st).reg = st.reg := by
      rw [Fake.polled]
      split <;> rfl
    have hget : (s.pollCall (.str (Fake.handleText n)) started).get .sync
        (s.script fake (.getStatement (.str (Fake.handleText n)))) =
      send s.policy .sync (.getStatement (.str (Fake.handleText n)))
        (s.script fake (.getStatement (.str (Fake.handleText n)))) := rfl
    rw [rounds, poll]
    dsimp only
    rw [hget, hsend]
    dsimp only
    by_cases hpolls : 0 < st.remainingPolls
    · have hrunning : (!StatementResponse.isRunning
          { statusCode := 202, body := runningBody (Fake.handleText n) }) = false := rfl
      have hdeadline := hclocks clock (by simp)
      rw [if_pos hpolls, hrunning, if_neg Bool.false_ne_true, if_neg (not_le.mpr hdeadline)]
      have hsleep : SnowflakeSqlApi.sleep .sync
          (s.pollCall (.str (Fake.handleText n)) started).pollInterval = .ok () := s.canSleep
      rw [hsleep]
      dsimp only
      have hleft : (Fake.polled st).remainingPolls.toNat < clocks.length := by
        rw [Fake.polled, if_pos hpolls]
        rw [List.length_cons] at hlength
        dsimp only
        omega
      obtain ⟨houtcome, st', hst', hlater⟩ := ih hopened (hreg ▸ herror) (hreg ▸ hcarries) hleft
        (fun clock hclock => hclocks clock (List.mem_cons_of_mem _ hclock))
      rw [hreg] at houtcome hst'
      refine ⟨houtcome, st', hst', ?_⟩
      rw [PollRun.gets_after, Nat.add_comm]
      exact hlater
    · rw [if_neg hpolls]
      exact ⟨rfl, Fake.polled st, hreg, hopened⟩

end Opened

/-! ### The partitions -/

/-- What a query makes of a registration: its wire rows, coerced by its columns. -/
def resultRows (lib : Builtins) (reg : Reg) : Except Exc (List Row) := do
  let columns ← reg.rowType.mapM ColumnMeta.fromRowType
  validateColumnNames columns (py "results")
  coerceRows lib (reg.chunks.flatten.map rowJson) columns

theorem columnsFrom_resultBody (reg : Reg) (handle : PyStr) :
    columnsFrom (Fake.resultBody reg handle) =
      (do
        let columns ← reg.rowType.mapM ColumnMeta.fromRowType
        validateColumnNames columns (py "results")
        pure columns) := rfl

/-- A fetcher that gets the chunks of the registration for its partitions. -/
def GetsChunks (f : Fetcher) (handle : PyStr) (reg : Reg) : Prop :=
  ∀ i chunk, reg.chunks[i + 1]? = some chunk →
    f.getStatement (.str handle) (i + 1) =
      .ok { statusCode := 200, body := [(py "data", dataJson chunk)] }

section Opened

variable (h : fake.Opened n st) (herror : st.reg.error = none) (hcarries : s.Carries st.reg)

include h herror hcarries

/-- Asking for the partitions leaves the statement as it is. -/
theorem atPartition_opened {i : Nat} (hi : i ≤ st.reg.chunks.length) :
    (s.atPartition (.str (Fake.handleText n)) fake i).Opened n st := by
  induction i with
  | zero => exact h
  | succ i ih =>
    cases i with
    | zero => exact h
    | succ i =>
      have hchunk : st.reg.chunks[i + 1]? = some (st.reg.chunks[i + 1]) :=
        List.getElem?_eq_getElem hi
      exact (call_partition (ih (by omega)) herror hcarries hchunk).2

theorem fetcher_getsChunks :
    GetsChunks (s.fetcher (.str (Fake.handleText n)) fake) (Fake.handleText n) st.reg := by
  intro i chunk hchunk
  obtain ⟨hi, -⟩ := List.getElem?_eq_some_iff.mp hchunk
  have hopened := atPartition_opened h herror hcarries (Nat.le_of_lt hi)
  exact (call_partition hopened herror hcarries hchunk).1

end Opened

/-- The rows of one partition are those of its chunk. -/
theorem queriedRows_partition (lib : Builtins) (columns : List ColumnMeta) {f : Fetcher}
    {handle : PyStr} {reg : Reg} (h : GetsChunks f handle reg) {i : Nat}
    (hi : i < reg.chunks.length) :
    (partitionBody f (.str handle) (Fake.resultBody reg handle) i >>= queriedRows lib columns) =
      coerceRows lib ((reg.chunks[i]).map rowJson) columns := by
  cases i with
  | zero =>
    have hhead : reg.chunks[0] = reg.chunks.head reg.chunks_ne :=
      List.head_eq_getElem reg.chunks_ne |>.symm
    rw [hhead]
    exact queriedRows_of_arr rfl
  | succ i =>
    have hget := h i _ (List.getElem?_eq_getElem hi)
    rw [partitionBody, hget]
    exact queriedRows_of_arr rfl

/-- The chunks one after the other. -/
theorem mapM_partitions (lib : Builtins) (columns : List ColumnMeta) {f : Fetcher} {handle : PyStr}
    {reg : Reg} (h : GetsChunks f handle reg) :
    (List.range reg.chunks.length).mapM (fun i =>
      partitionBody f (.str handle) (Fake.resultBody reg handle) i >>= queriedRows lib columns) =
      reg.chunks.mapM fun chunk => coerceRows lib (chunk.map rowJson) columns := by
  have hparts : (List.range reg.chunks.length).mapM (fun i =>
      partitionBody f (.str handle) (Fake.resultBody reg handle) i >>= queriedRows lib columns) =
      (List.range reg.chunks.length).mapM fun i =>
        coerceRows lib ((reg.chunks.getD i []).map rowJson) columns := by
    refine mapM_congr fun i hi => ?_
    have hlt := List.mem_range.mp hi
    rw [queriedRows_partition lib columns h hlt, List.getD_eq_getElem _ _ hlt]
  have hrange : (List.range reg.chunks.length).map (fun i => reg.chunks.getD i []) =
      reg.chunks := by
    apply List.ext_getElem
    · rw [List.length_map, List.length_range]
    · intro i hi hlt
      rw [List.getElem_map, List.getElem_range, List.getD_eq_getElem _ _ hlt]
  rw [hparts]
  conv_rhs => rw [← hrange]
  rw [List.mapM_map]
  rfl

/-- **A result served by the fake** is its rows. -/
theorem result_eq_ok (lib : Builtins) {f : Fetcher} {n : Nat} {reg : Reg}
    (h : GetsChunks f (Fake.handleText n) reg) {response finished : StatementResponse}
    {polled : Json → Except Exc StatementResponse}
    (hfinished : finishedResponse polled response = .ok finished)
    (hbody : finished.body = Fake.resultBody reg (Fake.handleText n)) {rows : List Row} :
    SnowflakeSqlApi.query lib f polled response = .ok rows ↔ resultRows lib reg = .ok rows := by
  have hlength := List.length_pos_of_ne_nil reg.chunks_ne
  have hhandle : finished.statementHandle = .str (Fake.handleText n) := by
    rw [StatementResponse.statementHandle, hbody]
    rfl
  rw [resultRows]
  cases hcolumns : (do
      let columns ← reg.rowType.mapM ColumnMeta.fromRowType
      validateColumnNames columns (py "results")
      pure columns : Except Exc (List ColumnMeta)) with
  | error e =>
    have hprepared : prepareResult polled response = .error e := by
      rw [prepareResult, hfinished]
      show (columnsFrom finished.body >>= _) = _
      rw [hbody, columnsFrom_resultBody, hcolumns, hhandle]
      rfl
    rw [SnowflakeSqlApi.query, hprepared]
    refine ⟨fun hrows => (by cases hrows), fun hrows => ?_⟩
    obtain ⟨columns, hparsed, hrest⟩ := bind_eq_ok.mp hrows
    obtain ⟨_, hvalid, -⟩ := bind_eq_ok.mp hrest
    rw [hparsed] at hcolumns
    dsimp only [bind, Except.bind] at hcolumns
    rw [hvalid] at hcolumns
    cases hcolumns
  | ok columns =>
    have hprepared : prepareResult polled response =
        .ok (columns, .str (Fake.handleText n), Fake.resultBody reg (Fake.handleText n)) := by
      rw [prepareResult, hfinished]
      show (columnsFrom finished.body >>= _) = _
      rw [hbody, columnsFrom_resultBody, hcolumns, hhandle]
      rfl
    obtain ⟨columns', hparsed, hrest⟩ := bind_eq_ok.mp hcolumns
    obtain ⟨_, hvalid, heq⟩ := bind_eq_ok.mp hrest
    cases heq
    rw [query_eq_ok hprepared (Fake.partitionCount_resultBody reg _), max_eq_right hlength,
      mapM_partitions lib columns h, hparsed]
    show _ ↔ (validateColumnNames columns (py "results") >>= _) = _
    rw [hvalid]
    show _ ↔ coerceRows lib (reg.chunks.flatten.map rowJson) columns = _
    rw [List.map_flatten, coerceRows, mapM_flatten_ok, List.mapM_map]
    rfl

/-! ### The query -/

section Submit

variable {request : HttpRequest} {sql : PyStr} {reg : Reg} (hsubmit : request.IsSubmit)
  (hstatement : Fake.statementOf request = .ok (.str sql))
  (hlookup : fake.lookup (.str sql) = .ok (some reg))
include hsubmit hstatement hlookup

theorem handle_registered :
    fake.handle request = (fake.log request).openStatement reg request := by
  rw [Fake.handle_of_submit hsubmit, Fake.onSubmit, hstatement]
  dsimp only
  rw [show (fake.log request).lookup (.str sql) = fake.lookup (.str sql) from rfl, hlookup]

/-- A statement that is not asynchronous is opened. -/
theorem handle_opens (herror : reg.error = none)
    (hplain : request.params.lookup (py "async") ≠ some (py "true")) : ∃ n next,
    next.Opened n ⟨reg, reg.pollsBeforeReady⟩ ∧ fake.handle request =
      (.ok (if 0 < reg.pollsBeforeReady then Fake.response 202 (runningBody (Fake.handleText n))
        else Fake.response 200 (Fake.resultBody reg (Fake.handleText n))), next) := by
  obtain ⟨hopened, hreply⟩ := @Fake.openStatement_opened (fake.log request) reg herror request
  refine ⟨_, _, hopened, ?_⟩
  rw [handle_registered hsubmit hstatement hlookup]
  refine Prod.ext ?_ rfl
  rw [hreply]
  simp only [hplain, false_or]

end Submit

/-- A request id alone does not make a submit asynchronous. -/
theorem plain_requestId (requestId : PyStr) :
    [(py "requestId", requestId)].lookup (py "async") ≠ some (py "true") := by
  have hkey : (py "async" == py "requestId") = false := by decide
  rw [List.lookup_cons, hkey, List.lookup_nil]
  intro h
  cases h

/-- How a statement is settled once it is sent: by the response, or by the poll of its handle. -/
inductive Settles (s : Session) (reg : Reg) (started : ℚ) (clocks : List ℚ) :
    StatementResponse → Fake → Prop
  | finished {n : Nat} {next : Fake} : next.Opened n ⟨reg, reg.pollsBeforeReady⟩ →
      Settles s reg started clocks
        { statusCode := 200, body := Fake.resultBody reg (Fake.handleText n)
          submissionAttempts := some 1 } next
  | polled {n : Nat} {next : Fake} {run : PollRun} {st : State} :
      poll (s.pollCall (.str (Fake.handleText n)) started)
        (s.script next (.cancelStatement (.str (Fake.handleText n))))
        (s.rounds (.getStatement (.str (Fake.handleText n))) next clocks) = run →
      run.outcome = .returned
        { statusCode := 200, body := Fake.resultBody reg (Fake.handleText n) } →
      st.reg = reg →
      (s.calls (.getStatement (.str (Fake.handleText n))) run.gets next).Opened n st →
      Settles s reg started clocks
        { statusCode := 202, body := runningBody (Fake.handleText n)
          submissionAttempts := some 1 } next

/-- **A registered statement is settled** after one attempt to submit it. -/
theorem send_settles (s : Session) (request : Request) {sql : PyStr} {reg : Reg} {started : ℚ}
    {clocks : List ℚ} (hisSubmit : request.isSubmit = true) (hsubmit : (s.channel.http request).IsSubmit)
    (hstatement : Fake.statementOf (s.channel.http request) = .ok (.str sql))
    (hplain : (s.channel.http request).params.lookup (py "async") ≠ some (py "true"))
    (hlookup : fake.lookup (.str sql) = .ok (some reg)) (herror : reg.error = none)
    (hcarries : s.Carries reg) (hpolls : reg.pollsBeforeReady.toNat < clocks.length)
    (hclocks : ∀ clock ∈ clocks, clock < (s.pollCall .null started).deadline) :
    ∃ sent response next,
      send s.policy .sync request (s.script fake request) = ([sent], .ok response) ∧
        s.call fake request = (.ok response, next) ∧ s.Settles reg started clocks response next := by
  obtain ⟨n, next, hopened, hfirst⟩ := handle_opens hsubmit hstatement hlookup herror hplain
  by_cases hwait : 0 < reg.pollsBeforeReady
  · rw [if_pos hwait] at hfirst
    have hsend := send_eq hfirst (s.channel.running n) (.inr rfl)
    have hcall := (call_eq hfirst (s.channel.running n) (.inr rfl)).2
    rw [hisSubmit, if_pos rfl] at hsend
    obtain ⟨houtcome, st, hreg, hlater⟩ := poll_eq hopened herror hcarries
      (s.script next (.cancelStatement (.str (Fake.handleText n)))) hpolls hclocks
    exact ⟨_, _, next, hsend, Prod.ext (congrArg Prod.snd hsend) hcall,
      .polled rfl houtcome hreg hlater⟩
  · rw [if_neg hwait] at hfirst
    have hcarried := hcarries.result n herror
    have hsend := send_eq hfirst hcarried (.inl rfl)
    have hcall := (call_eq hfirst hcarried (.inl rfl)).2
    rw [hisSubmit, if_pos rfl] at hsend
    exact ⟨_, _, next, hsend, Prod.ext (congrArg Prod.snd hsend) hcall, .finished hopened⟩

/-- **A query of a registered statement** returns what the registration comes to, however often it
is told to wait and into however many partitions the rows are split. -/
theorem query_eq (lib : Builtins) {sql : PyStr} {reg : Reg} {started : ℚ} {clocks : List ℚ}
    (hlookup : fake.lookup (.str sql) = .ok (some reg)) (herror : reg.error = none)
    (hcarries : s.Carries reg) (hpolls : reg.pollsBeforeReady.toNat < clocks.length)
    (hclocks : ∀ clock ∈ clocks, clock < (s.pollCall .null started).deadline) :
    ∃ result, s.query lib fake sql started clocks = some result ∧
      ∀ rows, result = .ok rows ↔ resultRows lib reg = .ok rows := by
  have hpayload : s.context.buildPayload sql [] =
      .ok ((py "statement", .str sql) :: s.context.contextItems) := by
    rw [ClientContext.buildPayload, if_pos rfl, ClientContext.contextPayload_eq]
  obtain ⟨-, response, next, -, hcall, hsettles⟩ := send_settles s
    (.submit s.requestId false false (.json ((py "statement", .str sql) :: s.context.contextItems)))
    rfl ⟨rfl, rfl⟩ rfl (plain_requestId s.requestId) hlookup herror hcarries hpolls hclocks
  rw [query, hpayload]
  dsimp only
  rw [hcall]
  dsimp only
  cases hsettles with
  | @polled n _ run st hpoll houtcome hreg hlater =>
    rw [if_pos (isRunning_running _ _), statementHandle_running, hpoll, houtcome]
    subst hreg
    exact ⟨_, rfl, fun rows => result_eq_ok lib (fetcher_getsChunks hlater herror hcarries) rfl rfl⟩
  | @finished n _ hopened =>
    rw [if_neg (not_isRunning_finished _ _)]
    exact ⟨_, rfl, fun rows => result_eq_ok lib (fetcher_getsChunks hopened herror hcarries) rfl rfl⟩

end Session

end SnowflakeSqlApi.Testing
