import SnowflakeSqlApi.Lib.Chunks
import SnowflakeSqlApi.Truncation

/-!
# Streams and batches

`query_batches` gathers the rows of `query_stream`, whatever partitions they come in.  Both are
generators: a consumer takes as much of one as it asks for (`taken`, `takenBatches`), and closing one
runs `finally` blocks that fetch nothing.

Of a result in well-formed partitions (`Layout`) a stream is the rows of one partition after
the other, each fetched just before its first row is due (`queryStream_layout`), so that the
partitions fetched with a row are those up to its own (`taken_row`).  The batches are the
consecutive chunks of the rows (`batches_chunks`).
-/

namespace SnowflakeSqlApi

open Chunks (IsChunks)

/-! ### Consumers -/

/-- The partitions fetched, in order. -/
def fetchedIn (events : List StreamEvent) : List Nat :=
  events.filterMap fun
    | .fetched index => some index
    | .yielded _ => none

/-- The rows yielded, in order. -/
def yieldedIn (events : List StreamEvent) : List Row :=
  events.filterMap fun
    | .yielded row => some row
    | .fetched _ => none

/-- What a generator has done for a consumer that asked for so many rows, and then closed it. -/
def taken : Nat → List StreamEvent → List StreamEvent
  | 0, _ => []
  | _ + 1, [] => []
  | n + 1, .fetched index :: events => .fetched index :: taken (n + 1) events
  | n + 1, .yielded row :: events => .yielded row :: taken n events

@[simp] theorem taken_zero (events : List StreamEvent) : taken 0 events = [] := by
  cases events <;> rfl

@[simp] theorem taken_nil (n : Nat) : taken n [] = [] := by
  cases n <;> rfl

/-! ### Batches -/

inductive BatchEvent
  | fetched (index : Nat)
  | batched (rows : List Row)

/-- `validate_batch_size`. -/
def validateBatchSize : Json → Except Exc Nat
  | .int n =>
    if n ≤ 0 then .error (.config [lit "batch_size must be a positive integer"])
    else .ok n.toNat
  | _ => .error (.config [lit "batch_size must be a positive integer"])

/-- `for row in rows` of `query_batches`, with the batch begun: what it does, and the batch it leaves. -/
def batchEvents (size : Nat) : List Row → List StreamEvent → List BatchEvent × List Row
  | batch, [] => ([], batch)
  | batch, .fetched index :: events =>
    let (done, left) := batchEvents size batch events
    (.fetched index :: done, left)
  | batch, .yielded row :: events =>
    let batch := batch ++ [row]
    if batch.length = size then
      let (done, left) := batchEvents size [] events
      (.batched batch :: done, left)
    else batchEvents size batch events

/-- A drained `query_batches`. -/
structure BatchStream where
  events : List BatchEvent
  stopped : Option Exc

namespace BatchStream

def batches (s : BatchStream) : List (List Row) :=
  s.events.filterMap fun
    | .batched rows => some rows
    | .fetched _ => none

def fetched (events : List BatchEvent) : List Nat :=
  events.filterMap fun
    | .fetched index => some index
    | .batched _ => none

/-- What it has done for a consumer that asked for so many batches, and then closed it. -/
def taken : Nat → List BatchEvent → List BatchEvent
  | 0, _ => []
  | _ + 1, [] => []
  | n + 1, .fetched index :: events => .fetched index :: taken (n + 1) events
  | n + 1, .batched rows :: events => .batched rows :: taken n events

@[simp] theorem taken_zero (events : List BatchEvent) : taken 0 events = [] := by
  cases events <;> rfl

@[simp] theorem taken_nil (n : Nat) : taken n [] = [] := by
  cases n <;> rfl

end BatchStream

/-- The batches of a stream; a batch begun is lost if the stream raises. -/
def Stream.batched (s : Stream) (size : Nat) : BatchStream :=
  let (done, left) := batchEvents size [] s.events
  match s.stopped with
  | some e => ⟨done, some e⟩
  | none => ⟨done ++ (if left = [] then [] else [.batched left]), none⟩

/-- `query_batches`, from the reply to the submission on. -/
def queryBatches (lib : Builtins) (f : Fetcher) (polled : Json → Except Exc StatementResponse)
    (response : StatementResponse) (batchSize : Json) : BatchStream :=
  match validateBatchSize batchSize with
  | .error e => ⟨[], some e⟩
  | .ok size => (queryStream lib f polled response).batched size

/-! ### The loop of `query_batches` -/

section Loop

variable {size : Nat}

/-- **The batches are the chunks** of the batch begun and the rows to come. -/
theorem batchEvents_chunks {batch : List Row} (hbatch : batch.length < size)
    (events : List StreamEvent) :
    IsChunks size (batch ++ yieldedIn events)
      (BatchStream.batches ⟨(batchEvents size batch events).1 ++
        (if (batchEvents size batch events).2 = [] then []
          else [.batched (batchEvents size batch events).2]), none⟩) := by
  induction events generalizing batch with
  | nil =>
    rw [batchEvents]
    dsimp only
    rw [List.nil_append]
    by_cases hnil : batch = []
    · rw [if_pos hnil, hnil]
      exact .nil
    · rw [if_neg hnil]
      have hle : (batch ++ yieldedIn []).length ≤ size := by
        simpa [yieldedIn] using hbatch.le
      have hchunks := IsChunks.of_le (by simpa [yieldedIn] using hnil) hle
      simpa [BatchStream.batches, yieldedIn] using hchunks
  | cons event events ih =>
    cases event with
    | fetched index => exact ih hbatch
    | yielded row =>
      have hrows : batch ++ yieldedIn (.yielded row :: events) =
          batch ++ [row] ++ yieldedIn events := by
        rw [List.append_assoc]
        rfl
      rw [batchEvents, hrows]
      dsimp only
      by_cases hfull : (batch ++ [row]).length = size
      · rw [if_pos hfull]
        have hempty : ([] : List Row).length < size := lt_of_le_of_lt (Nat.zero_le _) hbatch
        exact .cons (Nat.zero_lt_of_lt hbatch) hfull (ih hempty)
      · rw [if_neg hfull]
        refine ih (lt_of_le_of_ne ?_ hfull)
        rw [List.length_append]
        exact hbatch

/-- **No prefetch**: with so many batches, what is fetched with their rows. -/
theorem fetched_batchEvents {batch : List Row} (hbatch : batch.length < size) (n : Nat)
    (events : List StreamEvent) :
    BatchStream.fetched (BatchStream.taken n (batchEvents size batch events).1) =
      fetchedIn (taken (n * size - batch.length) events) := by
  induction events generalizing batch n with
  | nil =>
    rw [batchEvents, taken_nil, BatchStream.taken_nil]
    rfl
  | cons event events ih =>
    cases n with
    | zero =>
      rw [Nat.zero_mul, Nat.zero_sub, taken_zero, BatchStream.taken_zero]
      rfl
    | succ n =>
      obtain ⟨k, hk⟩ : ∃ k, (n + 1) * size - batch.length = k + 1 := by
        refine ⟨(n + 1) * size - batch.length - 1, ?_⟩
        rw [Nat.succ_mul]
        omega
      cases event with
      | fetched index =>
        have hrest := ih hbatch (n + 1)
        rw [hk] at hrest ⊢
        exact congrArg (index :: ·) hrest
      | yielded row =>
        rw [batchEvents, hk]
        dsimp only
        by_cases hfull : (batch ++ [row]).length = size
        · have hempty : ([] : List Row).length < size := lt_of_le_of_lt (Nat.zero_le _) hbatch
          have hcount : k = n * size - ([] : List Row).length := by
            rw [List.length_append, List.length_singleton] at hfull
            rw [Nat.succ_mul] at hk
            rw [List.length_nil]
            omega
          rw [if_pos hfull, hcount]
          exact ih hempty n
        · have hshort : (batch ++ [row]).length < size := by
            refine lt_of_le_of_ne ?_ hfull
            rw [List.length_append]
            exact hbatch
          have hcount : k = (n + 1) * size - (batch ++ [row]).length := by
            rw [List.length_append, List.length_singleton]
            omega
          rw [if_neg hfull, hcount]
          exact ih hshort (n + 1)

/-- The last batch is yielded after everything is fetched. -/
theorem fetched_taken_append (n : Nat) (done : List BatchEvent) (rows : List Row) :
    BatchStream.fetched (BatchStream.taken n (done ++ [.batched rows])) =
      BatchStream.fetched (BatchStream.taken n done) := by
  induction done generalizing n with
  | nil =>
    cases n with
    | zero => rfl
    | succ n =>
      show BatchStream.fetched (.batched rows :: BatchStream.taken n []) = _
      rw [BatchStream.taken_nil]
      rfl
  | cons event done ih =>
    cases n with
    | zero => rw [BatchStream.taken_zero, BatchStream.taken_zero]
    | succ n =>
      cases event with
      | fetched index => exact congrArg (index :: ·) (ih (n + 1))
      | batched rows => exact ih n

end Loop

/-! ### Results in partitions -/

/-- A finished result, well-formed in all its partitions: the rows of each. -/
structure Layout (lib : Builtins) (f : Fetcher) (polled : Json → Except Exc StatementResponse)
    (response : StatementResponse) (columns : List ColumnMeta) (handle : Json) (body : Dict)
    (parts : List (List Row)) : Prop where
  prepared : prepareResult polled response = .ok (columns, handle, body)
  counted : ∃ count, partitionCount body = .ok count ∧ parts.length = max 1 count
  served : ∀ i part, parts[i]? = some part → ∃ data,
    partitionData f handle body i = .ok (.arr data) ∧ coerceRows lib data columns = .ok part

/-- The partitions from an index on, each fetched before its rows. -/
def partitionEvents : Nat → List (List Row) → List StreamEvent
  | _, [] => []
  | index, part :: parts =>
    .fetched index :: part.map .yielded ++ partitionEvents (index + 1) parts

theorem partitionEvents_append (index : Nat) (parts parts' : List (List Row)) :
    partitionEvents index (parts ++ parts') =
      partitionEvents index parts ++ partitionEvents (index + parts.length) parts' := by
  induction parts generalizing index with
  | nil => rfl
  | cons part parts ih =>
    rw [List.cons_append, partitionEvents, partitionEvents, ih, List.append_assoc, List.length_cons,
      Nat.add_right_comm, Nat.add_assoc]

theorem fetchedIn_append (events events' : List StreamEvent) :
    fetchedIn (events ++ events') = fetchedIn events ++ fetchedIn events' := List.filterMap_append

theorem yieldedIn_append (events events' : List StreamEvent) :
    yieldedIn (events ++ events') = yieldedIn events ++ yieldedIn events' := List.filterMap_append

theorem fetchedIn_map (rows : List Row) : fetchedIn (rows.map .yielded) = [] := by
  induction rows with
  | nil => rfl
  | cons row rows ih => exact ih

theorem yieldedIn_map (rows : List Row) : yieldedIn (rows.map .yielded) = rows := by
  induction rows with
  | nil => rfl
  | cons row rows ih => exact congrArg (row :: ·) ih

theorem fetchedIn_partitionEvents (index : Nat) (parts : List (List Row)) :
    fetchedIn (partitionEvents index parts) = List.range' index parts.length := by
  induction parts generalizing index with
  | nil => rfl
  | cons part parts ih =>
    rw [partitionEvents, List.cons_append, List.length_cons, List.range'_succ, ← ih]
    show index :: fetchedIn (part.map .yielded ++ _) = _
    rw [fetchedIn_append, fetchedIn_map, List.nil_append]

theorem yieldedIn_partitionEvents (index : Nat) (parts : List (List Row)) :
    yieldedIn (partitionEvents index parts) = parts.flatten := by
  induction parts generalizing index with
  | nil => rfl
  | cons part parts ih =>
    rw [partitionEvents, List.cons_append, List.flatten_cons, ← ih (index + 1)]
    show yieldedIn (part.map .yielded ++ _) = _
    rw [yieldedIn_append, yieldedIn_map]

/-- What comes before the last row asked for comes about. -/
theorem taken_append (events : List StreamEvent) (row : Row) (rest : List StreamEvent) :
    taken ((yieldedIn events).length + 1) (events ++ .yielded row :: rest) =
      events ++ [.yielded row] := by
  induction events with
  | nil =>
    show StreamEvent.yielded row :: taken 0 rest = _
    rw [taken_zero]
    rfl
  | cons event events ih =>
    cases event with
    | fetched index => exact congrArg (.fetched index :: ·) ih
    | yielded row' => exact congrArg (.yielded row' :: ·) ih

section Layout

variable {lib : Builtins} {f : Fetcher} {polled : Json → Except Exc StatementResponse}
  {response : StatementResponse} {columns : List ColumnMeta} {handle : Json} {body : Dict}
  {parts : List (List Row)}

theorem yieldRows_eq {data : List Json} {rows : List Row}
    (h : coerceRows lib data columns = .ok rows) :
    yieldRows lib columns data = ⟨rows.map .yielded, none⟩ := by
  have hrows := mapM_eq_ok.mp h
  clear h
  induction hrows with
  | nil => rfl
  | cons hrow _ ih =>
    rw [yieldRows, hrow]
    dsimp only
    rw [ih]
    rfl

theorem iterPartitions_eq {index : Nat}
    (h : ∀ i part, parts[i]? = some part → ∃ data,
      partitionData f handle body (index + 1 + i) = .ok (.arr data) ∧
        coerceRows lib data columns = .ok part) :
    iterPartitions lib f handle columns parts.length (index + 1) =
      ⟨partitionEvents (index + 1) parts, none⟩ := by
  induction parts generalizing index with
  | nil => rfl
  | cons part parts ih =>
    obtain ⟨data, hdata, hrows⟩ := h 0 part rfl
    have hrest := ih fun i part' hpart => by
      have hnext := h (i + 1) part' hpart
      rwa [← Nat.add_assoc, Nat.add_right_comm] at hnext
    rw [List.length_cons, iterPartitions]
    cases hget : f.getStatement handle (index + 1) with
    | error e =>
      rw [partitionData, Nat.add_zero, partitionBody, hget] at hdata
      cases hdata
    | ok reply =>
      rw [partitionData, Nat.add_zero, partitionBody, hget] at hdata
      have hbody : reply.body.get (py "data") = .arr data := Except.ok.inj hdata
      dsimp only
      rw [streamData_eq_ok.mpr hbody]
      dsimp only
      rw [yieldRows_eq hrows, hrest]
      rfl

/-- **A stream of a well-formed result**: the first partition is there, the others are fetched one
by one. -/
theorem queryStream_layout (h : Layout lib f polled response columns handle body parts) :
    ∃ events, partitionEvents 0 parts = .fetched 0 :: events ∧
      queryStream lib f polled response = ⟨events, none⟩ := by
  obtain ⟨count, hcount, hlength⟩ := h.counted
  cases parts with
  | nil =>
    rw [List.length_nil] at hlength
    omega
  | cons first rest =>
    obtain ⟨data, hdata, hrows⟩ := h.served 0 first rfl
    have hbody : body.get (py "data") = .arr data := Except.ok.inj hdata
    have hrest : max 1 count - 1 = rest.length := by
      rw [List.length_cons] at hlength
      omega
    have hlater : iterPartitions lib f handle columns rest.length 1 =
        ⟨partitionEvents 1 rest, none⟩ := by
      refine @iterPartitions_eq lib f columns handle body rest 0 fun i part hpart => ?_
      have hserved := h.served (i + 1) part hpart
      rwa [Nat.zero_add, Nat.add_comm 1 i]
    refine ⟨first.map .yielded ++ partitionEvents 1 rest, rfl, ?_⟩
    rw [queryStream, h.prepared]
    dsimp only
    rw [iterResultRows, hcount]
    dsimp only
    rw [streamData_eq_ok.mpr hbody]
    dsimp only
    rw [yieldRows_eq hrows, hrest, hlater]
    rfl

/-- **With a row come the partitions up to its own**, each once and in order. -/
theorem taken_row (h : Layout lib f polled response columns handle body parts)
    {before after : List (List Row)} {left right : List Row} {row : Row}
    (hparts : parts = before ++ (left ++ row :: right) :: after) :
    ∃ events, taken (before.flatten.length + left.length + 1) (queryStream lib f polled response).events =
        events ++ [.yielded row] ∧
      yieldedIn events = before.flatten ++ left ∧ fetchedIn events = List.range' 1 before.length := by
  obtain ⟨events, hevents, hstream⟩ := queryStream_layout h
  have hall : partitionEvents 0 parts =
      (partitionEvents 0 before ++ .fetched before.length :: left.map .yielded) ++
        .yielded row :: (right.map .yielded ++ partitionEvents (before.length + 1) after) := by
    rw [hparts, partitionEvents_append, partitionEvents, List.map_append, List.map_cons, Nat.zero_add]
    simp
  have hyielded : yieldedIn (partitionEvents 0 before ++ .fetched before.length :: left.map .yielded) =
      before.flatten ++ left := by
    rw [yieldedIn_append, yieldedIn_partitionEvents]
    exact congrArg (before.flatten ++ ·) (yieldedIn_map left)
  have hfetched : fetchedIn (partitionEvents 0 before ++ .fetched before.length :: left.map .yielded) =
      0 :: List.range' 1 before.length := by
    have hsucc : List.range' 0 (before.length + 1) = 0 :: List.range' 1 before.length :=
      List.range'_succ
    rw [fetchedIn_append, fetchedIn_partitionEvents, ← hsucc, List.range'_concat, Nat.zero_add,
      Nat.one_mul]
    exact congrArg (List.range' 0 before.length ++ before.length :: ·) (fetchedIn_map left)
  obtain ⟨done, hdone⟩ : ∃ done, partitionEvents 0 before ++
      .fetched before.length :: left.map .yielded = .fetched 0 :: done := by
    cases before with
    | nil => exact ⟨_, rfl⟩
    | cons part before => exact ⟨_, rfl⟩
  rw [hdone] at hall hyielded hfetched
  rw [hall, List.cons_append] at hevents
  have hrest := (List.cons.inj hevents).2
  have hrows : yieldedIn done = before.flatten ++ left := hyielded
  refine ⟨done, ?_, hrows, (List.cons.inj hfetched).2⟩
  rw [hstream, ← hrest, ← List.length_append, ← hrows]
  exact taken_append done row _

/-- The batches of a well-formed result, and no exception. -/
theorem queryBatches_layout (h : Layout lib f polled response columns handle body parts)
    {size : Nat} (hsize : 0 < size) :
    IsChunks size parts.flatten (queryBatches lib f polled response (.int size)).batches ∧
      (queryBatches lib f polled response (.int size)).stopped = none ∧
      ∀ n, BatchStream.fetched
          (BatchStream.taken n (queryBatches lib f polled response (.int size)).events) =
        fetchedIn (taken (n * size) (queryStream lib f polled response).events) := by
  obtain ⟨events, hevents, hstream⟩ := queryStream_layout h
  have hvalid : validateBatchSize (.int size) = .ok size := by
    rw [validateBatchSize, if_neg (by omega), Int.toNat_natCast]
  have hempty : ([] : List Row).length < size := hsize
  have hrows : yieldedIn events = parts.flatten := by
    have hall := yieldedIn_partitionEvents 0 parts
    rw [hevents] at hall
    exact hall
  rw [queryBatches, hvalid]
  dsimp only
  rw [hstream]
  refine ⟨?_, rfl, fun n => ?_⟩
  · have hchunks := batchEvents_chunks hempty events
    rw [List.nil_append, hrows] at hchunks
    exact hchunks
  · have hfetched := fetched_batchEvents hempty n events
    rw [List.length_nil, Nat.sub_zero] at hfetched
    rw [Stream.batched, ← hfetched]
    dsimp only
    by_cases hleft : (batchEvents size [] events).2 = []
    · rw [if_pos hleft, List.append_nil]
    · rw [if_neg hleft]
      exact fetched_taken_append n _ _

/-- **Batches do not depend on the partitions**: they are the consecutive chunks of the rows, so that
another layout of the same rows has the same ones.  A stream that has yielded a row has fetched
the partitions up to it, and batches are fetched as their rows are. -/
theorem queryBatches_chunks (h : Layout lib f polled response columns handle body parts)
    {size : Nat} (hsize : 0 < size) :
    ((queryBatches lib f polled response (.int size)).stopped = none ∧
      IsChunks size parts.flatten (queryBatches lib f polled response (.int size)).batches) ∧
    (∀ f' polled' response' columns' handle' body' parts',
      Layout lib f' polled' response' columns' handle' body' parts' →
      parts'.flatten = parts.flatten →
      (queryBatches lib f' polled' response' (.int size)).batches =
        (queryBatches lib f polled response (.int size)).batches) ∧
    (parts.flatten = [] → (queryBatches lib f polled response (.int size)).batches = []) ∧
    (∀ before left row right after, parts = before ++ (left ++ row :: right) :: after →
      ∃ events, taken (before.flatten.length + left.length + 1)
          (queryStream lib f polled response).events = events ++ [.yielded row] ∧
        yieldedIn events = before.flatten ++ left ∧
        fetchedIn events = List.range' 1 before.length) ∧
    ∀ n, BatchStream.fetched
        (BatchStream.taken n (queryBatches lib f polled response (.int size)).events) =
      fetchedIn (taken (n * size) (queryStream lib f polled response).events) := by
  obtain ⟨hchunks, hstopped, hfetched⟩ := queryBatches_layout h hsize
  refine ⟨⟨hstopped, hchunks⟩, ?_, (hchunks.eq_nil_iff hsize).mpr, ?_, hfetched⟩
  · intro f' polled' response' columns' handle' body' parts' h' hrows
    have hchunks' := (queryBatches_layout h' hsize).1
    rw [hrows] at hchunks'
    exact hchunks'.unique hsize hchunks
  · intro before left row right after hparts
    exact taken_row h hparts

end Layout

/-! ### Two partitions of one row -/

/-- The second partition is answered with the row `["y"]`. -/
def secondPartition : Fetcher where
  policy := defaultRetryPolicy
  mode := .sync
  script _ _ := ⟨idleDraw,
    .answered { statusCode := 200, json := some (.obj [(py "data", .arr [.arr [.str (py "y")]])]) }⟩

def sampleRow (text : PyStr) : Row := [(.str (py "A"), .str text)]

theorem layout_pagedResponse : Layout sampleBuiltins secondPartition (fun _ => .ok pagedResponse)
    pagedResponse [⟨.str (py "A"), some (py "text"), .null, .null, true⟩] (.str (py "h"))
    pagedResponse.body [[sampleRow (py "x")], [sampleRow (py "y")]] where
  prepared := rfl
  counted := ⟨2, rfl, rfl⟩
  served i part hpart := by
    match i with
    | 0 =>
      cases hpart
      exact ⟨_, rfl, rfl⟩
    | 1 =>
      cases hpart
      exact ⟨_, rfl, rfl⟩
    | i + 2 => cases hpart

theorem queryBatches_chunks_paged :
    IsChunks 2 [sampleRow (py "x"), sampleRow (py "y")]
      (queryBatches sampleBuiltins secondPartition (fun _ => .ok pagedResponse) pagedResponse
        (.int 2)).batches :=
  (queryBatches_chunks layout_pagedResponse (Nat.succ_pos 1)).1.2

end SnowflakeSqlApi
