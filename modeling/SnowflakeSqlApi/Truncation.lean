import SnowflakeSqlApi.Pagination

/-!
# Queries and streams

Both ways to read a result map its partitions, one after the other, to the rows of each
(`query_eq_ok`, `drain_queryStream_eq_ok`); they differ in what they make of one
partition.  They agree on arrays, and on anything else that is not falsy, where both
raise.  Of a partition whose `data` is missing or falsy but no array a query makes no
rows, where a stream raises: `agrees_iff` says that this is all, and `query_truncates`
shows it.
-/

namespace SnowflakeSqlApi

/-! ### One partition -/

/-- The body of a partition: the first comes with the result. -/
def partitionBody (f : Fetcher) (handle : Json) (firstBody : Dict) : Nat → Except Exc Dict
  | 0 => .ok firstBody
  | i + 1 => (f.getStatement handle (i + 1)).map (·.body)

/-- The `data` of a partition. -/
def partitionData (f : Fetcher) (handle : Json) (firstBody : Dict) (i : Nat) : Except Exc Json :=
  (partitionBody f handle firstBody i).map (Dict.get · (py "data"))

section Partition

variable {lib : Builtins} {columns : List ColumnMeta} {body : Dict}

/-- The rows a query makes of a partition. -/
def queriedRows (lib : Builtins) (columns : List ColumnMeta) (body : Dict) : Except Exc (List Row) :=
  rowsOf body >>= fun rows => coerceRows lib rows columns

/-- The rows a stream makes of a partition. -/
def streamedRows (lib : Builtins) (columns : List ColumnMeta) (body : Dict) :
    Except Exc (List Row) :=
  streamData body >>= fun rows => coerceRows lib rows columns

theorem queriedRows_of_arr {rows : List Json} (h : body.get (py "data") = .arr rows) :
    queriedRows lib columns body = coerceRows lib rows columns := by
  rw [queriedRows, rowsOf, h]
  cases rows with
  | nil => rfl
  | cons row rows => rfl

theorem streamedRows_of_arr {rows : List Json} (h : body.get (py "data") = .arr rows) :
    streamedRows lib columns body = coerceRows lib rows columns := by
  rw [streamedRows, streamData_eq_ok.mpr h]
  rfl

theorem streamedRows_eq_ok {rows : List Row} (h : streamedRows lib columns body = .ok rows) :
    ∃ data, body.get (py "data") = .arr data ∧ coerceRows lib data columns = .ok rows := by
  obtain ⟨data, hdata, hrows⟩ := bind_eq_ok.mp h
  exact ⟨data, streamData_eq_ok.mp hdata, hrows⟩

/-- Nothing is made of a `data` that is falsy. -/
theorem queriedRows_of_falsy (h : (body.get (py "data")).truthy = false) :
    queriedRows lib columns body = .ok [] := by
  rw [queriedRows, rowsOf, Json.orElse_of_not_truthy h]
  rfl

/-- No rows can be made of a `data` that is truthy but no array. -/
theorem queriedRows_ne_ok (htruthy : (body.get (py "data")).truthy = true)
    (harr : ∀ rows, body.get (py "data") ≠ .arr rows) (rows : List Row) :
    queriedRows lib columns body ≠ .ok rows := by
  intro h
  obtain ⟨raws, hraws, hrows⟩ := bind_eq_ok.mp h
  rw [rowsOf, Json.orElse_of_truthy htruthy] at hraws
  have hfirst : ∀ raw rest, raws = raw :: rest → ∃ cells, raw = .arr cells := by
    rintro raw rest rfl
    rw [coerceRows, List.mapM_cons] at hrows
    obtain ⟨row, hrow, _⟩ := bind_eq_ok.mp hrows
    cases raw with
    | arr cells => exact ⟨cells, rfl⟩
    | _ => cases hrow
  cases hdata : body.get (py "data") with
  | arr rows => exact harr rows hdata
  | str s =>
    rw [hdata] at hraws htruthy
    cases s with
    | nil => cases htruthy
    | cons c s =>
      cases hraws
      obtain ⟨cells, hcells⟩ := hfirst _ _ rfl
      cases hcells
  | obj kvs =>
    rw [hdata] at hraws htruthy
    cases kvs with
    | nil => cases htruthy
    | cons kv kvs =>
      cases hraws
      obtain ⟨cells, hcells⟩ := hfirst _ _ rfl
      cases hcells
  | null | bool _ | int _ | float _ | other _ =>
    rw [hdata] at hraws
    cases hraws

end Partition

/-! ### All partitions -/

section Collectors

variable {lib : Builtins} {f : Fetcher} {handle : Json} {firstBody : Dict}
  {columns : List ColumnMeta} {count : Nat}

variable (firstBody) in
theorem partitionBody_succ_bind {α : Type} (i : Nat) (g : Dict → Except Exc α) :
    partitionBody f handle firstBody (i + 1) >>= g =
      f.getStatement handle (i + 1) >>= fun response => g response.body := by
  rw [partitionBody]
  cases f.getStatement handle (i + 1) with
  | error e => rfl
  | ok response => rfl

variable (firstBody) in
theorem extendRows_eq_ok {n index : Nat} {rows out : List Json} :
    extendRows f handle n (index + 1) rows = .ok out ↔
      ∃ raws, (List.range' (index + 1) n).mapM
        (fun i => partitionBody f handle firstBody i >>= rowsOf) = .ok raws ∧
          out = rows ++ raws.flatten := by
  induction n generalizing index rows with
  | zero =>
    rw [extendRows, List.range'_zero, List.mapM_nil]
    refine ⟨fun h => ?_, fun ⟨raws, h, hout⟩ => ?_⟩
    · cases h
      exact ⟨[], rfl, by simp⟩
    · cases h
      rw [hout, List.flatten_nil, List.append_nil]
  | succ n ih =>
    rw [extendRows, List.range'_succ, List.mapM_cons, partitionBody_succ_bind]
    simp only [bind_eq_ok, ih]
    refine ⟨?_, ?_⟩
    · rintro ⟨response, hget, more, hmore, raws, hraws, rfl⟩
      refine ⟨more :: raws, ⟨more, ⟨response, hget, hmore⟩, raws, hraws, rfl⟩, ?_⟩
      rw [List.flatten_cons, List.append_assoc]
    · rintro ⟨_, ⟨more, ⟨response, hget, hmore⟩, raws, hraws, h⟩, rfl⟩
      cases h
      refine ⟨response, hget, more, hmore, raws, hraws, ?_⟩
      rw [List.flatten_cons, List.append_assoc]

/-- The indices of the partitions. -/
theorem range_partitions (count : Nat) :
    List.range (max 1 count) = 0 :: List.range' 1 (max 1 count - 1) := by
  rw [List.range_eq_range', show max 1 count = (max 1 count - 1) + 1 by omega, List.range'_succ]
  rfl

theorem fetchAllPartitions_eq_ok (hcount : partitionCount firstBody = .ok count) {out : List Json} :
    fetchAllPartitions f handle firstBody = .ok out ↔
      ∃ raws, (List.range (max 1 count)).mapM
        (fun i => partitionBody f handle firstBody i >>= rowsOf) = .ok raws ∧
          out = raws.flatten := by
  have hn : count - 1 = max 1 count - 1 := by omega
  rw [fetchAllPartitions, hcount, range_partitions, List.mapM_cons, ← hn]
  simp only [bind_eq_ok, extendRows_eq_ok firstBody]
  refine ⟨?_, ?_⟩
  · rintro ⟨rows, hrows, _, hcount, raws, hraws, rfl⟩
    cases hcount
    exact ⟨rows :: raws, ⟨rows, ⟨_, rfl, hrows⟩, raws, hraws, rfl⟩, rfl⟩
  · rintro ⟨_, ⟨rows, ⟨_, hbody, hrows⟩, raws, hraws, h⟩, rfl⟩
    cases h
    cases hbody
    exact ⟨rows, hrows, _, rfl, raws, hraws, rfl⟩

/-- **A query** maps the partitions to their rows. -/
theorem query_eq_ok {polled : Json → Except Exc StatementResponse} {response : StatementResponse}
    (hprepared : prepareResult polled response = .ok (columns, handle, firstBody))
    (hcount : partitionCount firstBody = .ok count) {rows : List Row} :
    query lib f polled response = .ok rows ↔
      ∃ chunks, (List.range (max 1 count)).mapM
        (fun i => partitionBody f handle firstBody i >>= queriedRows lib columns) = .ok chunks ∧
          rows = chunks.flatten := by
  have hstages : ∀ chunks, (List.range (max 1 count)).mapM
      (fun i => partitionBody f handle firstBody i >>= queriedRows lib columns) = .ok chunks ↔
        ∃ raws, (List.range (max 1 count)).mapM
          (fun i => partitionBody f handle firstBody i >>= rowsOf) = .ok raws ∧
            raws.mapM (fun raw => coerceRows lib raw columns) = .ok chunks := by
    intro chunks
    rw [← mapM_bind_ok]
    simp only [bind_assoc]
    rfl
  rw [query, hprepared]
  simp only [hstages]
  show (fetchAllPartitions f handle firstBody >>= fun raw => coerceRows lib raw columns) = _ ↔ _
  simp only [bind_eq_ok, fetchAllPartitions_eq_ok hcount]
  refine ⟨?_, ?_⟩
  · rintro ⟨_, ⟨raws, hraws, rfl⟩, hrows⟩
    obtain ⟨chunks, hchunks, rfl⟩ := mapM_flatten_ok.mp hrows
    exact ⟨chunks, ⟨raws, hraws, hchunks⟩, rfl⟩
  · rintro ⟨chunks, ⟨raws, hraws, hchunks⟩, rfl⟩
    exact ⟨_, ⟨raws, hraws, rfl⟩, mapM_flatten_ok.mpr ⟨chunks, hchunks, rfl⟩⟩

theorem drain_andThen {first second : Stream} {rows : List Row} :
    (first.andThen second).drain = .ok rows ↔
      ∃ head tail, first.drain = .ok head ∧ second.drain = .ok tail ∧ rows = head ++ tail := by
  obtain ⟨events, stopped⟩ := first
  cases stopped with
  | some e => simp [Stream.andThen, Stream.drain]
  | none =>
    obtain ⟨events', stopped'⟩ := second
    cases stopped' with
    | some e => simp [Stream.andThen, Stream.drain]
    | none =>
      simp only [Stream.andThen, Stream.drain, Stream.rows, Except.ok.injEq, List.filterMap_append]
      refine ⟨fun h => ⟨_, _, rfl, rfl, h.symm⟩, ?_⟩
      rintro ⟨head, tail, rfl, rfl, rfl⟩
      rfl

theorem drain_yieldRows (data : List Json) :
    (yieldRows lib columns data).drain = coerceRows lib data columns := by
  induction data with
  | nil => rfl
  | cons raw data ih =>
    rw [yieldRows, coerceRows, List.mapM_cons]
    cases coerceRow lib raw columns with
    | error e => rfl
    | ok row =>
      rw [coerceRows] at ih
      show Stream.drain (Stream.andThen _ _) = (data.mapM _ >>= fun rows => pure (row :: rows))
      rw [← ih]
      obtain ⟨events, stopped⟩ := yieldRows lib columns data
      cases stopped with
      | some e => rfl
      | none => rfl

variable (firstBody) in
theorem drain_iterPartitions {n index : Nat} {rows : List Row} :
    (iterPartitions lib f handle columns n (index + 1)).drain = .ok rows ↔
      ∃ chunks, (List.range' (index + 1) n).mapM
        (fun i => partitionBody f handle firstBody i >>= streamedRows lib columns) = .ok chunks ∧
          rows = chunks.flatten := by
  induction n generalizing index rows with
  | zero =>
    rw [iterPartitions, List.range'_zero, List.mapM_nil]
    refine ⟨fun h => ?_, fun ⟨chunks, h, hrows⟩ => ?_⟩
    · cases h
      exact ⟨[], rfl, rfl⟩
    · cases h
      rw [hrows]
      rfl
  | succ n ih =>
    rw [iterPartitions, drain_andThen, List.range'_succ, List.mapM_cons, partitionBody_succ_bind]
    simp only [bind_eq_ok]
    cases hget : f.getStatement handle (index + 1) with
    | error e => simp [Stream.drain, Stream.raise]
    | ok response =>
      dsimp only
      cases hdata : streamData response.body with
      | error e => simp [Stream.drain, Stream.raise, streamedRows, hdata, bind_eq_ok]
      | ok data =>
        have hstreamed : streamedRows lib columns response.body = coerceRows lib data columns := by
          rw [streamedRows, hdata]
          rfl
        simp only [drain_andThen, drain_yieldRows, ih]
        refine ⟨?_, ?_⟩
        · rintro ⟨_, _, hnone, ⟨head, _, hhead, ⟨chunks, hchunks, rfl⟩, rfl⟩, rfl⟩
          cases hnone
          refine ⟨head :: chunks, ⟨head, ⟨response, rfl, ?_⟩, chunks, hchunks, rfl⟩, rfl⟩
          rw [hstreamed, hhead]
        · rintro ⟨_, ⟨head, ⟨_, hresponse, hhead⟩, chunks, hchunks, h⟩, rfl⟩
          cases h
          cases hresponse
          rw [hstreamed] at hhead
          exact ⟨[], _, rfl, ⟨head, _, hhead, ⟨chunks, hchunks, rfl⟩, rfl⟩, rfl⟩

/-- **A drained stream** maps the partitions to their rows as well. -/
theorem drain_queryStream_eq_ok {polled : Json → Except Exc StatementResponse}
    {response : StatementResponse}
    (hprepared : prepareResult polled response = .ok (columns, handle, firstBody))
    (hcount : partitionCount firstBody = .ok count) {rows : List Row} :
    (queryStream lib f polled response).drain = .ok rows ↔
      ∃ chunks, (List.range (max 1 count)).mapM
        (fun i => partitionBody f handle firstBody i >>= streamedRows lib columns) = .ok chunks ∧
          rows = chunks.flatten := by
  rw [queryStream, hprepared]
  dsimp only
  rw [iterResultRows, hcount, range_partitions, List.mapM_cons]
  simp only [bind_eq_ok]
  cases hdata : streamData firstBody with
  | error e => simp [Stream.drain, Stream.raise, partitionBody, streamedRows, hdata, bind_eq_ok]
  | ok data =>
    have hstreamed : streamedRows lib columns firstBody = coerceRows lib data columns := by
      rw [streamedRows, hdata]
      rfl
    simp only [drain_andThen, drain_yieldRows, drain_iterPartitions firstBody]
    refine ⟨?_, ?_⟩
    · rintro ⟨head, _, hhead, ⟨chunks, hchunks, rfl⟩, rfl⟩
      exact ⟨head :: chunks, ⟨head, ⟨_, rfl, by rw [hstreamed, hhead]⟩, chunks, hchunks, rfl⟩, rfl⟩
    · rintro ⟨_, ⟨head, ⟨_, hbody, hhead⟩, chunks, hchunks, h⟩, rfl⟩
      cases h
      cases hbody
      rw [hstreamed] at hhead
      exact ⟨head, _, hhead, ⟨chunks, hchunks, rfl⟩, rfl⟩

end Collectors

/-! ### Agreement -/

/-- A row of a result: what `coerce_row` makes of the raw row, an entry for each column. -/
structure RowOf (lib : Builtins) (columns : List ColumnMeta) (raw : Json) (row : Row) : Prop where
  coerced : coerceRow lib raw columns = .ok row
  keys : columns.mapM (fun c => c.name.key?) = some (row.map Prod.fst)

section Agreement

variable (lib : Builtins) (f : Fetcher) (polled : Json → Except Exc StatementResponse)
  (response : StatementResponse)

/-- Both raise; or both return the same rows, which are those of the `data` arrays of all
partitions. -/
inductive Agrees : Prop
  | bothRaise {e e' : Exc} : query lib f polled response = .error e →
      (queryStream lib f polled response).drain = .error e' → Agrees
  | bothReturn {rows : List Row} {columns : List ColumnMeta} {handle : Json} {body : Dict}
      {count : Nat} {partitions : List (List Json)} : query lib f polled response = .ok rows →
      (queryStream lib f polled response).drain = .ok rows →
      prepareResult polled response = .ok (columns, handle, body) →
      partitionCount body = .ok count →
      (List.range (max 1 count)).mapM (partitionData f handle body) =
        .ok (partitions.map Json.arr) →
      List.Forall₂ (RowOf lib columns) partitions.flatten rows → Agrees

/-- Nothing can be made of this partition: it was not fetched, its `data` is truthy but no array, or
one of its rows is malformed. -/
def Unreadable (columns : List ColumnMeta) : Except Exc Json → Prop
  | .error _ => True
  | .ok (.arr rows) => ∃ raw ∈ rows, ∃ e, coerceRow lib raw columns = .error e
  | .ok data => data.truthy = true

/-- All partitions have a `data` array, unless one is unreadable or the result cannot be prepared. -/
def HasAllRows : Prop :=
  ∀ columns handle body count, prepareResult polled response = .ok (columns, handle, body) →
    partitionCount body = .ok count →
      (∀ i < max 1 count, ∃ rows, partitionData f handle body i = .ok (.arr rows)) ∨
        ∃ i < max 1 count, Unreadable lib columns (partitionData f handle body i)

end Agreement

section Partitions

variable {lib : Builtins} {f : Fetcher} {polled : Json → Except Exc StatementResponse}
  {response : StatementResponse} {columns : List ColumnMeta} {handle : Json} {body : Dict}
  {count : Nat}

theorem coerceRows_ne_ok {raws : List Json} (h : ∃ raw ∈ raws, ∃ e, coerceRow lib raw columns = .error e)
    (rows : List Row) : coerceRows lib raws columns ≠ .ok rows := by
  intro hrows
  obtain ⟨raw, hraw, e, he⟩ := h
  obtain ⟨row, hrow⟩ := ok_of_mem_mapM hrows hraw
  rw [he] at hrow
  cases hrow

/-- Neither way makes rows of an unreadable partition. -/
theorem ne_ok_of_unreadable {i : Nat} (h : Unreadable lib columns (partitionData f handle body i))
    (rows : List Row) :
    (partitionBody f handle body i >>= queriedRows lib columns) ≠ .ok rows ∧
      (partitionBody f handle body i >>= streamedRows lib columns) ≠ .ok rows := by
  rw [partitionData] at h
  cases hbody : partitionBody f handle body i with
  | error e => exact ⟨fun hrows => (by cases hrows), fun hrows => (by cases hrows)⟩
  | ok part =>
    rw [hbody] at h
    show queriedRows lib columns part ≠ _ ∧ streamedRows lib columns part ≠ _
    by_cases harr : ∃ data, part.get (py "data") = .arr data
    · obtain ⟨data, hdata⟩ := harr
      rw [queriedRows_of_arr hdata, streamedRows_of_arr hdata]
      have hbad : Unreadable lib columns (.ok (part.get (py "data"))) := h
      rw [hdata] at hbad
      exact ⟨coerceRows_ne_ok hbad rows, coerceRows_ne_ok hbad rows⟩
    · have htruthy : (part.get (py "data")).truthy = true := by
        have hbad : Unreadable lib columns (.ok (part.get (py "data"))) := h
        cases hdata : part.get (py "data") with
        | arr data => exact absurd ⟨data, hdata⟩ harr
        | _ =>
          rw [hdata] at hbad
          exact hbad
      refine ⟨queriedRows_ne_ok htruthy (fun data hdata => harr ⟨data, hdata⟩) rows, fun hrows => ?_⟩
      obtain ⟨data, hdata, _⟩ := streamedRows_eq_ok hrows
      exact harr ⟨data, hdata⟩

/-- A query makes rows of every other partition. -/
theorem exists_ok_of_not_unreadable {i : Nat}
    (h : ¬ Unreadable lib columns (partitionData f handle body i)) :
    ∃ rows, (partitionBody f handle body i >>= queriedRows lib columns) = .ok rows := by
  rw [partitionData] at h
  cases hbody : partitionBody f handle body i with
  | error e =>
    rw [hbody] at h
    exact absurd trivial h
  | ok part =>
    rw [hbody] at h
    show ∃ rows, queriedRows lib columns part = .ok rows
    have hgood : ¬ Unreadable lib columns (.ok (part.get (py "data"))) := h
    by_cases harr : ∃ data, part.get (py "data") = .arr data
    · obtain ⟨data, hdata⟩ := harr
      rw [queriedRows_of_arr hdata]
      rw [hdata] at hgood
      refine exists_mapM_ok fun raw hraw => ?_
      cases hrow : coerceRow lib raw columns with
      | ok row => exact ⟨row, rfl⟩
      | error e => exact absurd ⟨raw, hraw, e, hrow⟩ hgood
    · refine ⟨[], queriedRows_of_falsy ?_⟩
      cases hdata : part.get (py "data") with
      | arr data => exact absurd ⟨data, hdata⟩ harr
      | _ =>
        rw [hdata] at hgood
        exact Bool.eq_false_iff.mpr hgood

/-- On arrays both ways make the same rows. -/
theorem queried_eq_streamed {i : Nat} {rows : List Json}
    (h : partitionData f handle body i = .ok (.arr rows)) :
    (partitionBody f handle body i >>= queriedRows lib columns) =
      partitionBody f handle body i >>= streamedRows lib columns := by
  rw [partitionData] at h
  cases hbody : partitionBody f handle body i with
  | error e => rfl
  | ok part =>
    rw [hbody] at h
    have hdata : part.get (py "data") = .arr rows := Except.ok.inj h
    show queriedRows lib columns part = streamedRows lib columns part
    rw [queriedRows_of_arr hdata, streamedRows_of_arr hdata]

/-- The columns of a prepared result have distinct keys. -/
theorem nodup_of_prepareResult
    (h : prepareResult polled response = .ok (columns, handle, body)) :
    ∃ keys, columns.mapM (fun c => c.name.key?) = some keys ∧ keys.Nodup := by
  obtain ⟨finished, _, h⟩ := bind_eq_ok.mp h
  obtain ⟨columns', hcolumns, h⟩ := bind_eq_ok.mp h
  have heq : columns' = columns := by
    cases hhandle : finished.statementHandle <;> rw [hhandle] at h <;> cases h <;> rfl
  rw [columnsFrom] at hcolumns
  obtain ⟨_, _, hcolumns⟩ := bind_eq_ok.mp hcolumns
  obtain ⟨_, _, hcolumns⟩ := bind_eq_ok.mp hcolumns
  obtain ⟨parsed, _, hcolumns⟩ := bind_eq_ok.mp hcolumns
  obtain ⟨_, hvalid, hcolumns⟩ := bind_eq_ok.mp hcolumns
  cases hcolumns
  rw [← heq]
  exact validateColumnNames_ok hvalid

/-- What a stream returns is made of the `data` arrays of all partitions. -/
theorem rows_of_drain (hprepared : prepareResult polled response = .ok (columns, handle, body))
    (hcount : partitionCount body = .ok count) {rows : List Row}
    (h : (queryStream lib f polled response).drain = .ok rows) : ∃ partitions : List (List Json),
      (List.range (max 1 count)).mapM (partitionData f handle body) =
        .ok (partitions.map Json.arr) ∧
      List.Forall₂ (RowOf lib columns) partitions.flatten rows := by
  obtain ⟨chunks, hchunks, rfl⟩ := (drain_queryStream_eq_ok hprepared hcount).mp h
  have hpartition : ∀ i chunk,
      (partitionBody f handle body i >>= streamedRows lib columns) = .ok chunk →
        ∃ raws, partitionData f handle body i = .ok (.arr raws) ∧
          coerceRows lib raws columns = .ok chunk := by
    intro i chunk hchunk
    obtain ⟨part, hpart, hrows⟩ := bind_eq_ok.mp hchunk
    obtain ⟨data, hdata, hrows⟩ := streamedRows_eq_ok hrows
    refine ⟨data, ?_, hrows⟩
    rw [partitionData, hpart, ← hdata]
    rfl
  have hall : List.Forall₂ (fun i chunk => ∃ raws, partitionData f handle body i = .ok (.arr raws) ∧
      coerceRows lib raws columns = .ok chunk) (List.range (max 1 count)) chunks :=
    (mapM_eq_ok.mp hchunks).imp hpartition
  obtain ⟨partitions, hdata, hcoerced⟩ := forall₂_comp.mp hall
  obtain ⟨keys, hkeys, hnodup⟩ := nodup_of_prepareResult hprepared
  refine ⟨partitions, mapM_eq_ok.mpr (List.forall₂_map_right_iff.mpr hdata), ?_⟩
  have hflat : partitions.flatten.mapM (fun raw => coerceRow lib raw columns) = .ok chunks.flatten :=
    mapM_flatten_ok.mpr ⟨chunks, mapM_eq_ok.mpr hcoerced, rfl⟩
  refine (mapM_eq_ok.mp hflat).imp fun raw row hrow => ⟨hrow, ?_⟩
  rw [coerceRow_keys hkeys hnodup hrow, hkeys]

/-- Without array data a stream does not return. -/
theorem arr_of_drain (hprepared : prepareResult polled response = .ok (columns, handle, body))
    (hcount : partitionCount body = .ok count) {rows : List Row}
    (h : (queryStream lib f polled response).drain = .ok rows) :
    ∀ i < max 1 count, ∃ rows, partitionData f handle body i = .ok (.arr rows) := by
  intro i hi
  obtain ⟨partitions, hpartitions, _⟩ := rows_of_drain hprepared hcount h
  obtain ⟨data, hdata⟩ := ok_of_mem_mapM hpartitions (List.mem_range.mpr hi)
  have hrel := List.forall₂_map_right_iff.mp (mapM_eq_ok.mp hpartitions)
  obtain ⟨raws, -, hraws⟩ := exists_of_forall₂_left hrel (List.mem_range.mpr hi)
  exact ⟨raws, hraws⟩

/-- Two ways that do not return both raise. -/
theorem bothRaise_of (hquery : ∀ rows, query lib f polled response ≠ .ok rows)
    (hdrain : ∀ rows, (queryStream lib f polled response).drain ≠ .ok rows) :
    Agrees lib f polled response := by
  cases hq : query lib f polled response with
  | ok rows => exact absurd hq (hquery rows)
  | error e =>
    cases hd : (queryStream lib f polled response).drain with
    | ok rows => exact absurd hd (hdrain rows)
    | error e' => exact .bothRaise hq hd

theorem query_ne_ok_of_count (hprepared : prepareResult polled response = .ok (columns, handle, body))
    {e : Exc} (hcount : partitionCount body = .error e) (rows : List Row) :
    query lib f polled response ≠ .ok rows := by
  intro h
  rw [query, hprepared] at h
  have hfetched : (fetchAllPartitions f handle body >>= fun raw => coerceRows lib raw columns) =
      .ok rows := h
  obtain ⟨raws, hraws, _⟩ := bind_eq_ok.mp hfetched
  rw [fetchAllPartitions, hcount] at hraws
  obtain ⟨_, _, hraws⟩ := bind_eq_ok.mp hraws
  cases hraws

theorem drain_ne_ok_of_count (hprepared : prepareResult polled response = .ok (columns, handle, body))
    {e : Exc} (hcount : partitionCount body = .error e) (rows : List Row) :
    (queryStream lib f polled response).drain ≠ .ok rows := by
  intro h
  rw [queryStream, hprepared] at h
  dsimp only at h
  rw [iterResultRows, hcount] at h
  cases h

/-- An unreadable partition makes both raise. -/
theorem agrees_of_unreadable (hprepared : prepareResult polled response = .ok (columns, handle, body))
    (hcount : partitionCount body = .ok count) {i : Nat} (hi : i < max 1 count)
    (hbad : Unreadable lib columns (partitionData f handle body i)) :
    Agrees lib f polled response := by
  apply bothRaise_of
  · intro rows h
    obtain ⟨chunks, hchunks, _⟩ := (query_eq_ok hprepared hcount).mp h
    obtain ⟨chunk, hchunk⟩ := ok_of_mem_mapM hchunks (List.mem_range.mpr hi)
    exact (ne_ok_of_unreadable hbad chunk).1 hchunk
  · intro rows h
    obtain ⟨chunks, hchunks, _⟩ := (drain_queryStream_eq_ok hprepared hcount).mp h
    obtain ⟨chunk, hchunk⟩ := ok_of_mem_mapM hchunks (List.mem_range.mpr hi)
    exact (ne_ok_of_unreadable hbad chunk).2 hchunk

/-- With arrays in all partitions both do the same. -/
theorem agrees_of_arr (hprepared : prepareResult polled response = .ok (columns, handle, body))
    (hcount : partitionCount body = .ok count)
    (harr : ∀ i < max 1 count, ∃ rows, partitionData f handle body i = .ok (.arr rows)) :
    Agrees lib f polled response := by
  have hsame : (List.range (max 1 count)).mapM
      (fun i => partitionBody f handle body i >>= queriedRows lib columns) =
        (List.range (max 1 count)).mapM
          (fun i => partitionBody f handle body i >>= streamedRows lib columns) := by
    refine mapM_congr fun i hi => ?_
    obtain ⟨rows, hrows⟩ := harr i (List.mem_range.mp hi)
    exact queried_eq_streamed hrows
  have hiff : ∀ rows, query lib f polled response = .ok rows ↔
      (queryStream lib f polled response).drain = .ok rows := by
    intro rows
    rw [query_eq_ok hprepared hcount, drain_queryStream_eq_ok hprepared hcount, hsame]
  cases hquery : query lib f polled response with
  | error e =>
    refine bothRaise_of (fun rows h => ?_) fun rows h => ?_
    · rw [hquery] at h
      cases h
    · rw [← hiff, hquery] at h
      cases h
  | ok rows =>
    have hdrain := (hiff rows).mp hquery
    obtain ⟨partitions, hpartitions, hrows⟩ := rows_of_drain hprepared hcount hdrain
    exact .bothReturn hquery hdrain hprepared hcount hpartitions hrows

end Partitions

/-- **When query and stream agree**: exactly if all partitions have a `data` array, or something
else of the result is malformed. -/
theorem agrees_iff (lib : Builtins) (f : Fetcher) (polled : Json → Except Exc StatementResponse)
    (response : StatementResponse) :
    Agrees lib f polled response ↔ HasAllRows lib f polled response := by
  refine ⟨fun hagrees columns handle body count hprepared hcount => ?_, fun hrows => ?_⟩
  · by_cases hbad : ∃ i < max 1 count, Unreadable lib columns (partitionData f handle body i)
    · exact .inr hbad
    · refine .inl ?_
      have hgood : ∀ i ∈ List.range (max 1 count), ∃ rows,
          (partitionBody f handle body i >>= queriedRows lib columns) = .ok rows :=
        fun i hi => exists_ok_of_not_unreadable fun h => hbad ⟨i, List.mem_range.mp hi, h⟩
      obtain ⟨chunks, hchunks⟩ := exists_mapM_ok hgood
      have hquery : query lib f polled response = .ok chunks.flatten :=
        (query_eq_ok hprepared hcount).mpr ⟨chunks, hchunks, rfl⟩
      cases hagrees with
      | bothRaise h _ =>
        rw [hquery] at h
        cases h
      | bothReturn _ hdrain _ _ _ _ => exact arr_of_drain hprepared hcount hdrain
  · cases hprepared : prepareResult polled response with
    | error e =>
      exact bothRaise_of (fun rows h => by rw [query, hprepared] at h; cases h)
        fun rows h => by rw [queryStream, hprepared] at h; cases h
    | ok prepared =>
      obtain ⟨columns, handle, body⟩ := prepared
      cases hcount : partitionCount body with
      | error e =>
        exact bothRaise_of (query_ne_ok_of_count hprepared hcount)
          (drain_ne_ok_of_count hprepared hcount)
      | ok count =>
        rcases hrows columns handle body count hprepared hcount with harr | ⟨i, hi, hbad⟩
        · exact agrees_of_arr hprepared hcount harr
        · exact agrees_of_unreadable hprepared hcount hi hbad

/-! ### A truncated result -/

def sampleBuiltins : Builtins where
  float _ := .error (.valueError [])
  decimal _ := .error (.valueError [])
  loads _ := .error (.valueError [])

/-- One text column, and two partitions, the first with one row. -/
def pagedResponse : StatementResponse where
  statusCode := 200
  body :=
    [(py "statementHandle", .str (py "h")),
      (py "resultSetMetaData", .obj
        [(py "rowType", .arr [.obj [(py "name", .str (py "A")), (py "type", .str (py "text"))]]),
          (py "partitionInfo", .arr [.obj [], .obj []])]),
      (py "data", .arr [.arr [.str (py "x")]])]

/-- The second partition is answered with `{"data": null}`. -/
def nullPartition : Fetcher where
  policy := defaultRetryPolicy
  mode := .sync
  script _ _ := ⟨idleDraw,
    .answered { statusCode := 200, json := some (.obj [(py "data", .null)]) }⟩

theorem query_pagedResponse :
    query sampleBuiltins nullPartition (fun _ => .ok pagedResponse) pagedResponse =
      .ok [[(.str (py "A"), .str (py "x"))]] := by
  rfl

theorem drain_pagedResponse : ∃ e,
    (queryStream sampleBuiltins nullPartition (fun _ => .ok pagedResponse) pagedResponse).drain =
      .error e :=
  ⟨_, rfl⟩

/-- **A query truncates** where the stream raises: it returns the row of the first partition for the
whole result. -/
theorem query_truncates :
    ¬ Agrees sampleBuiltins nullPartition (fun _ => .ok pagedResponse) pagedResponse := by
  obtain ⟨e, hdrain⟩ := drain_pagedResponse
  intro hagrees
  cases hagrees with
  | bothRaise hquery _ =>
    rw [query_pagedResponse] at hquery
    cases hquery
  | bothReturn _ hreturned _ _ _ _ =>
    rw [hdrain] at hreturned
    cases hreturned

end SnowflakeSqlApi
