import SnowflakeSqlApi.Python.Isoformat
import SnowflakeSqlApi.Streaming

/-!
# Exports

`exports.py` and the two exports of the clients: the rows of a stream, one by one, as the
records of a CSV file or as lines of JSON.  A record is made before any of it is written, and
written in one piece, so that an export that fails leaves whole records behind
(`exports_whole_records`).

`rowResults` is what there is to a result, row by row: a partition that cannot be had stands
for its rows as one error.  A stream goes through it up to the first error
(`results_iterResultRows`).
-/

namespace SnowflakeSqlApi

/-! ### Values -/

/-- `type(value).__name__`. -/
def Value.typeName : Value → PyStr
  | .none => py "NoneType"
  | .bool _ => py "bool"
  | .int _ => py "int"
  | .decimal _ => py "Decimal"
  | .float _ => py "float"
  | .bytes _ => py "bytes"
  | .naive _ | .aware _ => py "datetime"
  | .date _ => py "date"
  | .time _ => py "time"
  | .str _ => py "str"
  | .container (.obj _) => py "dict"
  | .container _ => py "list"
  | .other type => type

/-- `_json_default`. -/
def jsonDefault : Value → Except Exc PyStr
  | .decimal d => .ok d.str
  | .naive d => .ok d.isoformat
  | .aware d => .ok d.isoformat
  | .date d => .ok d.isoformat
  | .time t => .ok t.isoformat
  | .bytes b => .ok (hexText b)
  | value => .error (.typeError [lit "cannot serialize ", .str value.typeName])

/-- The options of `_json`. -/
def DumpsOptions.record : DumpsOptions where
  ensureAscii := false
  itemSeparator := py ", "
  keySeparator := py ": "
  allowNan := false

/-- `_json`. The containers of a row hold JSON values only. -/
def exportJson : Value → Except Exc PyStr
  | .none => dumps .record .null
  | .bool b => dumps .record (.bool b)
  | .int n => dumps .record (.int n)
  | .float x => dumps .record (.float x)
  | .str s => dumps .record (.str s)
  | .container j => dumps .record j
  | value => (jsonDefault value).map (dumpsStr false)

/-- A key of a JSON object, from the name of a column. -/
def exportKey : Json → Except Exc PyStr
  | .str s => .ok (dumpsStr false s)
  | .null => .ok (dumpsStr false (py "null"))
  | .bool b => .ok (dumpsStr false (if b then py "true" else py "false"))
  | .int n => (intStr n).map (dumpsStr false)
  | .float x => (dumpsFloat .record x).map (dumpsStr false)
  | name => .error (.typeError [lit "keys must be str, int, float, bool or None, not ", name])

/-- `_csv_value`. -/
def csvValue : Value → Except Exc Value
  | .none => .ok (.str [])
  | .container j => (exportJson (.container j)).map .str
  | .bool b => (exportJson (.bool b)).map .str
  | .decimal d => (jsonDefault (.decimal d)).map .str
  | .naive d => (jsonDefault (.naive d)).map .str
  | .aware d => (jsonDefault (.aware d)).map .str
  | .date d => (jsonDefault (.date d)).map .str
  | .time t => (jsonDefault (.time t)).map .str
  | .bytes b => (jsonDefault (.bytes b)).map .str
  | value => .ok value

/-! ### Records -/

/-- A field in quotes where it has a separator, a quote or a line break in it. -/
def quoteField (field : PyStr) : PyStr :=
  if field.any fun c => c = ch ',' || c = ch '"' || c = ch '\r' || c = ch '\n' then
    [ch '"'] ++ (field.flatMap fun c => if c = ch '"' then [c, c] else [c]) ++ [ch '"']
  else field

/-- The text of a record of `csv.writer`; one empty field is in quotes, or it would be no field. -/
def csvRecord (fields : List PyStr) : PyStr :=
  (if fields = [[]] then py "\"\"" else join (py ",") (fields.map quoteField)) ++ py "\r\n"

section Formats

variable (str : Value → Except Exc PyStr)

/-- A field of `writerow`; `str` is for the values that are neither text nor numbers. -/
def csvField : Value → Except Exc PyStr
  | .str s => .ok s
  | .none => .ok []
  | .bool b => .ok (if b then py "True" else py "False")
  | .int n => intStr n
  | .float x => .ok x.repr
  | value => str value

/-- `row[name]`. -/
def Row.cell (row : Row) (name : Json) : Except Exc Value :=
  match name.key? with
  | none => .error (.typeError [lit "unhashable type"])
  | some key =>
    match row.lookup key with
    | some value => .ok value
    | none => .error (.keyError [name])

/-- How an export writes its rows. -/
structure Format where
  header : List ColumnMeta → Except Exc (List PyStr)
  record : List ColumnMeta → Row → Except Exc PyStr

/-- `CSVWriter`. -/
def csvFormat : Format where
  header columns := do
    let fields ← columns.mapM fun column => csvField str (.ofJson column.name)
    pure [csvRecord fields]
  record columns row := do
    let values ← columns.mapM fun column => row.cell column.name >>= csvValue
    let fields ← values.mapM (csvField str)
    pure (csvRecord fields)

/-- `write_jsonl`. The keys of a row are the names of its columns. -/
def jsonlFormat : Format where
  header _ := .ok []
  record columns row := do
    let items ← (columns.zip row).mapM fun (column, entry) => do
      let key ← exportKey column.name
      let text ← exportJson entry.2
      pure (key ++ py ": " ++ text)
    pure ([ch '\x7b'] ++ join (py ", ") items ++ [ch '\x7d'] ++ [ch '\n'])

end Formats

/-! ### Exports -/

/-- What an export has written, and the count it returns or the exception that ended it. -/
structure Export where
  written : List PyStr
  result : Except Exc Nat

/-- `for row in rows: write(row); count += 1`. -/
def writeRows (record : Row → Except Exc PyStr) (stopped : Option Exc) :
    List StreamEvent → List PyStr → Nat → Export
  | [], written, count => ⟨written, stopped.elim (.ok count) .error⟩
  | .fetched _ :: events, written, count => writeRows record stopped events written count
  | .yielded row :: events, written, count =>
    match record row with
    | .error e => ⟨written, .error e⟩
    | .ok text => writeRows record stopped events (written ++ [text]) (count + 1)

/-- An export from the reply to the submission on. -/
def exportRows (format : Format) (lib : Builtins) (f : Fetcher)
    (polled : Json → Except Exc StatementResponse) (response : StatementResponse) : Export :=
  match prepareResult polled response with
  | .error e => ⟨[], .error e⟩
  | .ok (columns, handle, body) =>
    match validateColumnNames columns (py "exports") with
    | .error e => ⟨[], .error e⟩
    | .ok () =>
      match format.header columns with
      | .error e => ⟨[], .error e⟩
      | .ok header =>
        let rows := iterResultRows lib f handle body columns
        writeRows (format.record columns) rows.stopped rows.events header 0

/-- `export_csv`. -/
def exportCsv (str : Value → Except Exc PyStr) := exportRows (csvFormat str)

/-- `export_jsonl`. -/
def exportJsonl := exportRows jsonlFormat

/-! ### A result row by row -/

/-- The rows of one partition, or why there are none. -/
def partitionResults (lib : Builtins) (f : Fetcher) (handle : Json) (body : Dict)
    (columns : List ColumnMeta) (i : Nat) : List (Except Exc Row) :=
  match partitionBody f handle body i >>= streamData with
  | .error e => [.error e]
  | .ok data => data.map fun raw => coerceRow lib raw columns

/-- The rows of a result, each as it comes to be. -/
def rowResults (lib : Builtins) (f : Fetcher) (handle : Json) (body : Dict)
    (columns : List ColumnMeta) : List (Except Exc Row) :=
  match partitionCount body with
  | .error e => [.error e]
  | .ok count => (List.range (max 1 count)).flatMap (partitionResults lib f handle body columns)

/-- The rows of a stream, and the exception that ended it. -/
def Stream.results (s : Stream) : List (Except Exc Row) :=
  (yieldedIn s.events).map .ok ++ s.stopped.toList.map .error

theorem results_andThen {first second : Stream} {results later : List (Except Exc Row)}
    (hfirst : first.results = untilError results) (hsecond : second.results = untilError later) :
    (first.andThen second).results = untilError (results ++ later) := by
  obtain ⟨events, stopped⟩ := first
  cases stopped with
  | some e =>
    exact (untilError_append_of_error hfirst.symm later).symm
  | none =>
    have hrows : untilError results = (yieldedIn events).map .ok := by
      rw [← hfirst]
      exact List.append_nil _
    have hevents : Stream.results (Stream.andThen ⟨events, none⟩ second) =
        (yieldedIn (events ++ second.events)).map .ok ++ second.stopped.toList.map .error := rfl
    rw [eq_of_untilError hrows, untilError_append_of_ok, ← hsecond, hevents, yieldedIn_append,
      List.map_append, List.append_assoc]
    rfl

section Results

variable {lib : Builtins} {f : Fetcher} {handle : Json} {body : Dict} {columns : List ColumnMeta}

theorem results_yieldRows (data : List Json) : (yieldRows lib columns data).results =
    untilError (data.map fun raw => coerceRow lib raw columns) := by
  induction data with
  | nil => rfl
  | cons raw data ih =>
    rw [yieldRows, List.map_cons]
    cases hrow : coerceRow lib raw columns with
    | error e => rfl
    | ok row =>
      have hfirst : Stream.results ⟨[.yielded row], none⟩ = untilError [.ok row] := rfl
      exact results_andThen hfirst ih

theorem results_iterPartitions (n index : Nat) :
    (iterPartitions lib f handle columns n (index + 1)).results =
      untilError ((List.range' (index + 1) n).flatMap (partitionResults lib f handle body columns)) := by
  induction n generalizing index with
  | zero => rfl
  | succ n ih =>
    have hfetch : Stream.results ⟨[.fetched (index + 1)], none⟩ = untilError [] := rfl
    rw [iterPartitions, List.range'_succ, List.flatMap_cons]
    refine @results_andThen _ _ [] _ hfetch ?_
    rw [partitionResults, partitionBody]
    cases f.getStatement handle (index + 1) with
    | error e => rfl
    | ok response =>
      show Stream.results (match streamData response.body with | .error e => _ | .ok data => _) =
        untilError ((match streamData response.body with | .error e => _ | .ok data => _) ++ _)
      cases streamData response.body with
      | error e => rfl
      | ok data => exact results_andThen (results_yieldRows data) (ih (index + 1))

/-- **A stream is the rows of the result up to the first error.** -/
theorem results_iterResultRows : (iterResultRows lib f handle body columns).results =
    untilError (rowResults lib f handle body columns) := by
  rw [iterResultRows, rowResults]
  cases partitionCount body with
  | error e => rfl
  | ok count =>
    dsimp only
    rw [range_partitions, List.flatMap_cons, partitionResults]
    show Stream.results (match streamData body with | .error e => _ | .ok data => _) =
      untilError ((match streamData body with | .error e => _ | .ok data => _) ++ _)
    cases streamData body with
    | error e => rfl
    | ok data => exact results_andThen (results_yieldRows data) (results_iterPartitions _ 0)

end Results

/-! ### Whole records -/

section Records

variable {record : Row → Except Exc PyStr}

/-- A row that fails is not written, nor any after it. -/
theorem writeRows_error {rows : Stream} {texts : List PyStr} {e : Exc}
    {later : List (Except Exc PyStr)}
    (h : rows.results.map (fun row => row >>= record) = texts.map .ok ++ .error e :: later)
    (written : List PyStr) (count : Nat) :
    writeRows record rows.stopped rows.events written count = ⟨written ++ texts, .error e⟩ := by
  obtain ⟨events, stopped⟩ := rows
  induction events generalizing texts written count with
  | nil =>
    cases stopped with
    | none => cases texts <;> cases h
    | some e' =>
      cases texts with
      | nil =>
        obtain ⟨he, -⟩ := List.cons.inj h
        cases he
        rw [List.append_nil]
        rfl
      | cons text texts =>
        obtain ⟨he, -⟩ := List.cons.inj h
        cases he
  | cons event events ih =>
    cases event with
    | fetched index => exact ih written count h
    | yielded row =>
      cases texts with
      | nil =>
        obtain ⟨he, -⟩ := List.cons.inj h
        have hrecord : record row = .error e := he
        dsimp only
        rw [writeRows, hrecord, List.append_nil]
      | cons text texts =>
        obtain ⟨htext, hrest⟩ := List.cons.inj h
        have hrecord : record row = .ok text := htext
        have hwrite := ih (written ++ [text]) (count + 1) hrest
        rw [List.append_assoc] at hwrite
        dsimp only
        rw [writeRows, hrecord]
        exact hwrite

theorem writeRows_ok {rows : Stream} {texts : List PyStr}
    (h : rows.results.map (fun row => row >>= record) = texts.map .ok)
    (written : List PyStr) (count : Nat) :
    writeRows record rows.stopped rows.events written count =
      ⟨written ++ texts, .ok (count + texts.length)⟩ := by
  obtain ⟨events, stopped⟩ := rows
  induction events generalizing texts written count with
  | nil =>
    cases stopped with
    | none =>
      cases texts with
      | nil =>
        rw [List.append_nil]
        rfl
      | cons text texts => cases h
    | some e => cases texts <;> cases h
  | cons event events ih =>
    cases event with
    | fetched index => exact ih written count h
    | yielded row =>
      cases texts with
      | nil => cases h
      | cons text texts =>
        obtain ⟨htext, hrest⟩ := List.cons.inj h
        have hrecord : record row = .ok text := htext
        have hwrite := ih (written ++ [text]) (count + 1) hrest
        rw [List.append_assoc, Nat.add_assoc, Nat.add_comm 1] at hwrite
        dsimp only
        rw [writeRows, hrecord]
        exact hwrite

/-- Where every row of these partitions has its record, there are as many as the partitions have
rows. -/
theorem length_partitionResults {lib : Builtins} {f : Fetcher} {handle : Json} {body : Dict}
    {columns : List ColumnMeta} (indices : List Nat) {texts : List PyStr}
    (h : (indices.flatMap (partitionResults lib f handle body columns)).map
      (fun row => row >>= record) = texts.map .ok) :
    ∃ partitions : List (List Json),
      indices.mapM (partitionData f handle body) = .ok (partitions.map Json.arr) ∧
        texts.length = (partitions.map List.length).sum := by
  induction indices generalizing texts with
  | nil =>
    cases texts with
    | nil => exact ⟨[], rfl, rfl⟩
    | cons text texts => cases h
  | cons i indices ih =>
    rw [List.flatMap_cons, List.map_append, partitionResults] at h
    cases hbody : partitionBody f handle body i >>= streamData with
    | error e =>
      rw [hbody] at h
      cases texts <;> cases h
    | ok data =>
      rw [hbody] at h
      obtain ⟨part, hpart, hdata⟩ := bind_eq_ok.mp hbody
      obtain ⟨head, tail, rfl, hhead, htail⟩ := List.map_eq_append_iff.mp h.symm
      obtain ⟨partitions, hpartitions, hlength⟩ := ih htail.symm
      have hfirst : partitionData f handle body i = .ok (.arr data) := by
        rw [partitionData, hpart]
        exact congrArg Except.ok (streamData_eq_ok.mp hdata)
      refine ⟨data :: partitions, mapM_cons_ok hfirst hpartitions, ?_⟩
      have hcounted := congrArg List.length hhead
      rw [List.length_map, List.length_map, List.length_map] at hcounted
      rw [List.length_append, List.map_cons, List.sum_cons, hlength, hcounted]

/-- Where every row has its record, there are as many as the partitions have rows. -/
theorem length_rowResults {lib : Builtins} {f : Fetcher} {handle : Json} {body : Dict}
    {columns : List ColumnMeta} {texts : List PyStr}
    (h : (rowResults lib f handle body columns).map (fun row => row >>= record) = texts.map .ok) :
    ∃ count, ∃ partitions : List (List Json), partitionCount body = .ok count ∧
      (List.range (max 1 count)).mapM (partitionData f handle body) =
        .ok (partitions.map Json.arr) ∧
      texts.length = (partitions.map List.length).sum := by
  rw [rowResults] at h
  cases hcount : partitionCount body with
  | error e =>
    rw [hcount] at h
    cases texts <;> cases h
  | ok count =>
    rw [hcount] at h
    obtain ⟨partitions, hpartitions, hlength⟩ := length_partitionResults _ h
    exact ⟨count, partitions, rfl, hpartitions, hlength⟩

end Records

/-- What an export leaves behind: nothing if column names repeat or the result cannot be prepared, else
its header and the records of the rows before the first that fails, at whatever point. -/
structure WholeRecords (format : Format) (lib : Builtins) (f : Fetcher)
    (polled : Json → Except Exc StatementResponse) (response : StatementResponse) (out : Export) :
    Prop where
  duplicates : ∀ finished metadata entries columns keys,
    finishedResponse polled response = .ok finished →
    resultMetadata finished.body = .ok metadata →
    listOf (metadata.getD (py "rowType") (.arr [])) = .ok entries →
    entries.mapM ColumnMeta.fromRowType = .ok columns →
    columns.mapM (fun c => c.name.key?) = some keys → ¬ keys.Nodup →
      out.written = [] ∧ ∃ e, out.result = .error e ∧
        ∀ names, sortNames (duplicateNames (columns.map (·.name)) keys) = .ok names →
          e.cls = .config
  unprepared : ∀ e, prepareResult polled response = .error e →
    out.written = [] ∧ out.result = .error e
  unnamed : ∀ columns handle body e, prepareResult polled response = .ok (columns, handle, body) →
    format.header columns = .error e → out.written = [] ∧ out.result = .error e
  failed : ∀ columns handle body header texts e later,
    prepareResult polled response = .ok (columns, handle, body) →
    format.header columns = .ok header →
    (rowResults lib f handle body columns).map (fun row => row >>= format.record columns) =
      texts.map .ok ++ .error e :: later →
      out.written = header ++ texts ∧ out.result = .error e
  complete : ∀ columns handle body header texts,
    prepareResult polled response = .ok (columns, handle, body) →
    format.header columns = .ok header →
    (rowResults lib f handle body columns).map (fun row => row >>= format.record columns) =
      texts.map .ok →
      out.written = header ++ texts ∧ out.result = .ok texts.length ∧
      ∃ count, ∃ partitions : List (List Json), partitionCount body = .ok count ∧
        (List.range (max 1 count)).mapM (partitionData f handle body) =
          .ok (partitions.map Json.arr) ∧
        texts.length = (partitions.map List.length).sum

section Exports

variable {format : Format} {lib : Builtins} {f : Fetcher}
  {polled : Json → Except Exc StatementResponse} {response : StatementResponse}

/-- An export of a result that can be had. -/
theorem exportRows_eq {columns : List ColumnMeta} {handle : Json} {body : Dict} {header : List PyStr}
    (hprepared : prepareResult polled response = .ok (columns, handle, body))
    (hheader : format.header columns = .ok header) :
    exportRows format lib f polled response = writeRows (format.record columns)
      (iterResultRows lib f handle body columns).stopped
      (iterResultRows lib f handle body columns).events header 0 := by
  obtain ⟨keys, hkeys, hnodup⟩ := nodup_of_prepareResult hprepared
  rw [exportRows, hprepared]
  dsimp only
  rw [validateColumnNames_of_nodup hkeys hnodup]
  dsimp only
  rw [hheader]

/-- An export of a result with repeated names does not start. -/
theorem exportRows_duplicates {finished : StatementResponse} {metadata : Dict} {entries : List Json}
    {columns : List ColumnMeta} {keys : List Key}
    (hfinished : finishedResponse polled response = .ok finished)
    (hmetadata : resultMetadata finished.body = .ok metadata)
    (hentries : listOf (metadata.getD (py "rowType") (.arr [])) = .ok entries)
    (hcolumns : entries.mapM ColumnMeta.fromRowType = .ok columns)
    (hkeys : columns.mapM (fun c => c.name.key?) = some keys) (hrepeat : ¬ keys.Nodup) :
    (exportRows format lib f polled response).written = [] ∧
      ∃ e, (exportRows format lib f polled response).result = .error e ∧
        ∀ names, sortNames (duplicateNames (columns.map (·.name)) keys) = .ok names →
          e.cls = .config := by
  obtain ⟨e, hvalid, hcls⟩ := validateColumnNames_of_repeat (py "results") hkeys hrepeat
  have hfrom : columnsFrom finished.body = .error e := by
    rw [columnsFrom, hmetadata]
    show (listOf (metadata.getD (py "rowType") (.arr [])) >>= _) = _
    rw [hentries]
    show (entries.mapM ColumnMeta.fromRowType >>= _) = _
    rw [hcolumns]
    show (validateColumnNames columns (py "results") >>= _) = _
    rw [hvalid]
    rfl
  have hprepared : prepareResult polled response = .error e := by
    rw [prepareResult, hfinished]
    show (columnsFrom finished.body >>= _) = _
    rw [hfrom]
    rfl
  rw [exportRows, hprepared]
  exact ⟨rfl, e, rfl, hcls⟩

/-- **An export in any format leaves whole records.** -/
theorem exportRows_wholeRecords :
    WholeRecords format lib f polled response (exportRows format lib f polled response) where
  duplicates _ _ _ _ _ hfinished hmetadata hentries hcolumns hkeys hrepeat :=
    exportRows_duplicates hfinished hmetadata hentries hcolumns hkeys hrepeat
  unprepared e hprepared := by
    rw [exportRows, hprepared]
    exact ⟨rfl, rfl⟩
  unnamed columns handle body e hprepared hheader := by
    obtain ⟨keys, hkeys, hdistinct⟩ := nodup_of_prepareResult hprepared
    rw [exportRows, hprepared]
    dsimp only
    rw [validateColumnNames_of_nodup hkeys hdistinct]
    dsimp only
    rw [hheader]
    exact ⟨rfl, rfl⟩
  failed columns handle body header texts e later hprepared hheader hresults := by
    obtain ⟨later', hstream⟩ := untilError_map_bind hresults
    rw [← results_iterResultRows] at hstream
    rw [exportRows_eq hprepared hheader, writeRows_error hstream]
    exact ⟨rfl, rfl⟩
  complete columns handle body header texts hprepared hheader hresults := by
    have hstream := hresults
    rw [← untilError_eq_self hresults, ← results_iterResultRows] at hstream
    rw [exportRows_eq hprepared hheader, writeRows_ok hstream, Nat.zero_add]
    exact ⟨rfl, rfl, length_rowResults hresults⟩

end Exports

/-- **Exports only ever leave whole records behind**, in both formats. -/
theorem exports_whole_records (str : Value → Except Exc PyStr) (lib : Builtins) (f : Fetcher)
    (polled : Json → Except Exc StatementResponse) (response : StatementResponse) :
    WholeRecords (csvFormat str) lib f polled response (exportCsv str lib f polled response) ∧
      WholeRecords jsonlFormat lib f polled response (exportJsonl lib f polled response) :=
  ⟨exportRows_wholeRecords, exportRows_wholeRecords⟩

/-- A result of two columns with one name. -/
def twinResponse : StatementResponse where
  statusCode := 200
  body :=
    [(py "statementHandle", .str (py "h")),
      (py "resultSetMetaData", .obj [(py "rowType", .arr
        [.obj [(py "name", .str (py "A")), (py "type", .str (py "text"))],
          .obj [(py "name", .str (py "A")), (py "type", .str (py "text"))]])]),
      (py "data", .arr [.arr [.str (py "x"), .str (py "y")]])]

/-- Nothing is written under two columns of one name; where the second partition cannot be read, the
header and the first row are there; and where it can, both rows. -/
theorem exports_whole_records_ends :
    (exportCsv (fun _ => .ok []) sampleBuiltins nullPartition (fun _ => .ok twinResponse)
        twinResponse).written = [] ∧
      ((exportCsv (fun _ => .ok []) sampleBuiltins nullPartition (fun _ => .ok pagedResponse)
          pagedResponse).written = [py "A\r\n", py "x\r\n"] ∧
        ∃ e, (exportCsv (fun _ => .ok []) sampleBuiltins nullPartition (fun _ => .ok pagedResponse)
          pagedResponse).result = .error e) ∧
      (exportJsonl sampleBuiltins secondPartition (fun _ => .ok pagedResponse) pagedResponse).written =
        [py "\x7b\"A\": \"x\"\x7d\n", py "\x7b\"A\": \"y\"\x7d\n"] ∧
      (exportJsonl sampleBuiltins secondPartition (fun _ => .ok pagedResponse) pagedResponse).result =
        .ok 2 := by
  have htwin := (exports_whole_records (fun _ => .ok []) sampleBuiltins nullPartition
    (fun _ => .ok twinResponse) twinResponse).1
  have hcut := (exports_whole_records (fun _ => .ok []) sampleBuiltins nullPartition
    (fun _ => .ok pagedResponse) pagedResponse).1
  have hwhole := (exports_whole_records (fun _ => .ok []) sampleBuiltins secondPartition
    (fun _ => .ok pagedResponse) pagedResponse).2
  refine ⟨(htwin.duplicates _ _ _ _ _ rfl rfl rfl rfl rfl (by decide)).1, ?_, ?_⟩
  · obtain ⟨hwritten, hresult⟩ :=
      hcut.failed _ _ _ [py "A\r\n"] [py "x\r\n"] _ [] rfl rfl rfl
    exact ⟨hwritten, _, hresult⟩
  · obtain ⟨hwritten, hresult, -⟩ := hwhole.complete _ _ _ []
      [py "\x7b\"A\": \"x\"\x7d\n", py "\x7b\"A\": \"y\"\x7d\n"] rfl rfl rfl
    exact ⟨hwritten, hresult⟩

end SnowflakeSqlApi
