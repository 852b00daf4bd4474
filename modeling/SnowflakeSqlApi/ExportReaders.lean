import SnowflakeSqlApi.Exports
import SnowflakeSqlApi.Lib.Csv
import SnowflakeSqlApi.Python.Loads
import SnowflakeSqlApi.Truncation

/-!
# Exports read back

What a reader gets out of the file an export wrote, whether the export finished or failed.

`Ended` says how far an export came: to the end of the result, or to the first row that could not
be had or written.  `exportCsv_reads` is `csv.reader` on the file, which gives the header and the
fields of each row up to there if none is too long for it, and `exportJsonl_reads` is `json.loads` on
each of its lines.
-/

namespace SnowflakeSqlApi

/-! ### How far an export comes -/

/-- The rows written, and the result, of an export of `results`: the record of each of the rows is
made, and there is no other row, or the next one cannot be had or has no record. -/
inductive Ended (record : Row → Except Exc PyStr) :
    List (Except Exc Row) → List Row → Except Exc Nat → Prop
  | complete {rows : List Row} {texts : List PyStr} : rows.mapM record = .ok texts →
      Ended record (rows.map .ok) rows (.ok rows.length)
  | failed {rows : List Row} {texts : List PyStr} {last : Except Exc Row} {e : Exc}
      (later : List (Except Exc Row)) : rows.mapM record = .ok texts → (last >>= record) = .error e →
      Ended record (rows.map .ok ++ last :: later) rows (.error e)

section Ended

variable {record : Row → Except Exc PyStr}

/-- Results are rows with their records up to the first that fails. -/
theorem exists_records (results : List (Except Exc Row)) :
    (∃ (rows : List Row) (texts : List PyStr), results = rows.map .ok ∧
      rows.mapM record = .ok texts) ∨
    ∃ (rows : List Row) (texts : List PyStr) (last : Except Exc Row) (e : Exc)
      (later : List (Except Exc Row)), results = rows.map .ok ++ last :: later ∧
      rows.mapM record = .ok texts ∧ (last >>= record) = .error e := by
  induction results with
  | nil => exact .inl ⟨[], [], rfl, rfl⟩
  | cons result results ih =>
    cases hrecord : result >>= record with
    | error e => exact .inr ⟨[], [], result, e, results, rfl, rfl, hrecord⟩
    | ok text =>
      obtain ⟨row, rfl, htext⟩ := bind_eq_ok.mp hrecord
      rcases ih with ⟨rows, texts, rfl, htexts⟩ | ⟨rows, texts, last, e, later, rfl, htexts, hlast⟩
      · exact .inl ⟨row :: rows, text :: texts, rfl, mapM_cons_ok htext htexts⟩
      · exact .inr ⟨row :: rows, text :: texts, last, e, later, rfl, mapM_cons_ok htext htexts,
          hlast⟩

theorem map_bind_ok {rows : List Row} {texts : List PyStr} (h : rows.mapM record = .ok texts) :
    (rows.map Except.ok).map (fun row => row >>= record) = texts.map .ok := by
  have hall := mapM_eq_ok.mp h
  induction hall with
  | nil => rfl
  | cons hrow _ ih =>
    rw [List.map_cons, List.map_cons, List.map_cons, ih (mapM_eq_ok.mpr ‹_›)]
    exact congrArg (· :: _) hrow

/-- **An export writes its header and the records of some rows**, and ends after these. -/
theorem exportRows_ended {format : Format} {lib : Builtins} {f : Fetcher}
    {polled : Json → Except Exc StatementResponse} {response : StatementResponse}
    {columns : List ColumnMeta} {handle : Json} {body : Dict} {header : List PyStr}
    (hprepared : prepareResult polled response = .ok (columns, handle, body))
    (hheader : format.header columns = .ok header) :
    ∃ rows texts, rows.mapM (format.record columns) = .ok texts ∧
      (exportRows format lib f polled response).written = header ++ texts ∧
      Ended (format.record columns) (rowResults lib f handle body columns) rows
        (exportRows format lib f polled response).result := by
  have hwhole := @exportRows_wholeRecords format lib f polled response
  rcases @exists_records (format.record columns) (rowResults lib f handle body columns) with
    ⟨rows, texts, hresults, htexts⟩ | ⟨rows, texts, last, e, later, hresults, htexts, hlast⟩
  · have hmap := map_bind_ok htexts
    rw [← hresults] at hmap
    obtain ⟨hwritten, hresult, -⟩ :=
      hwhole.complete columns handle body header texts hprepared hheader hmap
    refine ⟨rows, texts, htexts, hwritten, ?_⟩
    rw [hresult, hresults, ← (mapM_eq_ok.mp htexts).length_eq]
    exact .complete htexts
  · have hmap : (rowResults lib f handle body columns).map (fun row => row >>= format.record columns) =
        texts.map .ok ++ .error e :: later.map fun row => row >>= format.record columns := by
      rw [hresults, List.map_append, map_bind_ok htexts, List.map_cons, hlast]
    obtain ⟨hwritten, hresult⟩ :=
      hwhole.failed columns handle body header texts e _ hprepared hheader hmap
    refine ⟨rows, texts, htexts, hwritten, ?_⟩
    rw [hresult, hresults]
    exact .failed later htexts hlast

theorem Ended.rows {results : List (Except Exc Row)} {rows : List Row} {result : Except Exc Nat}
    (h : Ended record results rows result) : ∃ later, results = rows.map .ok ++ later := by
  cases h with
  | complete _ => exact ⟨[], (List.append_nil _).symm⟩
  | failed later _ _ => exact ⟨_, rfl⟩

theorem Ended.mem {results : List (Except Exc Row)} {rows : List Row} {result : Except Exc Nat}
    (h : Ended record results rows result) : ∀ row ∈ rows, .ok row ∈ results := by
  intro row hrow
  obtain ⟨later, hlater⟩ := h.rows
  rw [hlater]
  exact List.mem_append_left _ (List.mem_map_of_mem hrow)

end Ended

/-! ### A complete export is the query -/

section Complete

variable {lib : Builtins} {f : Fetcher} {polled : Json → Except Exc StatementResponse}
  {response : StatementResponse} {columns : List ColumnMeta} {handle : Json} {body : Dict}

/-- The rows of some partitions, where a stream can have them all. -/
theorem mapM_partitionResults {indices : List Nat} {rows : List Row}
    (h : indices.flatMap (partitionResults lib f handle body columns) = rows.map .ok) :
    ∃ chunks, indices.mapM (fun i => partitionBody f handle body i >>= queriedRows lib columns) =
      .ok chunks ∧ rows = chunks.flatten := by
  induction indices generalizing rows with
  | nil =>
    cases rows with
    | nil => exact ⟨[], rfl, rfl⟩
    | cons row rows => cases h
  | cons i indices ih =>
    rw [List.flatMap_cons] at h
    obtain ⟨head, tail, rfl, hhead, htail⟩ := List.map_eq_append_iff.mp h.symm
    obtain ⟨chunks, hchunks, rfl⟩ := ih htail.symm
    rw [partitionResults] at hhead
    cases hdata : partitionBody f handle body i >>= streamData with
    | error e =>
      rw [hdata] at hhead
      cases head <;> cases hhead
    | ok data =>
      rw [hdata] at hhead
      obtain ⟨part, hpart, hstream⟩ := bind_eq_ok.mp hdata
      have hrows : coerceRows lib data columns = .ok head := by
        have hforall : List.Forall₂ (fun raw row => coerceRow lib raw columns = .ok row) data head := by
          have heq : data.map (fun raw => coerceRow lib raw columns) = head.map .ok := hhead.symm
          rw [← List.forall₂_eq_eq_eq, List.forall₂_map_left_iff, List.forall₂_map_right_iff] at heq
          exact heq
        exact mapM_eq_ok.mpr hforall
      refine ⟨head :: chunks, mapM_cons_ok ?_ hchunks, rfl⟩
      rw [hpart]
      show queriedRows lib columns part = _
      rw [queriedRows_of_arr (streamData_eq_ok.mp hstream), hrows]

/-- **Where a stream has every row, so has a query.** -/
theorem query_of_rowResults
    (hprepared : prepareResult polled response = .ok (columns, handle, body)) {rows : List Row}
    (h : rowResults lib f handle body columns = rows.map .ok) :
    query lib f polled response = .ok rows := by
  rw [rowResults] at h
  cases hcount : partitionCount body with
  | error e =>
    rw [hcount] at h
    cases rows <;> cases h
  | ok count =>
    rw [hcount] at h
    exact (query_eq_ok hprepared hcount).mpr (mapM_partitionResults h)

/-- What a finished export returns, and the rows it wrote. -/
theorem Ended.query {record : Row → Except Exc PyStr} {rows : List Row} {result : Except Exc Nat}
    (h : Ended record (rowResults lib f handle body columns) rows result)
    (hprepared : prepareResult polled response = .ok (columns, handle, body)) {n : Nat}
    (hn : result = .ok n) : n = rows.length ∧ query lib f polled response = .ok rows := by
  generalize hresults : rowResults lib f handle body columns = results at h
  cases h with
  | complete _ =>
    cases hn
    exact ⟨rfl, query_of_rowResults hprepared hresults⟩
  | failed _ _ _ => cases hn

end Complete

/-! ### CSV -/

theorem excel_apart : [ch ',', ch '"', ch '\r', ch '\n'].Nodup := by decide

/-- The dialect of `csv.reader`. -/
def excel : Csv.Dialect PyChar where
  delimiter := ch ','
  quote := ch '"'
  cr := ch '\r'
  lf := ch '\n'
  apart := excel_apart

theorem fieldText_quoteField (field : PyStr) : Csv.FieldText excel field (quoteField field) := by
  rw [quoteField]
  by_cases hany : (field.any fun c => c = ch ',' || c = ch '"' || c = ch '\r' || c = ch '\n') = true
  · rw [if_pos hany]
    exact .quoted field
  · rw [if_neg hany]
    refine .plain fun c hc => ?_
    have hnot : (decide (c = ch ',') || decide (c = ch '"') || decide (c = ch '\r') ||
        decide (c = ch '\n')) = false := by
      rw [← Bool.not_eq_true]
      exact fun h => hany (List.any_eq_true.mpr ⟨c, hc, h⟩)
    simp only [Bool.or_eq_false_iff, decide_eq_false_iff_not] at hnot
    exact ⟨hnot.1.1.1, hnot.1.1.2, fun h => h.elim hnot.1.2 hnot.2⟩

/-- **A record of `csv.writer` is a line that a reader takes for that record.** -/
theorem recordText_csvRecord (fields : List PyStr) :
    ∃ line, csvRecord fields = line ++ [ch '\r', ch '\n'] ∧ Csv.RecordText excel fields line := by
  have hfields : List.Forall₂ (Csv.FieldText excel) fields (fields.map quoteField) := by
    rw [List.forall₂_map_right_iff]
    exact List.forall₂_same.mpr fun field _ => fieldText_quoteField field
  refine ⟨_, rfl, ?_⟩
  by_cases hempty : fields = [[]]
  · rw [if_pos hempty, hempty]
    have hquoted : List.Forall₂ (Csv.FieldText excel) [[]] [[ch '"', ch '"']] :=
      .cons (.quoted []) .nil
    exact Csv.RecordText.fields hquoted (List.cons_ne_nil _ _)
  · rw [if_neg hempty]
    by_cases hnil : fields = []
    · rw [hnil]
      exact .empty
    · refine .fields hfields fun hjoin => ?_
      rcases fields with _ | ⟨field, _ | ⟨field', fields⟩⟩
      · exact hnil rfl
      · rw [List.map_cons, List.map_nil, List.intercalate_singleton] at hjoin
        refine hempty ?_
        rw [quoteField] at hjoin
        split at hjoin
        · cases hjoin
        · rw [hjoin]
      · rw [List.map_cons, List.map_cons, List.intercalate_cons_cons] at hjoin
        exact absurd (List.append_eq_nil_iff.mp (List.append_eq_nil_iff.mp hjoin).1).2
          (List.cons_ne_nil _ _)

/-- `csv.reader` on what `csv.writer` wrote. -/
theorem parse_csvRecords (records : List (List PyStr)) :
    Csv.parse excel (records.map csvRecord).flatten = records := by
  have hlines : ∃ lines, List.Forall₂ (Csv.RecordText excel) records lines ∧
      (records.map csvRecord).flatten = lines.flatMap (· ++ [ch '\r', ch '\n']) := by
    induction records with
    | nil => exact ⟨[], .nil, rfl⟩
    | cons fields records ih =>
      obtain ⟨lines, hlines, htext⟩ := ih
      obtain ⟨line, hrecord, hline⟩ := recordText_csvRecord fields
      refine ⟨line :: lines, .cons hline hlines, ?_⟩
      rw [List.map_cons, List.flatten_cons, htext, hrecord, List.flatMap_cons]
  obtain ⟨lines, hlines, htext⟩ := hlines
  rw [htext]
  exact Csv.parse_lines excel hlines

section Csv

variable (str : Value → Except Exc PyStr)

/-- The fields of a row, under its columns. -/
def csvFields (columns : List ColumnMeta) (row : Row) : Except Exc (List PyStr) := do
  let values ← columns.mapM fun column => row.cell column.name >>= csvValue
  values.mapM (csvField str)

variable {str}

theorem csvFormat_record {columns : List ColumnMeta} {row : Row} {text : PyStr}
    (h : (csvFormat str).record columns row = .ok text) :
    ∃ fields, csvFields str columns row = .ok fields ∧ text = csvRecord fields := by
  obtain ⟨values, hvalues, h⟩ := bind_eq_ok.mp h
  obtain ⟨fields, hfields, h⟩ := bind_eq_ok.mp h
  cases h
  exact ⟨fields, bind_eq_ok.mpr ⟨values, hvalues, hfields⟩, rfl⟩

theorem csvFormat_records {columns : List ColumnMeta} {rows : List Row} {texts : List PyStr}
    (h : rows.mapM ((csvFormat str).record columns) = .ok texts) :
    ∃ table, rows.mapM (csvFields str columns) = .ok table ∧ texts = table.map csvRecord := by
  have hall := mapM_eq_ok.mp h
  clear h
  induction hall with
  | nil => exact ⟨[], rfl, rfl⟩
  | cons hrow _ ih =>
    obtain ⟨table, htable, rfl⟩ := ih
    obtain ⟨fields, hfields, rfl⟩ := csvFormat_record hrow
    exact ⟨fields :: table, mapM_cons_ok hfields htable, rfl⟩

/-- The rows of a CSV export, and what is read from it. -/
theorem exportCsv_rows {lib : Builtins} {f : Fetcher}
    {polled : Json → Except Exc StatementResponse} {response : StatementResponse}
    {columns : List ColumnMeta} {handle : Json} {body : Dict} {names : List PyStr}
    (hprepared : prepareResult polled response = .ok (columns, handle, body))
    (hnames : columns.mapM (fun column => csvField str (.ofJson column.name)) = .ok names) :
    ∃ rows table, rows.mapM (csvFields str columns) = .ok table ∧
      Csv.parse excel (exportCsv str lib f polled response).written.flatten = names :: table ∧
      Ended ((csvFormat str).record columns) (rowResults lib f handle body columns) rows
        (exportCsv str lib f polled response).result := by
  have hheader : (csvFormat str).header columns = .ok [csvRecord names] :=
    bind_eq_ok.mpr ⟨names, hnames, rfl⟩
  obtain ⟨rows, texts, htexts, hwritten, hended⟩ := exportRows_ended hprepared hheader
  obtain ⟨table, htable, rfl⟩ := csvFormat_records htexts
  refine ⟨rows, table, htable, ?_, hended⟩
  have htext : (exportCsv str lib f polled response).written = (names :: table).map csvRecord :=
    hwritten
  rw [htext]
  exact parse_csvRecords (names :: table)

/-- **A CSV export is read back**, finished or not: `csv.reader` gives the names of the columns, and
then the fields of every row up to the end, or to the first that failed, unless one of these is longer
than the reader's limit. A finished export holds the rows of the query, and returns how many there
are; an export that has no columns to name has written nothing. -/
theorem exportCsv_reads (lib : Builtins) (f : Fetcher)
    (polled : Json → Except Exc StatementResponse) (response : StatementResponse) (limit : Nat) :
    (∀ e, prepareResult polled response = .error e →
      (exportCsv str lib f polled response).written = [] ∧
        (exportCsv str lib f polled response).result = .error e) ∧
    ∀ columns handle body, prepareResult polled response = .ok (columns, handle, body) →
      (∀ e, columns.mapM (fun column => csvField str (.ofJson column.name)) = .error e →
        (exportCsv str lib f polled response).written = [] ∧
          (exportCsv str lib f polled response).result = .error e) ∧
      ∀ names, columns.mapM (fun column => csvField str (.ofJson column.name)) = .ok names →
        ∃ rows table, rows.mapM (csvFields str columns) = .ok table ∧
          Csv.read excel limit (exportCsv str lib f polled response).written.flatten =
            (if ∀ record ∈ names :: table, ∀ field ∈ record, field.length ≤ limit then
              some (names :: table)
            else none) ∧
          Ended ((csvFormat str).record columns) (rowResults lib f handle body columns) rows
            (exportCsv str lib f polled response).result ∧
          ∀ n, (exportCsv str lib f polled response).result = .ok n →
            n = rows.length ∧ query lib f polled response = .ok rows := by
  have hwhole := @exportRows_wholeRecords (csvFormat str) lib f polled response
  refine ⟨hwhole.unprepared, fun columns handle body hprepared =>
    ⟨fun e hnames => ?_, fun names hnames => ?_⟩⟩
  · exact hwhole.unnamed columns handle body e hprepared (bind_eq_error.mpr (.inl hnames))
  obtain ⟨rows, table, htable, hread, hended⟩ := @exportCsv_rows _ lib f _ _ _ _ _ _ hprepared hnames
  exact ⟨rows, table, htable, Csv.read_of_parse excel hread, hended,
    fun n hn => hended.query hprepared hn⟩

/-- The export that loses its second partition: what it left is a header and a whole row, which a
reader with the usual limit accepts where the row is no longer than that. -/
theorem exportCsv_reads_nullPartition : ∃ (rows : List Row) (table : List (List PyStr)),
    rows.mapM (csvFields (fun _ => .ok []) [⟨.str (py "A"), some (py "text"), .null, .null, true⟩]) =
      .ok table ∧
    Csv.read excel 131072 (exportCsv (fun _ => .ok []) sampleBuiltins nullPartition
      (fun _ => .ok pagedResponse) pagedResponse).written.flatten =
        if ∀ record ∈ [py "A"] :: table, ∀ field ∈ record, field.length ≤ 131072 then
          some ([py "A"] :: table)
        else none := by
  have hprepared : prepareResult (fun _ => .ok pagedResponse) pagedResponse =
      .ok ([⟨.str (py "A"), some (py "text"), .null, .null, true⟩], .str (py "h"),
        pagedResponse.body) := rfl
  have hnames : [(⟨.str (py "A"), some (py "text"), .null, .null, true⟩ : ColumnMeta)].mapM
      (fun column => csvField (fun _ => .ok []) (.ofJson column.name)) = .ok [py "A"] := rfl
  obtain ⟨rows, table, htable, hread, -⟩ :=
    ((exportCsv_reads sampleBuiltins nullPartition _ _ 131072).2 _ _ _ hprepared).2 _ hnames
  exact ⟨rows, table, htable, hread⟩

end Csv

/-! ### JSON lines -/

/-- The lines of a file, each with its line break. -/
def fileLines : PyStr → List PyStr
  | [] => []
  | c :: cs =>
    if c = ch '\n' then [c] :: fileLines cs
    else
      match fileLines cs with
      | [] => [[c]]
      | line :: lines => (c :: line) :: lines

theorem fileLines_append {line : PyStr} (h : ch '\n' ∉ line) (rest : PyStr) :
    fileLines (line ++ ch '\n' :: rest) = (line ++ [ch '\n']) :: fileLines rest := by
  induction line with
  | nil => exact if_pos rfl
  | cons c line ih =>
    rw [List.mem_cons, not_or] at h
    rw [List.cons_append, fileLines, if_neg (Ne.symm h.1), ih h.2]
    rfl

/-- **The lines of a file are the lines written.** -/
theorem fileLines_lines {lines : List PyStr} (h : ∀ line ∈ lines, ch '\n' ∉ line) :
    fileLines (lines.map (· ++ [ch '\n'])).flatten = lines.map (· ++ [ch '\n']) := by
  induction lines with
  | nil => rfl
  | cons line lines ih =>
    rw [List.map_cons, List.flatten_cons, List.append_assoc, List.singleton_append,
      fileLines_append (h line List.mem_cons_self),
      ih fun other hother => h other (List.mem_cons_of_mem _ hother)]

theorem DumpsOptions.spaced_record : DumpsOptions.record.Spaced where
  item := ⟨[ch ' '], rfl, blank_space⟩
  key := ⟨[ch ' '], rfl, blank_space⟩

theorem blank_newline : Blank [ch '\n'] := by
  intro c hc
  rw [List.mem_singleton.mp hc]
  rfl

/-- `json.loads` on each line of a file. -/
def readLines (float : PyStr → PyFloat) (text : PyStr) : Option (List Json) :=
  (fileLines text).mapM (loads float)

/-- The JSON value that a cell is written as. -/
def exportImage : Value → Except Exc Json
  | .none => .ok .null
  | .bool b => .ok (.bool b)
  | .int n => .ok (.int n)
  | .float x => .ok (.float x)
  | .str s => .ok (.str s)
  | .container j => .ok j
  | value => (jsonDefault value).map .str

theorem exportJson_eq (value : Value) : exportJson value = exportImage value >>= dumps .record := by
  cases value <;> rfl

/-- The object that a row is written as: under the name of each column its cell. -/
def rowObject (names : List PyStr) (row : Row) : Except Exc Dict :=
  names.mapM fun name => do
    let value ← row.cell (.str name)
    let image ← exportImage value
    pure (name, image)

/-- The containers of a row are what `json.loads` gives, and its floats are read back. -/
def Row.Loads (float : PyStr → PyFloat) (row : Row) : Prop :=
  ∀ entry ∈ row, ∀ image, exportImage entry.2 = .ok image → Loadable float false image

section Jsonl

/-- The items of a record are those of an object. -/
theorem items_record {columns : List ColumnMeta} {names : List PyStr} {row : Row}
    (hnames : columns.map ColumnMeta.name = names.map .str) (hkeys : row.map Prod.fst = names.map .str)
    {items : List PyStr}
    (h : (columns.zip row).mapM (fun (column, entry) => do
      let key ← exportKey column.name
      let text ← exportJson entry.2
      pure (key ++ py ": " ++ text)) = .ok items) :
    ∃ object : Dict, object.map Prod.fst = names ∧ dumpsItems .record object = .ok items ∧
      List.Forall₂ (fun entry kv => entry.1 = .str kv.1 ∧ exportImage entry.2 = .ok kv.2)
        row object := by
  induction names generalizing columns row items with
  | nil =>
    obtain rfl := List.map_eq_nil_iff.mp hnames
    obtain rfl := List.map_eq_nil_iff.mp hkeys
    cases h
    exact ⟨[], rfl, rfl, .nil⟩
  | cons name names ih =>
    obtain ⟨column, columns, rfl, hname, hnames⟩ := List.map_eq_cons_iff.mp hnames
    obtain ⟨entry, row, rfl, hkey, hkeys⟩ := List.map_eq_cons_iff.mp hkeys
    rw [List.zip_cons_cons, List.mapM_cons] at h
    obtain ⟨item, hitem, h⟩ := bind_eq_ok.mp h
    obtain ⟨rest, hrest, h⟩ := bind_eq_ok.mp h
    cases h
    obtain ⟨object, hobject, hdumps, hall⟩ := ih hnames hkeys hrest
    dsimp only at hitem
    rw [hname] at hitem
    obtain ⟨key, hkeyText, hitem⟩ := bind_eq_ok.mp hitem
    obtain ⟨text, htext, hitem⟩ := bind_eq_ok.mp hitem
    cases hkeyText
    cases hitem
    rw [exportJson_eq] at htext
    obtain ⟨image, himage, htext⟩ := bind_eq_ok.mp htext
    refine ⟨(name, image) :: object, congrArg (name :: ·) hobject, ?_, .cons ⟨hkey, himage⟩ hall⟩
    rw [dumpsItems, htext, hdumps]
    rfl

/-- A cell under a name of text. -/
theorem cell_str (row : Row) (name : PyStr) : row.cell (.str name) =
    (row.lookup (.str name)).elim (.error (.keyError [.str name])) .ok := by
  rw [Row.cell, Json.key?]
  dsimp only
  cases row.lookup (.str name) <;> rfl

theorem rowObject_eq {names : List PyStr} (hnodup : names.Nodup) {row : Row} {object : Dict}
    (hkeys : row.map Prod.fst = names.map .str) (hobject : object.map Prod.fst = names)
    (h : List.Forall₂ (fun entry kv => entry.1 = .str kv.1 ∧ exportImage entry.2 = .ok kv.2)
      row object) : rowObject names row = .ok object := by
  have hrow : (row.map Prod.fst).Nodup := by
    rw [hkeys]
    exact hnodup.map fun s t hst => Key.str.inj hst
  have hcells : ∀ kv ∈ object, ∃ entry ∈ row, entry.1 = .str kv.1 ∧ exportImage entry.2 = .ok kv.2 := by
    intro kv hkv
    obtain ⟨i, hi, rfl⟩ := List.mem_iff_getElem.mp hkv
    have hlt : i < row.length := h.length_eq ▸ hi
    exact ⟨row[i], List.getElem_mem hlt, h.get hlt hi⟩
  rw [rowObject, ← hobject, List.mapM_map, mapM_eq_ok]
  refine List.forall₂_same.mpr fun kv hkv => ?_
  obtain ⟨entry, hentry, hkey, himage⟩ := hcells kv hkv
  have hlookup := lookup_of_nodup hrow hentry
  have hcell : row.cell (.str kv.1) = .ok entry.2 := by
    rw [cell_str, ← hkey, hlookup, Option.elim_some]
  show (row.cell (.str kv.1) >>= _) = _
  rw [hcell]
  show (exportImage entry.2 >>= _) = _
  rw [himage]
  rfl

/-- **A record is the text of an object**, on a line of its own. -/
theorem jsonlFormat_record {columns : List ColumnMeta} {names : List PyStr} (hnodup : names.Nodup)
    (hnames : columns.map ColumnMeta.name = names.map .str) {row : Row}
    (hkeys : row.map Prod.fst = names.map .str) {text : PyStr}
    (h : jsonlFormat.record columns row = .ok text) :
    ∃ object line, rowObject names row = .ok object ∧ dumps .record (.obj object) = .ok line ∧
      text = line ++ [ch '\n'] := by
  obtain ⟨items, hitems, h⟩ := bind_eq_ok.mp h
  cases h
  obtain ⟨object, hobject, hdumps, hall⟩ := items_record hnames hkeys hitems
  refine ⟨object, _, rowObject_eq hnodup hkeys hobject hall, ?_, rfl⟩
  rw [dumps, hdumps]
  rfl

/-- Text names are distinct as keys. -/
theorem keys_of_names {columns : List ColumnMeta} {names : List PyStr} {keys : List Key}
    (hnames : columns.map ColumnMeta.name = names.map .str)
    (hkeys : columns.mapM (fun c => c.name.key?) = some keys) : keys = names.map .str := by
  induction names generalizing columns keys with
  | nil =>
    obtain rfl := List.map_eq_nil_iff.mp hnames
    cases hkeys
    rfl
  | cons name names ih =>
    obtain ⟨column, columns, rfl, hname, hnames⟩ := List.map_eq_cons_iff.mp hnames
    rw [List.mapM_cons, hname] at hkeys
    obtain ⟨key, hkey, hkeys⟩ := Option.bind_eq_some_iff.mp hkeys
    obtain ⟨rest, hrest, hkeys⟩ := Option.bind_eq_some_iff.mp hkeys
    cases hkey
    cases hkeys
    rw [ih hnames hrest]
    rfl

variable {lib : Builtins} {f : Fetcher} {handle : Json} {body : Dict} {columns : List ColumnMeta}

/-- Every row of a result was coerced. -/
theorem coerced_of_rowResults {row : Row}
    (h : Except.ok row ∈ rowResults lib f handle body columns) :
    ∃ raw, coerceRow lib raw columns = .ok row := by
  rw [rowResults] at h
  cases hcount : partitionCount body with
  | error e =>
    rw [hcount] at h
    cases List.mem_singleton.mp h
  | ok count =>
    rw [hcount] at h
    obtain ⟨i, -, hi⟩ := List.mem_flatMap.mp h
    rw [partitionResults] at hi
    cases hdata : partitionBody f handle body i >>= streamData with
    | error e =>
      rw [hdata] at hi
      cases List.mem_singleton.mp hi
    | ok data =>
      rw [hdata] at hi
      obtain ⟨raw, -, hraw⟩ := List.mem_map.mp hi
      exact ⟨raw, hraw⟩

variable {float : PyStr → PyFloat}

theorem mem_of_cell {row : Row} {name : PyStr} {value : Value}
    (h : row.cell (.str name) = .ok value) : ∃ entry ∈ row, entry.2 = value := by
  rw [cell_str] at h
  cases hlookup : row.lookup (.str name) with
  | none =>
    rw [hlookup] at h
    cases h
  | some found =>
    rw [hlookup] at h
    cases h
    obtain ⟨before, after, rfl, -⟩ := List.lookup_eq_some_iff.mp hlookup
    exact ⟨_, List.mem_append_right _ List.mem_cons_self, rfl⟩

/-- The object of a row is read back. -/
theorem loadable_rowObject {e : Bool} {names : List PyStr} (hnodup : names.Nodup)
    (hnames : ∀ name ∈ names, Readable e name) {row : Row} {object : Dict}
    (hrow : ∀ entry ∈ row, ∀ image, exportImage entry.2 = .ok image → Loadable float e image)
    (h : rowObject names row = .ok object) : Loadable float e (.obj object) := by
  have hall := mapM_eq_ok.mp h
  have hkeys : object.map Prod.fst = names := by
    clear h hnodup hnames
    induction hall with
    | nil => rfl
    | cons hitem _ ih =>
      obtain ⟨value, -, hitem⟩ := bind_eq_ok.mp hitem
      obtain ⟨image, -, hitem⟩ := bind_eq_ok.mp hitem
      cases hitem
      rw [List.map_cons, ih]
  refine .obj (hkeys ▸ hnodup) (fun kv hkv => hnames kv.1 (hkeys ▸ List.mem_map_of_mem hkv))
    fun kv hkv => ?_
  obtain ⟨i, hi, rfl⟩ := List.mem_iff_getElem.mp hkv
  have hitem := hall.get (hall.length_eq ▸ hi) hi
  obtain ⟨value, hvalue, hitem⟩ := bind_eq_ok.mp hitem
  obtain ⟨image, himage, hitem⟩ := bind_eq_ok.mp hitem
  have hsnd : object[i].2 = image := congrArg Prod.snd (Except.ok.inj hitem).symm
  obtain ⟨entry, hentry, rfl⟩ := mem_of_cell hvalue
  show Loadable float e (object[i].2)
  rw [hsnd]
  exact hrow entry hentry image himage

/-- The records of some rows are lines that are read as their objects. -/
theorem jsonlFormat_records {names : List PyStr} (hnodup : names.Nodup)
    (hnames : columns.map ColumnMeta.name = names.map .str) {rows : List Row}
    (hkeys : ∀ row ∈ rows, row.map Prod.fst = names.map .str) (hrows : ∀ row ∈ rows, row.Loads float)
    {texts : List PyStr} (h : rows.mapM (jsonlFormat.record columns) = .ok texts) :
    ∃ (objects : List Dict) (lines : List PyStr), rows.mapM (rowObject names) = .ok objects ∧
      lines.mapM (fun line => loads float (line ++ [ch '\n'])) = some (objects.map .obj) ∧
      texts = lines.map (· ++ [ch '\n']) ∧ ∀ line ∈ lines, ch '\n' ∉ line := by
  have hall := mapM_eq_ok.mp h
  clear h
  induction hall with
  | nil => exact ⟨[], [], rfl, rfl, rfl, fun _ hline => nomatch hline⟩
  | @cons row text rows texts hrow _ ih =>
    obtain ⟨objects, lines, hobjects, hlines, rfl, hprintable⟩ :=
      ih (fun r hr => hkeys r (List.mem_cons_of_mem _ hr)) fun r hr => hrows r (List.mem_cons_of_mem _ hr)
    obtain ⟨object, line, hobject, hline, rfl⟩ :=
      jsonlFormat_record hnodup hnames (hkeys row List.mem_cons_self) hrow
    have hload := loadable_rowObject hnodup (fun name _ => readable_false name)
      (hrows row List.mem_cons_self) hobject
    have hread : loads float (line ++ [ch '\n']) = some (.obj object) :=
      loads_text (text_dumps DumpsOptions.spaced_record hload hline) blank_nil blank_newline
    have hnewline : ch '\n' ∉ line :=
      (printable_dumps (by decide) (by decide) hload hline).newline
    refine ⟨object :: objects, line :: lines, mapM_cons_ok hobject hobjects, ?_, rfl,
      List.forall_mem_cons.mpr ⟨hnewline, hprintable⟩⟩
    rw [List.mapM_cons, hread, hlines]
    rfl

/-- The rows of a JSON Lines export, and what is read from it. -/
theorem exportJsonl_rows {polled : Json → Except Exc StatementResponse}
    {response : StatementResponse} {names : List PyStr}
    (hprepared : prepareResult polled response = .ok (columns, handle, body))
    (hnames : columns.map ColumnMeta.name = names.map .str)
    (hrows : ∀ row, .ok row ∈ rowResults lib f handle body columns → row.Loads float) :
    ∃ rows objects, rows.mapM (rowObject names) = .ok objects ∧
      readLines float (exportJsonl lib f polled response).written.flatten =
        some (objects.map .obj) ∧
      Ended (jsonlFormat.record columns) (rowResults lib f handle body columns) rows
        (exportJsonl lib f polled response).result := by
  obtain ⟨keys, hkeys, hdistinct⟩ := nodup_of_prepareResult hprepared
  have hnodup : names.Nodup := by
    rw [keys_of_names hnames hkeys] at hdistinct
    exact hdistinct.of_map _
  have hheader : jsonlFormat.header columns = .ok [] := rfl
  obtain ⟨rows, texts, htexts, hwritten, hended⟩ := @exportRows_ended _ lib f _ _ _ _ _ _ hprepared hheader
  have hmem := hended.mem
  have hrowKeys : ∀ row ∈ rows, row.map Prod.fst = names.map .str := by
    intro row hrow
    obtain ⟨raw, hraw⟩ := coerced_of_rowResults (hmem row hrow)
    rw [coerceRow_keys hkeys hdistinct hraw]
    exact keys_of_names hnames hkeys
  obtain ⟨objects, lines, hobjects, hlines, rfl, hprintable⟩ :=
    jsonlFormat_records hnodup hnames hrowKeys (fun row hrow => hrows row (hmem row hrow)) htexts
  refine ⟨rows, objects, hobjects, ?_, hended⟩
  have htext : (exportJsonl lib f polled response).written = lines.map (· ++ [ch '\n']) := hwritten
  rw [htext, readLines, fileLines_lines hprintable, List.mapM_map]
  exact hlines

/-- **A JSON Lines export is read back**, finished or not: each line is the object of one row, with
every cell under the name of its column, up to the end or to the first row that failed. -/
theorem exportJsonl_reads {polled : Json → Except Exc StatementResponse}
    {response : StatementResponse} {names : List PyStr}
    (hprepared : prepareResult polled response = .ok (columns, handle, body))
    (hnames : columns.map ColumnMeta.name = names.map .str)
    (hrows : ∀ row, .ok row ∈ rowResults lib f handle body columns → row.Loads float) :
    ∃ rows objects, rows.mapM (rowObject names) = .ok objects ∧
      readLines float (exportJsonl lib f polled response).written.flatten =
        some (objects.map .obj) ∧
      Ended (jsonlFormat.record columns) (rowResults lib f handle body columns) rows
        (exportJsonl lib f polled response).result ∧
      ∀ n, (exportJsonl lib f polled response).result = .ok n →
        n = rows.length ∧ query lib f polled response = .ok rows := by
  obtain ⟨rows, objects, hobjects, hread, hended⟩ := exportJsonl_rows hprepared hnames hrows
  exact ⟨rows, objects, hobjects, hread, hended, fun n hn => hended.query hprepared hn⟩

theorem loads_sampleRow (float : PyStr → PyFloat) (text : PyStr) : (sampleRow text).Loads float := by
  intro entry hentry image himage
  rw [List.mem_singleton.mp hentry] at himage
  cases himage
  exact .str (readable_false text)

theorem exportJsonl_reads_paged : ∃ (rows : List Row) (objects : List Dict),
    rows.mapM (rowObject [py "A"]) = .ok objects ∧
    readLines .nonFinite (exportJsonl sampleBuiltins secondPartition
      (fun _ => .ok pagedResponse) pagedResponse).written.flatten = some (objects.map .obj) := by
  have hprepared : prepareResult (fun _ => .ok pagedResponse) pagedResponse =
      .ok ([⟨.str (py "A"), some (py "text"), .null, .null, true⟩], .str (py "h"),
        pagedResponse.body) := rfl
  have hresults : rowResults sampleBuiltins secondPartition (.str (py "h")) pagedResponse.body
      [⟨.str (py "A"), some (py "text"), .null, .null, true⟩] =
      [.ok (sampleRow (py "x")), .ok (sampleRow (py "y"))] := rfl
  have hrows : ∀ row, .ok row ∈ rowResults sampleBuiltins secondPartition (.str (py "h"))
      pagedResponse.body [⟨.str (py "A"), some (py "text"), .null, .null, true⟩] →
      row.Loads .nonFinite := by
    intro row hrow
    rw [hresults] at hrow
    simp only [List.mem_cons, Except.ok.injEq, List.not_mem_nil, or_false] at hrow
    rcases hrow with rfl | rfl <;> exact loads_sampleRow _ _
  have hnames : [(⟨.str (py "A"), some (py "text"), .null, .null, true⟩ : ColumnMeta)].map
      ColumnMeta.name = [py "A"].map .str := rfl
  obtain ⟨rows, objects, hobjects, hread, -⟩ := exportJsonl_reads hprepared hnames hrows
  exact ⟨rows, objects, hobjects, hread⟩

end Jsonl

end SnowflakeSqlApi
