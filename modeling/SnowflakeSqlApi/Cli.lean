import SnowflakeSqlApi.Configuration
import SnowflakeSqlApi.ExportReaders
import SnowflakeSqlApi.Python.Pretty

/-!
# The command line

`cli.py`: `query` prints the rows of one statement as JSON, or the message of a library error on
the other stream, and the exit code says which.

`main_reads` is what a caller of the command can rely on.  On exit code 0 the standard output is
ASCII whatever the rows hold, and `json.loads` of it gives back an object for each row of the
query, so that the rows of a result always have a JSON form (`exists_image`).  On exit code 1
nothing is there to be taken for a result.
-/

namespace SnowflakeSqlApi

/-! ### The command -/

/-- What a query of a client meets: the network, and the built-in decoders. -/
structure Network where
  requestId : PyStr
  script : Script
  polled : Json → Except Exc StatementResponse
  fetcher : Fetcher
  lib : Builtins

section

variable {Key : Type}

/-- `_run` without parameters. -/
def Client.run (client : Client Key) (net : Network) (sql : PyStr) : Except Exc StatementResponse := do
  let payload ← client.context.buildPayload sql []
  (send defaultRetryPolicy .sync (.submit net.requestId false false (.json payload)) net.script).2

/-- `query`, the rows together with their columns. -/
def Client.query (client : Client Key) (net : Network) (sql : PyStr) :
    Except Exc (List ColumnMeta × List Row) := do
  let response ← client.run net sql
  let (columns, _, _) ← prepareResult net.polled response
  let rows ← SnowflakeSqlApi.query net.lib net.fetcher net.polled response
  pure (columns, rows)

/-- The text of a key of a JSON object, from the name of a column. -/
def jsonKey : Json → Except Exc PyStr
  | .str s => .ok s
  | .null => .ok (py "null")
  | .bool b => .ok (if b then py "true" else py "false")
  | .int n => intStr n
  | .float x => dumpsFloat .default x
  | name => .error (.typeError [lit "keys must be str, int, float, bool or None, not ", name])

/-- The object of a row, whose keys are the names of its columns. -/
def printedRow (columns : List ColumnMeta) (row : Row) : Except Exc Dict :=
  (columns.zip row).mapM fun (column, entry) => do
    let key ← jsonKey column.name
    let image ← exportImage entry.2
    pure (key, image)

/-- `json.dumps(rows, default=_json_default, indent=2)`. -/
def printedRows (columns : List ColumnMeta) (rows : List Row) : Except Exc PyStr := do
  let objects ← rows.mapM (printedRow columns)
  dumpsIndent 2 0 (.arr (objects.map .obj))

/-- What a run of the command leaves: the two streams, and the exit code or the exception that
ended it. -/
structure Invocation where
  stdout : PyStr := []
  stderr : List Json := []
  ended : Except Exc Nat

/-- `_run_query`, once the query has come to its end. -/
def runQuery (queried : Except Exc (List ColumnMeta × List Row)) : Invocation :=
  match queried with
  | .error exc =>
    if exc.cls.isSnowflake then
      { stderr := lit "error: " :: exc.message ++ [lit "\n"], ended := .ok 1 }
    else { ended := .error exc }
  | .ok (columns, rows) =>
    match printedRows columns rows with
    | .error exc => { ended := .error exc }
    | .ok text => { stdout := text ++ [ch '\n'], ended := .ok 0 }

/-- `args.command`, with the argument of `query`. -/
inductive Command
  | none
  | query (sql : PyStr)

/-- `main`, on parsed arguments. -/
def main (help : PyStr) (crypto : Cryptography Key) (casing : Casing)
    (env : Environment) (net : Network) :
    Command → Invocation
  | .none => { stdout := help, ended := .ok 2 }
  | .query sql => runQuery (fromEnv crypto casing env >>= fun client => client.query net sql)

end

/-! ### Values that have a JSON form -/

theorem Graphic.readable {e : Bool} {s : PyStr} (h : Graphic s) : Readable e s := by
  intro _
  refine List.isChain_iff_forall_rel_of_append_cons_cons.mpr fun c d before after hs => ?_
  have hc := (h c (by rw [hs]; simp)).2
  rintro ⟨⟨hhigh, -⟩, -⟩
  omega

theorem graphic_digitChars (ds : List Nat) : Graphic (ds.map digitChar) := by
  intro c hc
  obtain ⟨d, -, rfl⟩ := List.mem_map.mp hc
  rw [digitChar_val]
  omega

theorem graphic_padded (width n : Nat) : Graphic (padded width n) := graphic_digitChars _

theorem Graphic.cons {c : PyChar} {s : PyStr} (hc : 32 ≤ c.val ∧ c.val < 128) (hs : Graphic s) :
    Graphic (c :: s) := List.forall_mem_cons.mpr ⟨hc, hs⟩

theorem graphic_date (d : PyDate) : Graphic d.isoformat :=
  ((((graphic_padded _ _).append (by decide)).append (graphic_padded _ _)).append
    (by decide)).append (graphic_padded _ _)

theorem graphic_clockText (hour minute second microsecond : Nat) :
    Graphic (clockText hour minute second microsecond) := by
  have hclock : Graphic (padded 2 hour ++ [ch ':'] ++ padded 2 minute ++ [ch ':'] ++ padded 2 second) :=
    ((((graphic_padded _ _).append (by decide)).append (graphic_padded _ _)).append
      (by decide)).append (graphic_padded _ _)
  rw [clockText]
  refine hclock.append ?_
  split
  · decide
  · exact .cons (by decide) (graphic_padded _ _)

theorem graphic_naive (d : Naive) : Graphic d.isoformat :=
  ((graphic_date _).append (by decide)).append (graphic_clockText _ _ _ _)

theorem graphic_offsetText (offset : Int) : Graphic (offsetText offset) := by
  rw [offsetText]
  refine Graphic.append (Graphic.append (Graphic.append (Graphic.append (Graphic.append ?_
    (graphic_padded _ _)) (by decide)) (graphic_padded _ _)) ?_) ?_
  · split <;> decide
  · split
    · decide
    · exact .cons (by decide) (graphic_padded _ _)
  · split
    · decide
    · exact .cons (by decide) (graphic_padded _ _)

theorem graphic_hexText (b : Bytes) : Graphic (hexText b) := by
  intro c hc
  obtain ⟨x, -, hx⟩ := List.mem_flatMap.mp hc
  simp only [List.mem_cons, List.not_mem_nil, or_false] at hx
  rcases hx with rfl | rfl <;> exact graphic_hexDigit _

theorem graphic_decimal {d : PyDecimal} (h : ∀ text, d = .special text → Graphic text) :
    Graphic d.str := by
  cases d with
  | special text => exact h text rfl
  | finite sign coefficient exponent _ =>
    have hdigits : Graphic (strNat coefficient) := graphic_digitChars _
    have hzeros : ∀ n, Graphic (List.replicate n (ch '0')) := by
      intro n c hc
      rw [List.eq_of_mem_replicate hc]
      decide
    have hparts : ∀ leftDigits dotPlace : Int, Graphic (
        (if sign then [ch '-'] else [])
        ++ (if dotPlace ≤ 0 then
            py "0." ++ List.replicate (-dotPlace).toNat (ch '0') ++ strNat coefficient
          else if (strNat coefficient).length ≤ dotPlace then
            strNat coefficient
              ++ List.replicate (dotPlace - (strNat coefficient).length).toNat (ch '0')
          else (strNat coefficient).take dotPlace.toNat ++ [ch '.']
            ++ (strNat coefficient).drop dotPlace.toNat)
        ++ if leftDigits = dotPlace then []
          else [ch 'E'] ++ (if leftDigits < dotPlace then [] else [ch '+'])
            ++ strInt (leftDigits - dotPlace)) := by
      intro leftDigits dotPlace
      have hsign : Graphic (if sign then [ch '-'] else []) := by cases sign <;> decide
      have hzero : Graphic (py "0.") := by decide
      have hpoint : Graphic [ch '.'] := by decide
      have hletter : Graphic [ch 'E'] := by decide
      refine (hsign.append ?_).append ?_
      · split_ifs
        · exact (hzero.append (hzeros _)).append hdigits
        · exact hdigits.append (hzeros _)
        · exact (Graphic.append (fun c hc => hdigits c (List.mem_of_mem_take hc)) hpoint).append
            fun c hc => hdigits c (List.mem_of_mem_drop hc)
      · split_ifs
        · exact fun _ hc => nomatch hc
        · exact (hletter.append (by decide)).append (graphic_strInt _)
        · exact (hletter.append (by decide)).append (graphic_strInt _)
    exact hparts _ _

/-- A value as `json.loads` gives it: what keys, floats and texts promise, and no integer beyond the
digits that `int` reads. -/
def AsJson (float : PyStr → PyFloat) (x : Json) : Prop := Loadable float true x ∧ Writable x

/-- What the built-in decoders return has a JSON form. -/
structure Builtins.Reads (lib : Builtins) (float : PyStr → PyFloat) : Prop where
  loads : ∀ {raw value : Json}, lib.loads raw = .ok value → AsJson float value
  decimal : ∀ {raw : Json} {text : PyStr}, lib.decimal raw = .ok (.special text) → Graphic text
  float : ∀ {raw : Json} {x : PyFloat}, lib.float raw = .ok x → x.Reads float

theorem graphic_parseDecimal {s text : PyStr} (h : parseDecimal s = .ok (.special text)) :
    Graphic text := by
  have hmark : ∀ b : Bool, Graphic (if b = true then [ch '-'] else []) := by decide
  unfold parseDecimal at h
  extract_lets signed whole rest point frac exponent name mark at h
  split_ifs at h with _ hinf hnan hsnan
  · obtain ⟨e, -, he⟩ := bind_eq_ok.mp h
    rw [PyDecimal.make] at he
    split at he <;> cases he
  · cases h
    exact (hmark _).append (by decide)
  · cases h
    exact ((hmark _).append (by decide)).append (graphic_digitChars _)
  · cases h
    exact ((hmark _).append (by decide)).append (graphic_digitChars _)

section Image

variable {lib : Builtins} {float : PyStr → PyFloat}

theorem graphic_decimalOf (hlib : lib.Reads float) {raw : Json} {d : PyDecimal}
    (h : decimalOf lib raw = .ok d) : Graphic d.str := by
  refine graphic_decimal fun text htext => ?_
  rw [htext] at h
  cases raw with
  | str s => exact graphic_parseDecimal h
  | _ => exact hlib.decimal h

theorem image_ofJson {value : Json} (h : AsJson float value) :
    ∃ image, exportImage (.ofJson value) = .ok image ∧ AsJson float image := by
  cases value with
  | other type => cases h.1
  | _ => exact ⟨_, rfl, h⟩

/-- **Every cell of a result has a JSON form.** -/
theorem exists_image (hlib : lib.Reads float) {raw : Json} (hraw : AsJson float raw)
    {column : ColumnMeta} {value : Value} (h : coerceValue lib raw column = .ok value) :
    ∃ image, exportImage value = .ok image ∧ AsJson float image := by
  have htext : ∀ {value : Value} {text : PyStr}, exportImage value = .ok (.str text) →
      Graphic text → ∃ image, exportImage value = .ok image ∧ AsJson float image :=
    fun himage hgraphic => ⟨_, himage, .str hgraphic.readable, .str _⟩
  by_cases hnull : raw = .null
  · subst hnull
    cases h
    exact ⟨_, rfl, .null, .null⟩
  · rw [coerceValue.eq_2 lib raw column hnull] at h
    cases hkind : column.kind <;> rw [hkind] at h
    case fixed =>
      change decodeFixed lib raw column.scale = .ok value at h
      rw [decodeFixed] at h
      by_cases hscale : isNoneOrZero column.scale = true
      · rw [if_pos hscale] at h
        obtain ⟨n, hn, rfl⟩ := map_eq_ok.mp h
        have hfew : FewDigits n := fewDigits_of_intOf (fun m hm => by
          subst hm
          cases hraw.2 with
          | int hfew => exact hfew) hn
        exact ⟨_, rfl, .int n, .int hfew⟩
      · rw [if_neg hscale] at h
        obtain ⟨d, hd, rfl⟩ := map_eq_ok.mp h
        exact htext rfl (graphic_decimalOf hlib hd)
    case real =>
      obtain ⟨x, hx, rfl⟩ := map_eq_ok.mp h
      exact ⟨_, rfl, .float (hlib.float hx), .float x⟩
    case text =>
      cases h
      exact image_ofJson hraw
    case unknown =>
      cases h
      exact image_ofJson hraw
    case boolean =>
      cases h
      exact ⟨_, rfl, .bool _, .bool _⟩
    case binary =>
      obtain ⟨b, -, rfl⟩ := map_eq_ok.mp h
      exact htext rfl (graphic_hexText b)
    case date =>
      obtain ⟨d, -, rfl⟩ := map_eq_ok.mp h
      exact htext rfl (graphic_date d)
    case time =>
      obtain ⟨s, -, h⟩ := bind_eq_ok.mp h
      obtain ⟨t, -, h⟩ := bind_eq_ok.mp h
      cases h
      exact htext rfl (graphic_clockText _ _ _ _)
    case timestampNtz =>
      obtain ⟨s, -, h⟩ := bind_eq_ok.mp h
      obtain ⟨d, -, h⟩ := bind_eq_ok.mp h
      cases h
      exact htext rfl (graphic_naive d)
    case timestampLtz =>
      obtain ⟨s, -, h⟩ := bind_eq_ok.mp h
      obtain ⟨d, -, h⟩ := bind_eq_ok.mp h
      cases h
      exact htext rfl ((graphic_naive _).append (graphic_offsetText _))
    case timestampTz =>
      obtain ⟨s, -, h⟩ := bind_eq_ok.mp h
      obtain ⟨d, -, h⟩ := bind_eq_ok.mp h
      cases h
      exact htext rfl ((graphic_naive _).append (graphic_offsetText _))
    case variant =>
      obtain ⟨j, hj, rfl⟩ := map_eq_ok.mp h
      exact image_ofJson (hlib.loads hj)

/-- What holds of every coerced cell holds of every cell of a row. -/
theorem coerceCells_forall {P : Value → Prop} {row out : Row} {columns : List ColumnMeta}
    {cells : List Json} (hrow : ∀ entry ∈ row, P entry.2)
    (hcells : ∀ cell ∈ cells, ∀ column value, coerceValue lib cell column = .ok value → P value)
    (h : coerceCells lib row columns cells = .ok out) : ∀ entry ∈ out, P entry.2 := by
  induction columns generalizing row cells with
  | nil =>
    cases cells <;> cases h <;> exact hrow
  | cons column columns ih =>
    cases cells with
    | nil =>
      cases h
      exact hrow
    | cons cell cells =>
      rw [coerceCells] at h
      cases hvalue : coerceValue lib cell column with
      | error e =>
        rw [hvalue] at h
        cases h
      | ok value =>
        rw [hvalue] at h
        cases hkey : column.name.key? with
        | none =>
          rw [hkey] at h
          cases h
        | some key =>
          rw [hkey] at h
          refine ih (fun entry hentry => ?_)
            (fun other hother => hcells other (List.mem_cons_of_mem _ hother)) h
          rcases mem_assocSet hentry with rfl | hentry
          · exact hcells cell List.mem_cons_self column value hvalue
          · exact hrow entry hentry

/-- Every cell of a row of a result has a JSON form. -/
theorem coerceRow_images (hlib : lib.Reads float) {raw : Json} (hraw : AsJson float raw)
    {columns : List ColumnMeta} {row : Row} (h : coerceRow lib raw columns = .ok row) :
    ∀ entry ∈ row, ∃ image, exportImage entry.2 = .ok image ∧ AsJson float image := by
  cases raw with
  | arr cells =>
    have hcells : ∀ cell ∈ cells, AsJson float cell := by
      cases hraw.1 with
      | arr hloadable =>
        cases hraw.2 with
        | arr hwritable => exact fun cell hcell => ⟨hloadable cell hcell, hwritable cell hcell⟩
    rw [coerceRow] at h
    split at h
    · exact coerceCells_forall (P := fun value => ∃ image, exportImage value = .ok image ∧
        AsJson float image) (List.forall_mem_nil _)
        (fun cell hcell column value hvalue => exists_image hlib (hcells cell hcell) hvalue) h
    · cases h
  | _ => cases h

end Image

/-! ### What is printed -/

/-- The columns of a result have text for names, and its rows came as JSON. -/
structure Network.SendsJson (net : Network) (float : PyStr → PyFloat) (response : StatementResponse) :
    Prop where
  names : ∀ {columns : List ColumnMeta} {handle : Json} {body : Dict},
    prepareResult net.polled response = .ok (columns, handle, body) →
      ∃ names : List PyStr, columns.map ColumnMeta.name = names.map .str ∧
        ∀ name ∈ names, Readable true name
  rows : ∀ {columns : List ColumnMeta} {handle : Json} {body : Dict} {raws : List Json},
    prepareResult net.polled response = .ok (columns, handle, body) →
      fetchAllPartitions net.fetcher handle body = .ok raws → ∀ raw ∈ raws, AsJson float raw

/-- What a caller of the command has of a query. -/
inductive Reported (float : PyStr → PyFloat) :
    Except Exc (List ColumnMeta × List Row) → Invocation → Prop
  | printed {columns : List ColumnMeta} {rows : List Row} {names : List PyStr} {objects : List Dict}
      {stdout : PyStr} : columns.map ColumnMeta.name = names.map .str →
      rows.mapM (rowObject names) = .ok objects →
      loads float stdout = some (.arr (objects.map .obj)) → Ascii stdout →
      Reported float (.ok (columns, rows)) ⟨stdout, [], .ok 0⟩
  | failed {e : Exc} : e.cls.isSnowflake = true →
      Reported float (.error e) ⟨[], lit "error: " :: e.message ++ [lit "\n"], .ok 1⟩
  | raised {e : Exc} : e.cls.isSnowflake = false → Reported float (.error e) ⟨[], [], .error e⟩

/-- A row whose cells have a JSON form is printed as an object. -/
theorem exists_printedRow {columns : List ColumnMeta} {names : List PyStr} {row : Row}
    (hnames : columns.map ColumnMeta.name = names.map .str) (hkeys : row.map Prod.fst = names.map .str)
    (himages : ∀ entry ∈ row, ∃ image, exportImage entry.2 = .ok image) :
    ∃ object : Dict, printedRow columns row = .ok object ∧ object.map Prod.fst = names ∧
      List.Forall₂ (fun entry kv => entry.1 = .str kv.1 ∧ exportImage entry.2 = .ok kv.2)
        row object := by
  induction names generalizing columns row with
  | nil =>
    obtain rfl := List.map_eq_nil_iff.mp hnames
    obtain rfl := List.map_eq_nil_iff.mp hkeys
    exact ⟨[], rfl, rfl, .nil⟩
  | cons name names ih =>
    obtain ⟨column, columns, rfl, hname, hnames⟩ := List.map_eq_cons_iff.mp hnames
    obtain ⟨entry, row, rfl, hkey, hkeys⟩ := List.map_eq_cons_iff.mp hkeys
    obtain ⟨⟨image, himage⟩, himages⟩ := List.forall_mem_cons.mp himages
    obtain ⟨object, hobject, hfst, hall⟩ := ih hnames hkeys himages
    refine ⟨(name, image) :: object, mapM_cons_ok ?_ hobject, congrArg (name :: ·) hfst,
      .cons ⟨hkey, himage⟩ hall⟩
    dsimp only
    rw [hname, himage]
    rfl

section Printed

variable {lib : Builtins} {float : PyStr → PyFloat}

/-- **Rows are printed as an array of their objects**, which is read back. -/
theorem printedRows_reads (hlib : lib.Reads float) {columns : List ColumnMeta} {names : List PyStr}
    {keys : List Key} (hnames : columns.map ColumnMeta.name = names.map .str)
    (hreadable : ∀ name ∈ names, Readable true name)
    (hkeys : columns.mapM (fun c => c.name.key?) = some keys) (hdistinct : keys.Nodup)
    {raws : List Json} (hraws : ∀ raw ∈ raws, AsJson float raw) {rows : List Row}
    (h : coerceRows lib raws columns = .ok rows) :
    ∃ objects text, rows.mapM (rowObject names) = .ok objects ∧
      printedRows columns rows = .ok text ∧ JsonText float true (.arr (objects.map .obj)) text := by
  have hnodup : names.Nodup := by
    rw [keys_of_names hnames hkeys] at hdistinct
    exact hdistinct.of_map _
  have hobjects : ∃ objects, rows.mapM (printedRow columns) = .ok objects ∧
      rows.mapM (rowObject names) = .ok objects ∧
      ∀ object ∈ objects, AsJson float (.obj object) := by
    have hall := mapM_eq_ok.mp h
    clear h
    induction hall with
    | nil => exact ⟨[], rfl, rfl, fun _ hobject => nomatch hobject⟩
    | @cons raw row raws rows hrow _ ih =>
      obtain ⟨hraw, hraws⟩ := List.forall_mem_cons.mp hraws
      obtain ⟨objects, hprinted, hobjects, hloads⟩ := ih hraws
      have himages := coerceRow_images hlib hraw hrow
      have hrowKeys : row.map Prod.fst = names.map .str := by
        rw [coerceRow_keys hkeys hdistinct hrow, keys_of_names hnames hkeys]
      obtain ⟨object, hprint, hfst, hcells⟩ := exists_printedRow hnames hrowKeys
        fun entry hentry => (himages entry hentry).imp fun _ => And.left
      have hobject := rowObject_eq hnodup hrowKeys hfst hcells
      have hload := loadable_rowObject hnodup hreadable (fun entry hentry image himage => by
        obtain ⟨image', himage', hload⟩ := himages entry hentry
        rw [himage'] at himage
        cases himage
        exact hload.1) hobject
      have hwrite : Writable (.obj object) := by
        refine .obj fun kv hkv => ?_
        obtain ⟨entry, hentry, -, himage⟩ := exists_of_forall₂_left hcells.flip hkv
        obtain ⟨image, himage', hload⟩ := himages entry hentry
        rw [himage'] at himage
        cases himage
        exact hload.2
      exact ⟨object :: objects, mapM_cons_ok hprint hprinted, mapM_cons_ok hobject hobjects,
        List.forall_mem_cons.mpr ⟨⟨hload, hwrite⟩, hloads⟩⟩
  obtain ⟨objects, hprinted, hobjects, hloads⟩ := hobjects
  have hload : Loadable float true (.arr (objects.map .obj)) := by
    refine .arr fun x hx => ?_
    obtain ⟨object, hobject, rfl⟩ := List.mem_map.mp hx
    exact (hloads object hobject).1
  have hwrite : Writable (.arr (objects.map .obj)) := by
    refine .arr fun x hx => ?_
    obtain ⟨object, hobject, rfl⟩ := List.mem_map.mp hx
    exact (hloads object hobject).2
  obtain ⟨text, htext⟩ := @Writable.exists_dumpsIndent 2 _ hwrite 0
  exact ⟨objects, text, hobjects, bind_eq_ok.mpr ⟨objects, hprinted, htext⟩,
    text_dumpsIndent hload htext⟩

end Printed

/-- **The command keeps its word**: on exit code 0 the standard output is ASCII, and read as JSON it
is the rows of the query, each as an object; on exit code 1 it is empty, and the message of a library
error is on the other stream; and an exception that the command lets through leaves nothing. -/
theorem main_reads {Key : Type} {help : PyStr} {crypto : Cryptography Key} {casing : Casing}
    {env : Environment} {net : Network} {float : PyStr → PyFloat} {sql : PyStr}
    (hlib : net.lib.Reads float)
    (hjson : ∀ client response, fromEnv crypto casing env = .ok client →
      client.run net sql = .ok response → net.SendsJson float response) :
    Reported float (fromEnv crypto casing env >>= fun client => client.query net sql)
      (main help crypto casing env net (.query sql)) := by
  show Reported float _ (runQuery _)
  cases hquery : fromEnv crypto casing env >>= fun client => client.query net sql with
  | error e =>
    rw [runQuery]
    cases hclass : e.cls.isSnowflake with
    | true => exact .failed hclass
    | false => exact .raised hclass
  | ok queried =>
    obtain ⟨client, hclient, hquery⟩ := bind_eq_ok.mp hquery
    obtain ⟨response, hresponse, hquery⟩ := bind_eq_ok.mp hquery
    obtain ⟨⟨columns, handle, body⟩, hprepared, hquery⟩ := bind_eq_ok.mp hquery
    obtain ⟨rows, hrows, hquery⟩ := bind_eq_ok.mp hquery
    cases hquery
    have hsends := hjson client response hclient hresponse
    obtain ⟨names, hnames, hreadable⟩ := hsends.names hprepared
    obtain ⟨keys, hkeys, hdistinct⟩ := nodup_of_prepareResult hprepared
    obtain ⟨prepared, hprepared', hrows⟩ := bind_eq_ok.mp hrows
    rw [hprepared] at hprepared'
    cases hprepared'
    obtain ⟨raws, hraws, hrows⟩ := bind_eq_ok.mp hrows
    obtain ⟨objects, text, hobjects, hprinted, htext⟩ := printedRows_reads hlib hnames hreadable
      hkeys hdistinct (hsends.rows hprepared hraws) hrows
    rw [runQuery]
    rw [hprinted]
    exact .printed hnames hobjects (loads_text htext blank_nil blank_newline)
      ((ascii_text htext).append (by decide))

/-- An environment with a key in it. -/
def sampleEnvironment : Environment where
  get name :=
    [(py "SNOWFLAKE_ACCOUNT", py "acct"), (py "SNOWFLAKE_USER", py "user"),
      (py "SNOWFLAKE_PRIVATE_KEY", py "pem")].lookup name
  readBytes _ := .content []

/-- A network on which the statement is answered at once, with the first of two partitions. -/
def pagedNetwork : Network where
  requestId := py "id"
  script _ := ⟨idleDraw, .answered ⟨200, some (.obj pagedResponse.body), [], none⟩⟩
  polled _ := .ok pagedResponse
  fetcher := secondPartition
  lib := sampleBuiltins

theorem pagedNetwork_sendsJson {response : StatementResponse} (h : response.body = pagedResponse.body)
    (hstatus : response.statusCode = 200) (hhandle : response.statementHandle = .str (py "h")) :
    pagedNetwork.SendsJson .nonFinite response := by
  have hfinished : finishedResponse pagedNetwork.polled response = .ok response := by
    rw [finishedResponse, StatementResponse.isRunning, hstatus]
    rfl
  have hprepared : prepareResult pagedNetwork.polled response =
      .ok ([⟨.str (py "A"), some (py "text"), .null, .null, true⟩], .str (py "h"),
        pagedResponse.body) := by
    rw [prepareResult, hfinished]
    show (columnsFrom response.body >>= _) = _
    rw [hhandle, h]
    rfl
  have hraws : fetchAllPartitions pagedNetwork.fetcher (.str (py "h")) pagedResponse.body =
      .ok [.arr [.str (py "x")], .arr [.str (py "y")]] := rfl
  refine ⟨fun hp => ?_, fun hp hfetch raw hraw => ?_⟩
  · rw [hprepared] at hp
    cases hp
    refine ⟨[py "A"], rfl, fun name hname => ?_⟩
    rw [List.mem_singleton.mp hname]
    exact Graphic.readable (by decide)
  · rw [hprepared] at hp
    cases hp
    rw [hraws] at hfetch
    cases hfetch
    have hcell : ∀ text, Graphic text → AsJson .nonFinite (.arr [.str text]) := by
      intro text htext
      refine ⟨.arr fun x hx => ?_, .arr fun x hx => ?_⟩
      · rw [List.mem_singleton.mp hx]
        exact .str htext.readable
      · rw [List.mem_singleton.mp hx]
        exact .str text
    simp only [List.mem_cons, List.not_mem_nil, or_false] at hraw
    rcases hraw with rfl | rfl
    · exact hcell _ (by decide)
    · exact hcell _ (by decide)

theorem main_reads_paged : Reported .nonFinite
    (fromEnv oneKey asciiCasing sampleEnvironment >>= fun client =>
      client.query pagedNetwork (py "SELECT A"))
    (main [] oneKey asciiCasing sampleEnvironment pagedNetwork (.query (py "SELECT A"))) := by
  have hlib : pagedNetwork.lib.Reads .nonFinite := by
    constructor <;> intro _ _ h <;> cases h
  refine main_reads hlib fun client response hclient hresponse => ?_
  have hsample : ∃ sample, fromEnv oneKey asciiCasing sampleEnvironment = .ok sample ∧
      ∃ reply, sample.run pagedNetwork (py "SELECT A") = .ok reply ∧
        reply.body = pagedResponse.body ∧ reply.statusCode = 200 ∧
          reply.statementHandle = .str (py "h") := ⟨_, rfl, _, rfl, rfl, rfl, rfl⟩
  obtain ⟨sample, hfrom, reply, hreply, hbody, hstatus, hhandle⟩ := hsample
  rw [hfrom] at hclient
  cases hclient
  rw [hreply] at hresponse
  cases hresponse
  exact pagedNetwork_sendsJson hbody hstatus hhandle

end SnowflakeSqlApi
