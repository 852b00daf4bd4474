import SnowflakeSqlApi.Testing.Numbers
import SnowflakeSqlApi.Testing.Session

/-!
# Registered rows come back

`register(sql, rows)` and `client.query(sql)`, for rows that are dicts: `_infer_column` gives a
column the type and scale of its first cell that is not `None`, and both the fake's encoder
and the client's decoder go by them for all the cells of the column.

A row goes out and comes back column by column (`encodeRow_coerceRow`), each cell by
`throughWire`.  A cell of the column's kind comes back equal where it `Fits`: not a `Decimal` with a
point in a column whose first number has none, since the column has scale 0 and `int` refuses the
point, and not a number of more digits than `str` writes or `int` reads.
-/

namespace SnowflakeSqlApi.Testing

/-- A dict row. -/
abbrev DictRow := List (PyStr × Value)

/-- `v == w`: the same value, or numbers that are equal. -/
def SameValue (v w : Value) : Prop := v = w ∨ ∃ q, v.number = some q ∧ w.number = some q

/-- A row of the result equals the registered dict. -/
structure SameRow (row : DictRow) (out : Row) : Prop where
  keys : (out.map Prod.fst).Perm (row.map fun entry => Key.str entry.1)
  values : ∀ name v, row.lookup name = some v →
    ∃ w, out.lookup (.str name) = some w ∧ SameValue v w

/-! ### Columns -/

/-- A cell that is not `None`. -/
def DictRow.cell? (row : DictRow) (name : PyStr) : Option Value :=
  match row.lookup name with
  | some .none => none
  | found => found

/-- The cells of a column that are not `None`, in order. -/
def columnCells (rows : List DictRow) (name : PyStr) : List Value :=
  rows.filterMap fun row => row.cell? name

/-- The column as `_infer_column` sees it. -/
def columnOf (rows : List DictRow) (name : PyStr) : Column :=
  match (columnCells rows name).head? with
  | some v => ⟨name, (inferType v).1, (inferType v).2⟩
  | none => ⟨name, py "text", none⟩

theorem columnOf_name (rows : List DictRow) (name : PyStr) : (columnOf rows name).name = name := by
  rw [columnOf]
  split <;> rfl

theorem cell_dict {row : DictRow} {name : PyStr} {v : Value} (h : row.lookup name = some v)
    (index : Nat) : cell (.dict row) name index = .ok v := by
  rw [cell, h]

theorem inferred_dict {rows : List DictRow} {name : PyStr}
    (h : ∀ row ∈ rows, ∃ v, row.lookup name = some v) (index : Nat) :
    inferred (rows.map .dict) name index = .ok (columnOf rows name) := by
  have hinfer : inferColumn name index (rows.map .dict) =
      .ok ((columnOf rows name).type, (columnOf rows name).scale) := by
    induction rows with
    | nil => rfl
    | cons row rows ih =>
      obtain ⟨v, hv⟩ := h row (by simp)
      have hrest := ih fun row' hrow => h row' (List.mem_cons_of_mem _ hrow)
      rw [List.map_cons, inferColumn, cell_dict hv index, columnOf, columnCells, List.filterMap_cons,
        DictRow.cell?, hv]
      cases v with
      | none => exact hrest
      | _ => rfl
  have hname := columnOf_name rows name
  rw [inferred, hinfer]
  generalize columnOf rows name = column at hname
  cases column
  cases hname
  rfl

/-! ### Rows -/

section Rows

variable (conv : Conversions) (lib : Builtins)

/-- How the client reads the entry of a column. -/
def Column.meta (column : Column) : ColumnMeta where
  name := .str column.name
  type := some (asciiLower column.type)
  scale := column.scale.elim .null .int

theorem fromRowType_entry (column : Column) :
    ColumnMeta.fromRowType column.entry = .ok column.meta := by
  obtain ⟨name, type, scale⟩ := column
  cases scale with
  | none => rfl
  | some scale => rfl

def cellJson (text : Option PyStr) : Json := text.elim .null .str

/-- A cell on its way out and back. -/
def throughWire (row : DictRow) (column : Column) : Except Exc Value := do
  let v ← cell (.dict row) column.name 0
  let text ← encodeCell conv v column.type
  coerceValue lib (cellJson text) column.meta

theorem encodeRow_dict (columns : List Column) (row : DictRow) :
    encodeRow conv columns (.dict row) = columns.mapM (fun column =>
      cell (.dict row) column.name 0 >>= fun v => encodeCell conv v column.type) := by
  have hcolumns : columns.zipIdx.map Prod.fst = columns := List.zipIdx_map_fst 0 columns
  conv_rhs => rw [← hcolumns]
  rw [encodeRow, List.mapM_map]
  rfl

/-- The dict comprehension of `coerce_row`, over distinct names. -/
theorem coerceCells_eq_ok {row out : Row} {columns : List ColumnMeta} {cells : List Json}
    {keys : List Key} (hlength : cells.length = columns.length)
    (hkeys : columns.mapM (fun c => c.name.key?) = some keys)
    (hnodup : (row.map Prod.fst ++ keys).Nodup) :
    coerceCells lib row columns cells = .ok out ↔
      ∃ values, (columns.zip cells).mapM (fun p => coerceValue lib p.2 p.1) = .ok values ∧
        out = row ++ keys.zip values := by
  induction columns generalizing row cells keys with
  | nil =>
    rw [List.mapM_nil] at hkeys
    cases hkeys
    cases cells with
    | nil =>
      constructor
      · intro h
        cases h
        exact ⟨[], rfl, by simp⟩
      · rintro ⟨values, _, hout⟩
        rw [hout, List.zip_nil_left, List.append_nil]
        rfl
    | cons cell cells => cases hlength
  | cons column columns ih =>
    cases cells with
    | nil => cases hlength
    | cons cell cells =>
      rw [List.mapM_cons] at hkeys
      obtain ⟨key, hkey, hkeys⟩ := Option.bind_eq_some_iff.mp hkeys
      obtain ⟨rest, hrest, hkeys⟩ := Option.bind_eq_some_iff.mp hkeys
      cases hkeys
      rw [coerceCells, hkey, List.zip_cons_cons, List.mapM_cons]
      cases hvalue : coerceValue lib cell column with
      | error e =>
        constructor
        · intro h
          cases h
        · rintro ⟨values, h, _⟩
          cases h
      | ok value =>
        have hnew : key ∉ row.map Prod.fst := fun hmem =>
          (List.nodup_append.mp hnodup).2.2 key hmem key (by simp) rfl
        have hset := assocSet_of_notMem value hnew
        have hdistinct : ((assocSet row key value).map Prod.fst ++ rest).Nodup := by
          rw [hset, List.map_append]
          simpa using hnodup
        dsimp only
        rw [ih (Nat.succ.inj hlength) hrest hdistinct, hset]
        simp only [bind_eq_ok]
        refine ⟨?_, ?_⟩
        · rintro ⟨values, hvalues, rfl⟩
          exact ⟨value :: values, ⟨value, rfl, values, hvalues, rfl⟩, by simp⟩
        · rintro ⟨_, ⟨_, hone, values, hvalues, heq⟩, rfl⟩
          cases hone
          cases heq
          exact ⟨values, hvalues, by simp⟩

/-- The keys of the columns. -/
theorem keys_meta (columns : List Column) :
    (columns.map Column.meta).mapM (fun c => c.name.key?) =
      some (columns.map fun column => .str column.name) := by
  induction columns with
  | nil => rfl
  | cons column columns ih =>
    rw [List.map_cons, List.mapM_cons, ih]
    rfl

theorem keys_nodup {columns : List Column} (hnodup : (columns.map Column.name).Nodup) :
    (columns.map fun column => Key.str column.name).Nodup := by
  have hkeys : ((columns.map Column.name).map Key.str).Nodup :=
    hnodup.map fun _ _ h => Key.str.inj h
  rwa [List.map_map] at hkeys

/-- The cells of a wire row, read by the columns they were written by. -/
theorem wire_coerceValue {columns : List Column} {row : DictRow} {wire : WireRow}
    (hwire : columns.mapM (fun column => cell (.dict row) column.name 0 >>= fun v =>
      encodeCell conv v column.type) = .ok wire) :
    ((columns.map Column.meta).zip (wire.map cellJson)).mapM
      (fun p => coerceValue lib p.2 p.1) = columns.mapM (throughWire conv lib row) := by
  have hrelated := mapM_eq_ok.mp hwire
  clear hwire
  induction hrelated with
  | nil => rfl
  | @cons column text columns wire hcell _ ih =>
    have hthrough : throughWire conv lib row column =
        coerceValue lib (cellJson text) column.meta := by
      obtain ⟨v, hv, htext⟩ := bind_eq_ok.mp hcell
      rw [throughWire, hv]
      show (encodeCell conv v column.type >>= _) = _
      rw [htext]
      rfl
    rw [List.map_cons, List.map_cons, List.zip_cons_cons, List.mapM_cons, List.mapM_cons, ih,
      hthrough]

/-- **A row goes out and comes back** column by column. -/
theorem encodeRow_coerceRow {columns : List Column} {row : DictRow} {wire : WireRow}
    (hnodup : (columns.map Column.name).Nodup)
    (hwire : encodeRow conv columns (.dict row) = .ok wire) {out : Row} :
    coerceRow lib (rowJson wire) (columns.map Column.meta) = .ok out ↔
      ∃ values, columns.mapM (throughWire conv lib row) = .ok values ∧
        out = (columns.map fun column => Key.str column.name).zip values := by
  rw [encodeRow_dict] at hwire
  have hlength : (wire.map cellJson).length = (columns.map Column.meta).length := by
    rw [List.length_map, List.length_map, (mapM_eq_ok.mp hwire).length_eq]
  have hcells := wire_coerceValue conv lib hwire
  have hdistinct : ((([] : Row).map Prod.fst) ++
      columns.map fun column => Key.str column.name).Nodup := keys_nodup hnodup
  have hrow : coerceRow lib (rowJson wire) (columns.map Column.meta) =
      coerceCells lib [] (columns.map Column.meta) (wire.map cellJson) := if_pos hlength
  rw [hrow, coerceCells_eq_ok lib hlength (keys_meta columns) hdistinct, hcells]
  rfl

/-- All the rows of a registration. -/
theorem wire_coerceRows {columns : List Column} {rows : List DictRow} {wire : List WireRow}
    (hnodup : (columns.map Column.name).Nodup)
    (hwire : (rows.map RowInput.dict).mapM (encodeRow conv columns) = .ok wire) {out : List Row} :
    coerceRows lib (wire.map rowJson) (columns.map Column.meta) = .ok out ↔
      List.Forall₂ (fun row o => ∃ values, columns.mapM (throughWire conv lib row) = .ok values ∧
        o = (columns.map fun column => Key.str column.name).zip values) rows out := by
  rw [List.mapM_map] at hwire
  have hrelated := mapM_eq_ok.mp hwire
  rw [coerceRows, List.mapM_map, mapM_eq_ok]
  clear hwire
  induction hrelated generalizing out with
  | nil =>
    exact ⟨fun h => (by cases h; exact .nil), fun h => (by cases h; exact .nil)⟩
  | @cons row w rows wire hrow _ ih =>
    have hread := @encodeRow_coerceRow conv lib columns row w hnodup hrow
    refine ⟨fun h => ?_, fun h => ?_⟩
    · obtain _ | ⟨hfirst, hrest⟩ := h
      exact .cons (hread.mp hfirst) (ih.mp hrest)
    · obtain _ | ⟨hfirst, hrest⟩ := h
      exact .cons (hread.mpr hfirst) (ih.mpr hrest)

end Rows

/-! ### Cells -/

/-- The kinds of cells that are not temporal. -/
inductive CellKind
  | int | decimal | str | bool | bytes | json

/-- The value is of the kind: a `Decimal` is finite. -/
inductive CellKind.Holds : CellKind → Value → Prop
  | int (n : Int) : Holds int (.int n)
  | decimal (sign : Bool) (coefficient : Nat) (exponent : Int)
      (hrange : InDecimalRange coefficient exponent) :
    Holds decimal (.decimal (.finite sign coefficient exponent hrange))
  | str (s : PyStr) : Holds str (.str s)
  | bool (b : Bool) : Holds bool (.bool b)
  | bytes (b : Bytes) : Holds bytes (.bytes b)
  | list (xs : List Json) : Holds json (.container (.arr xs))
  | dict (kvs : List (PyStr × Json)) : Holds json (.container (.obj kvs))

/-- A `Decimal` with a point. -/
def HasPoint : Value → Prop
  | .decimal (.finite _ _ exponent _) => exponent < 0
  | _ => False

/-- What a column can carry whose first cell is `first`: an integer that `str` writes, a `list` or
`dict` that `json.dumps` does, and a `Decimal` of any length where the first one has a point; where it
has none, one without a point and with no more digits than `int` reads. -/
def Fits (first : Value) : Value → Prop
  | .int n => FewDigits n
  | .decimal d =>
    HasPoint first ∨ ¬ HasPoint (.decimal d) ∧ digitCount d.fixed ≤ intMaxStrDigits
  | .container j => ∃ text, dumps .default j = .ok text
  | _ => True

theorem hexValue_hexDigit : ∀ d < 16, hexValue (hexDigit d) = some d := by decide

theorem hexDigit_notSpace : ∀ d < 16,
    ¬ ((9 ≤ (hexDigit d).val ∧ (hexDigit d).val ≤ 13) ∨ (hexDigit d).val = 32) := by decide

/-- `bytes.fromhex` inverts `bytes.hex`. -/
theorem fromHex_hexText (b : Bytes) : fromHex (hexText b) = some b := by
  induction b with
  | nil => rfl
  | cons x b ih =>
    have hlt := x.toNat_lt
    have hhigh : x.toNat / 16 < 16 := by omega
    have hlow : x.toNat % 16 < 16 := Nat.mod_lt _ (by decide)
    have hbyte : (x.toNat / 16 * 16 + x.toNat % 16).toUInt8 = x := by
      rw [Nat.div_add_mod']
      exact UInt8.ofNat_toNat
    show fromHex (hexDigit (x.toNat / 16) :: hexDigit (x.toNat % 16) :: hexText b) = _
    rw [fromHex.eq_def]
    dsimp only
    rw [if_neg (hexDigit_notSpace _ hhigh), hexValue_hexDigit _ hhigh]
    dsimp only
    rw [hexValue_hexDigit _ hlow]
    dsimp only
    rw [ih, hbyte]
    rfl

section Cells

variable (conv : Conversions) {lib : Builtins} {row : DictRow} {column : Column} {v : Value}

theorem throughWire_eq (h : row.lookup column.name = some v) :
    throughWire conv lib row column =
      encodeCell conv v column.type >>= fun text => coerceValue lib (cellJson text) column.meta := by
  rw [throughWire, cell_dict h]
  rfl

/-- `NULL` comes back as `None`. -/
theorem throughWire_none (h : row.lookup column.name = some .none) :
    throughWire conv lib row column = .ok .none := throughWire_eq conv h

/-- A text in a column of the kind. -/
theorem throughWire_text (h : row.lookup column.name = some v) {type text : PyStr} {kind : Kind}
    (htype : column.type = type) (hencode : encodeCell conv v type = .ok (some text))
    (hkind : Kind.ofType (asciiLower type) = kind) :
    throughWire conv lib row column =
      match kind with
      | .fixed => decodeFixed lib (.str text) (column.scale.elim .null .int)
      | .text => .ok (.str text)
      | .boolean => .ok (.bool (decodeBoolean (.str text)))
      | .binary => (decodeBinary (.str text)).map .bytes
      | .variant => (lib.loads (.str text)).map .ofJson
      | _ => coerceValue lib (.str text) column.meta := by
  subst htype
  rw [throughWire_eq conv h, hencode]
  show coerceValue lib (.str text) { column.meta with type := some (asciiLower column.type) } = _
  rw [coerceValue_str lib column.meta hkind]
  cases kind <;> first | rfl | exact (coerceValue_str lib column.meta hkind text).symm

/-- The column is typed by this value. -/
def Column.TypedBy (column : Column) (first : Value) : Prop :=
  column.type = (inferType first).1 ∧ column.scale = (inferType first).2

variable {first : Value}

/-- A `Decimal` is read with the scale of the first one. -/
theorem throughWire_decimal {sign' : Bool} {coefficient' : Nat} {exponent' : Int}
    {hrange' : InDecimalRange coefficient' exponent'} {d : PyDecimal}
    (hcolumn : column.TypedBy (.decimal (.finite sign' coefficient' exponent' hrange')))
    (h : row.lookup column.name = some (.decimal d)) :
    throughWire conv lib row column =
      decodeFixed lib (.str d.fixed)
        (.int (if exponent' < 0 then -exponent' else 0)) := by
  have hscale : column.scale = some (if exponent' < 0 then -exponent' else 0) := hcolumn.2
  have hkind : Kind.ofType (asciiLower (py "fixed")) = .fixed := by decide
  rw [throughWire_text conv h hcolumn.1 (encodeCell_fixed conv _) hkind, hscale]
  rfl

theorem throughWire_int {n m : Int} (hfew : FewDigits n) (hcolumn : column.TypedBy (.int m))
    (h : row.lookup column.name = some (.int n)) :
    throughWire conv lib row column = .ok (.int n) := by
  have hscale : column.scale = some 0 := hcolumn.2
  have hkind : Kind.ofType (asciiLower (py "fixed")) = .fixed := by decide
  rw [throughWire_text conv h hcolumn.1 (encodeCell_fixed_int conv hfew) hkind, hscale]
  show decodeFixed lib (.str (strInt n)) (.int 0) = _
  rw [decodeFixed, if_pos (by decide), intOf, parseInt_strInt hfew]
  rfl

theorem throughWire_str {s s' : PyStr} (hcolumn : column.TypedBy (.str s'))
    (h : row.lookup column.name = some (.str s)) :
    throughWire conv lib row column = .ok (.str s) := by
  have hkind : Kind.ofType (asciiLower (py "text")) = .text := by decide
  exact throughWire_text conv h hcolumn.1 (encodeCell_eq (by simp) rfl) hkind

theorem throughWire_bool {b b' : Bool} (hcolumn : column.TypedBy (.bool b'))
    (h : row.lookup column.name = some (.bool b)) :
    throughWire conv lib row column = .ok (.bool b) := by
  have hkind : Kind.ofType (asciiLower (py "boolean")) = .boolean := by decide
  rw [throughWire_text conv h hcolumn.1 (encodeCell_eq (by simp) rfl) hkind]
  cases b with
  | true => rfl
  | false => rfl

theorem throughWire_bytes {b b' : Bytes} (hcolumn : column.TypedBy (.bytes b'))
    (h : row.lookup column.name = some (.bytes b)) :
    throughWire conv lib row column = .ok (.bytes b) := by
  have hkind : Kind.ofType (asciiLower (py "binary")) = .binary := by decide
  rw [throughWire_text conv h hcolumn.1 (encodeCell_eq (by simp) rfl) hkind]
  show (decodeBinary (.str (hexText b))).map Value.bytes = _
  rw [decodeBinary, fromHex_hexText]
  rfl

/-- The types of a column of containers. -/
theorem containerType {j : Json} (hcolumn : column.TypedBy (.container j)) :
    column.type ∈ [py "variant", py "object", py "array"] ∧ column.type ≠ py "boolean" ∧
      Kind.ofType (asciiLower column.type) = .variant := by
  have htype : column.type = py "object" ∨ column.type = py "array" := by
    cases j with
    | obj kvs => exact .inl hcolumn.1
    | _ => exact .inr hcolumn.1
  rcases htype with htype | htype <;> rw [htype] <;> decide

theorem encodeCell_container {j j' : Json} (hcolumn : column.TypedBy (.container j')) :
    encodeCell conv (.container j) column.type = (dumps .default j).map some := by
  obtain ⟨hmem, hboolean, -⟩ := containerType hcolumn
  show (encodeValue conv (.container j) column.type).map some = _
  unfold encodeValue
  rw [if_neg hboolean, if_pos hmem]
  rfl

theorem throughWire_json {j j' : Json} (hcolumn : column.TypedBy (.container j'))
    (h : row.lookup column.name = some (.container j)) {text : PyStr}
    (htext : dumps .default j = .ok text) (hloads : lib.loads (.str text) = .ok j) :
    throughWire conv lib row column = .ok (.ofJson j) := by
  have hencode : encodeCell conv (.container j) column.type = .ok (some text) := by
    rw [encodeCell_container conv hcolumn, htext]
    rfl
  rw [throughWire_text conv h rfl hencode (containerType hcolumn).2.2]
  dsimp only
  rw [hloads]
  rfl

/-- A container that comes back has been written. -/
theorem dumps_of_throughWire {j j' : Json} (hcolumn : column.TypedBy (.container j'))
    (h : row.lookup column.name = some (.container j)) {w : Value}
    (hw : throughWire conv lib row column = .ok w) : ∃ text, dumps .default j = .ok text := by
  rw [throughWire_eq conv h] at hw
  obtain ⟨text, hencode, -⟩ := bind_eq_ok.mp hw
  rw [encodeCell_container conv hcolumn] at hencode
  obtain ⟨written, hwritten, -⟩ := map_eq_ok.mp hencode
  exact ⟨written, hwritten⟩

/-- **A cell of the kind comes back equal**, where it fits. -/
theorem throughWire_same {kind : CellKind} (hcolumn : column.TypedBy first)
    (hfirst : kind.Holds first) (hkind : kind.Holds v) (h : row.lookup column.name = some v)
    (hloads : ∀ j text, v = .container j → dumps .default j = .ok text →
      lib.loads (.str text) = .ok j)
    (hfits : Fits first v) :
    ∃ w, throughWire conv lib row column = .ok w ∧ SameValue v w := by
  cases hkind with
  | int n =>
    cases hfirst
    exact ⟨_, throughWire_int conv hfits hcolumn h, .inl rfl⟩
  | str s =>
    cases hfirst
    exact ⟨_, throughWire_str conv hcolumn h, .inl rfl⟩
  | bool b =>
    cases hfirst
    exact ⟨_, throughWire_bool conv hcolumn h, .inl rfl⟩
  | bytes b =>
    cases hfirst
    exact ⟨_, throughWire_bytes conv hcolumn h, .inl rfl⟩
  | list xs =>
    obtain ⟨text, htext⟩ := hfits
    cases hfirst <;>
      exact ⟨_, throughWire_json conv hcolumn h htext (hloads _ _ rfl htext), .inl rfl⟩
  | dict kvs =>
    obtain ⟨text, htext⟩ := hfits
    cases hfirst <;>
      exact ⟨_, throughWire_json conv hcolumn h htext (hloads _ _ rfl htext), .inl rfl⟩
  | decimal sign coefficient exponent hrange =>
    obtain _ | ⟨sign', coefficient', exponent', hrange'⟩ := hfirst
    rw [throughWire_decimal conv hcolumn h]
    by_cases hscaled : exponent' < 0
    · rw [if_pos hscaled]
      have hne : -exponent' ≠ 0 := by omega
      obtain ⟨w, hw, hnumber⟩ := @decodeFixed_scaled lib sign coefficient exponent hrange _ hne
      exact ⟨w, hw, .inr ⟨_, rfl, hnumber⟩⟩
    · rw [if_neg hscaled]
      obtain ⟨hwhole, hfew⟩ := hfits.resolve_left hscaled
      have hnonneg : 0 ≤ exponent := not_lt.mp hwhole
      obtain ⟨w, hw, hnumber⟩ := decodeFixed_whole lib sign coefficient exponent hnonneg
        ((short_fixedNumeral_iff sign coefficient exponent hnonneg).mpr hfew)
      exact ⟨w, hw, .inr ⟨_, rfl, hnumber⟩⟩

/-- A cell of the kind that does not fit is refused. -/
theorem fits_of_throughWire {kind : CellKind} (hcolumn : column.TypedBy first)
    (hfirst : kind.Holds first) (hkind : kind.Holds v) (h : row.lookup column.name = some v)
    {w : Value} (hw : throughWire conv lib row column = .ok w) : Fits first v := by
  cases hkind with
  | int n =>
    cases hfirst
    rw [throughWire_eq conv h, hcolumn.1] at hw
    obtain ⟨text, htext, -⟩ := bind_eq_ok.mp hw
    obtain ⟨digits, hdigits, -⟩ := map_eq_ok.mp htext
    exact (intStr_eq_ok.mp hdigits).1
  | str s => trivial
  | bool b => trivial
  | bytes b => trivial
  | list xs => cases hfirst <;> exact dumps_of_throughWire conv hcolumn h hw
  | dict kvs => cases hfirst <;> exact dumps_of_throughWire conv hcolumn h hw
  | decimal sign coefficient exponent hrange =>
    obtain _ | ⟨sign', coefficient', exponent', hrange'⟩ := hfirst
    by_cases hscaled : exponent' < 0
    · exact .inl hscaled
    rw [throughWire_decimal conv hcolumn h, if_neg hscaled] at hw
    have hwhole : ¬ exponent < 0 := by
      intro hpoint
      obtain ⟨e, he⟩ := @decodeFixed_point lib sign coefficient exponent hrange hpoint
      rw [he] at hw
      cases hw
    refine .inr ⟨hwhole, (short_fixedNumeral_iff sign coefficient exponent (not_lt.mp hwhole)).mp ?_⟩
    by_contra hlong
    obtain ⟨e, he⟩ := @decodeFixed_long lib sign coefficient exponent hrange (not_lt.mp hwhole) hlong
    rw [he] at hw
    cases hw

end Cells

/-! ### Tables -/

/-- Dict rows over the same distinct names, the cells of each column of one kind. `json.loads` inverts
`json.dumps` on the containers among them. -/
structure Table (lib : Builtins) (rows : List DictRow) (names : List PyStr) : Prop where
  rows_ne : rows ≠ []
  nodup : names.Nodup
  keys : ∀ row ∈ rows, (row.map Prod.fst).Perm names
  kinds : ∀ name ∈ names, ∃ kind : CellKind, ∀ v ∈ columnCells rows name, kind.Holds v
  loads : ∀ row ∈ rows, ∀ name j text, row.lookup name = some (.container j) →
    dumps .default j = .ok text → lib.loads (.str text) = .ok j

/-- The cells of a column fit its first one. -/
def ColumnFits (cells : List Value) : Prop :=
  ∀ first, cells.head? = some first → ∀ v ∈ cells, Fits first v

theorem mem_of_lookup {β : Type} {d : List (PyStr × β)} {name : PyStr} {b : β}
    (h : d.lookup name = some b) : name ∈ d.map Prod.fst := by
  induction d with
  | nil => cases h
  | cons entry d ih =>
    rw [List.lookup_cons] at h
    rw [List.map_cons, List.mem_cons]
    by_cases hname : name = entry.1
    · exact .inl hname
    · rw [beq_false_of_ne hname] at h
      exact .inr (ih h)

theorem lookup_of_mem {β : Type} {d : List (PyStr × β)} {name : PyStr}
    (h : name ∈ d.map Prod.fst) : ∃ b, d.lookup name = some b := by
  induction d with
  | nil => cases h
  | cons entry d ih =>
    rw [List.lookup_cons]
    by_cases hname : name = entry.1
    · rw [hname, beq_self_eq_true]
      exact ⟨entry.2, rfl⟩
    · rw [beq_false_of_ne hname]
      rw [List.map_cons, List.mem_cons] at h
      exact ih (h.resolve_left hname)

theorem mem_columnCells {rows : List DictRow} {name : PyStr} {v : Value} :
    v ∈ columnCells rows name ↔ ∃ row ∈ rows, row.lookup name = some v ∧ v ≠ .none := by
  rw [columnCells, List.mem_filterMap]
  refine exists_congr fun row => and_congr_right fun _ => ?_
  rw [DictRow.cell?]
  constructor
  · intro h
    split at h
    · cases h
    · next hnone =>
      refine ⟨h, ?_⟩
      rintro rfl
      exact hnone h
  · rintro ⟨h, hv⟩
    rw [h]
    cases v with
    | none => exact absurd rfl hv
    | _ => rfl

namespace Table

variable {conv : Conversions} {lib : Builtins} {rows : List DictRow} {names : List PyStr}

/-- A `None`, or a cell of the kind of the first one. -/
theorem cell_cases (h : Table lib rows names) {row : DictRow} (hrow : row ∈ rows) {name : PyStr}
    (hname : name ∈ names) : row.lookup name = some .none ∨
      ∃ v first, ∃ kind : CellKind, row.lookup name = some v ∧ v ∈ columnCells rows name ∧
        (columnCells rows name).head? = some first ∧ kind.Holds first ∧ kind.Holds v ∧
        (columnOf rows name).TypedBy first := by
  obtain ⟨v, hv⟩ := lookup_of_mem ((h.keys row hrow).mem_iff.mpr hname)
  by_cases hnone : v = .none
  · rw [hnone] at hv
    exact .inl hv
  have hmem : v ∈ columnCells rows name := mem_columnCells.mpr ⟨row, hrow, hv, hnone⟩
  obtain ⟨kind, hkind⟩ := h.kinds name hname
  cases hcells : columnCells rows name with
  | nil =>
    rw [hcells] at hmem
    cases hmem
  | cons first rest =>
    have hfirst : first ∈ columnCells rows name := by simp [hcells]
    have htyped : (columnOf rows name).TypedBy first := by
      rw [columnOf, hcells]
      exact ⟨rfl, rfl⟩
    rw [← hcells]
    refine .inr ⟨v, first, kind, hv, hmem, ?_, hkind _ hfirst, hkind _ hmem, htyped⟩
    rw [hcells]
    rfl

/-- The columns of the registration. -/
theorem normalizeColumns_eq (h : Table lib rows names) : ∃ header : List PyStr,
    header.Perm names ∧
      normalizeColumns (rows.map .dict) none = .ok (header.map (columnOf rows)) := by
  obtain ⟨row, rest, rfl⟩ := List.exists_cons_of_ne_nil h.rows_ne
  refine ⟨row.map Prod.fst, h.keys row (by simp), ?_⟩
  have hinferred : ∀ entry ∈ row.zipIdx, inferred ((row :: rest).map .dict) entry.1.1 entry.2 =
      Except.ok (columnOf (row :: rest) entry.1.1) := by
    intro entry hentry
    refine inferred_dict (fun row' hrow => lookup_of_mem ?_) entry.2
    have hkey : entry.1.1 ∈ row.map Prod.fst :=
      List.mem_map_of_mem (List.fst_mem_of_mem_zipIdx hentry)
    rwa [(h.keys row' hrow).mem_iff, ← (h.keys row (by simp)).mem_iff]
  have hcolumns : row.zipIdx.map (fun entry => columnOf (row :: rest) entry.1.1) =
      (row.map Prod.fst).map (columnOf (row :: rest)) :=
    calc row.zipIdx.map (fun entry => columnOf (row :: rest) entry.1.1)
      _ = ((row.zipIdx.map Prod.fst).map Prod.fst).map (columnOf (row :: rest)) := by
        rw [List.map_map, List.map_map]
        rfl
      _ = (row.map Prod.fst).map (columnOf (row :: rest)) := by
        rw [List.zipIdx_map_fst]
  show (row.zipIdx.mapM fun entry => inferred ((row :: rest).map .dict) entry.1.1 entry.2) = _
  rw [mapM_congr hinferred, ← hcolumns]
  exact List.mapM_pure

/-- The cells of a row, where they fit. -/
theorem throughWire_row (h : Table lib rows names)
    (hfits : ∀ name ∈ names, ColumnFits (columnCells rows name)) {row : DictRow}
    (hrow : row ∈ rows) {name : PyStr} (hname : name ∈ names) :
    ∃ w, throughWire conv lib row (columnOf rows name) = .ok w ∧
      ∀ v, row.lookup name = some v → SameValue v w := by
  have hcolumn := columnOf_name rows name
  rcases h.cell_cases hrow hname with hnone | ⟨v, first, kind, hv, hmem, hhead, hfirstKind, hkind, htyped⟩
  · refine ⟨.none, throughWire_none conv (by rw [hcolumn, hnone]), fun v hv => ?_⟩
    rw [hnone] at hv
    cases hv
    exact .inl rfl
  · have hlookup : row.lookup (columnOf rows name).name = some v := by rw [hcolumn, hv]
    have hloads : ∀ j text, v = .container j → dumps .default j = .ok text →
        lib.loads (.str text) = .ok j := by
      rintro j text rfl htext
      exact h.loads row hrow name j text hv htext
    obtain ⟨w, hw, hsame⟩ := throughWire_same conv htyped hfirstKind hkind hlookup hloads
      (hfits name hname first hhead v hmem)
    refine ⟨w, hw, fun v' hv' => ?_⟩
    rw [hv] at hv'
    cases hv'
    exact hsame

/-- A column whose cells all come back fits. -/
theorem columnFits (h : Table lib rows names) {name : PyStr} (hname : name ∈ names)
    (hcells : ∀ row ∈ rows, ∃ w, throughWire conv lib row (columnOf rows name) = .ok w) :
    ColumnFits (columnCells rows name) := by
  intro first hfirst v hv
  obtain ⟨row, hrow, hlookup, hvalue⟩ := mem_columnCells.mp hv
  rcases h.cell_cases hrow hname with hnone | ⟨v', first', kind, hv', -, hhead, hfirstKind, hkind, htyped⟩
  · rw [hnone] at hlookup
    cases hlookup
    exact absurd rfl hvalue
  rw [hlookup] at hv'
  cases hv'
  rw [hfirst] at hhead
  cases hhead
  have hcolumn : row.lookup (columnOf rows name).name = some v := by rw [columnOf_name, hlookup]
  obtain ⟨w, hw⟩ := hcells row hrow
  exact fits_of_throughWire conv htyped hfirstKind hkind hcolumn hw

end Table

/-! ### The round trip -/

theorem lookup_zip {P : PyStr → Value → Prop} {header : List PyStr} {values : List Value}
    (h : List.Forall₂ P header values) {name : PyStr} (hname : name ∈ header) :
    ∃ w, ((header.map Key.str).zip values).lookup (.str name) = some w ∧ P name w := by
  induction h with
  | nil => cases hname
  | @cons first value header values hfirst _ ih =>
    rw [List.map_cons, List.zip_cons_cons, List.lookup_cons]
    by_cases heq : name = first
    · subst heq
      rw [beq_self_eq_true]
      exact ⟨value, rfl, hfirst⟩
    · have hne : Key.str name ≠ Key.str first := fun hkey => heq (Key.str.inj hkey)
      rw [beq_false_of_ne hne]
      exact ih ((List.mem_cons.mp hname).resolve_left heq)

/-- A row made of the header's values. -/
theorem sameRow_zip {row : DictRow} {header : List PyStr} {values : List Value}
    (hkeys : (row.map Prod.fst).Perm header)
    (h : List.Forall₂ (fun name w => ∀ v, row.lookup name = some v → SameValue v w) header values) :
    SameRow row ((header.map Key.str).zip values) := by
  refine ⟨?_, fun name v hv => ?_⟩
  · have hlength : (header.map Key.str).length ≤ values.length := by
      rw [List.length_map, h.length_eq]
    rw [List.map_fst_zip hlength]
    have hperm := (hkeys.map Key.str).symm
    rwa [List.map_map] at hperm
  · obtain ⟨w, hw, hsame⟩ := lookup_zip h (hkeys.mem_iff.mp (mem_of_lookup hv))
    exact ⟨w, hw, hsame v hv⟩

theorem wireRows_eq_ok {conv : Conversions} {r : Registration} {normal columns : List Column}
    {wire : List WireRow} (h : normalizeColumns r.rows r.columns = .ok normal) :
    wireRows conv r = .ok (columns, wire) ↔
      columns = normal ∧ r.rows.mapM (encodeRow conv normal) = .ok wire := by
  rw [wireRows, h]
  cases hwire : r.rows.mapM (encodeRow conv normal) with
  | error e => simp [bind, Except.bind, hwire]
  | ok wire' => simp [bind, Except.bind, pure, Except.pure, hwire, eq_comm]

theorem exists_build {conv : Conversions} {r : Registration} {columns : List Column}
    {wire : List WireRow} (h : wireRows conv r = .ok (columns, wire)) (hpartitions : 1 ≤ r.partitions)
    (hsize : r.partitions ≤ maxSize) : ∃ reg, build conv r = .ok reg := by
  have hsplit : ∃ chunks, split wire r.partitions = .ok chunks := by
    rw [split, if_neg (by omega)]
    split
    · exact ⟨_, rfl⟩
    · rw [if_neg (by omega)]
      exact ⟨_, rfl⟩
  obtain ⟨chunks, hchunks⟩ := hsplit
  rw [build, h]
  dsimp only
  split
  · next e he =>
    rw [hchunks] at he
    cases he
  · exact ⟨_, rfl⟩

/-- The columns of a result that `_columns_from` takes from the registration. -/
theorem columns_of_entries {columns : List Column} (hnodup : (columns.map Column.name).Nodup) :
    (columns.map Column.entry).mapM ColumnMeta.fromRowType = .ok (columns.map Column.meta) ∧
      validateColumnNames (columns.map Column.meta) (py "results") = .ok () := by
  refine ⟨?_, ?_⟩
  · rw [List.mapM_map]
    have hentry : ColumnMeta.fromRowType ∘ Column.entry = fun column => Except.ok column.meta :=
      funext fromRowType_entry
    rw [hentry]
    exact List.mapM_pure
  · rw [validateColumnNames, keys_meta]
    exact if_pos (keys_nodup hnodup)

/-- What a client makes of a registered table. -/
theorem resultRows_eq_ok {conv : Conversions} {lib : Builtins} {rows : List DictRow}
    {names : List PyStr} (h : Table lib rows names) {r : Registration}
    (hrows : r.rows = rows.map .dict) (hcolumns : r.columns = none) {reg : Reg}
    (hbuild : build conv r = .ok reg) : ∃ header : List PyStr, header.Perm names ∧ ∀ out,
      Session.resultRows lib reg = .ok out ↔ List.Forall₂ (fun row o => ∃ values,
        header.mapM (fun name => throughWire conv lib row (columnOf rows name)) = .ok values ∧
          o = (header.map Key.str).zip values) rows out := by
  obtain ⟨columns, wire, hwireRows, htypes, -, -, hchunks, -, -⟩ := build_eq_ok hbuild
  obtain ⟨header, hperm, hnormal⟩ := h.normalizeColumns_eq
  rw [← hrows, ← hcolumns] at hnormal
  obtain ⟨rfl, hwire⟩ := (wireRows_eq_ok hnormal).mp hwireRows
  rw [hrows] at hwire
  have hnames : (header.map (columnOf rows)).map Column.name = header := by
    rw [List.map_map]
    conv_rhs => rw [← List.map_id header]
    exact List.map_congr_left fun name _ => columnOf_name rows name
  have hnodup : ((header.map (columnOf rows)).map Column.name).Nodup := by
    rw [hnames]
    exact hperm.nodup_iff.mpr h.nodup
  have hkeys : ((header.map (columnOf rows)).map fun column => Key.str column.name) =
      header.map Key.str := by
    rw [List.map_map]
    exact List.map_congr_left fun name _ => congrArg Key.str (columnOf_name rows name)
  obtain ⟨hparsed, hvalid⟩ := columns_of_entries hnodup
  refine ⟨header, hperm, fun out => ?_⟩
  have hread := @wire_coerceRows conv lib _ rows wire hnodup hwire out
  rw [hkeys] at hread
  simp only [List.mapM_map] at hread
  rw [Session.resultRows, htypes, hparsed, hchunks]
  show (validateColumnNames _ _ >>= _) = _ ↔ _
  rw [hvalid]
  exact hread

/-- A query after a registration. -/
theorem query_registered (s : Session) {conv : Conversions} {lib : Builtins} {fake : Fake}
    {sql : PyStr} {r : Registration} {reg : Reg} (hbuild : build conv r = .ok reg)
    (hcarries : s.Carries reg) {started : ℚ} {clocks : List ℚ}
    (hpolls : r.pollsBeforeReady.toNat < clocks.length)
    (hclocks : ∀ clock ∈ clocks, clock < (s.pollCall .null started).deadline) :
    ∃ result, s.query lib (fake.step conv (.register sql r)).2 sql started clocks = some result ∧
      ∀ out, result = .ok out ↔ Session.resultRows lib reg = .ok out := by
  obtain ⟨columns, wire, -, -, -, -, -, hready, herror⟩ := build_eq_ok hbuild
  have hstep : fake.step conv (.register sql r) =
      (.ok none, { fake with exact := assocSet fake.exact sql reg }) := by
    rw [Fake.step, hbuild]
  have hlookup : Fake.lookup { fake with exact := assocSet fake.exact sql reg } (.str sql) =
      .ok (some reg) := by
    rw [Fake.lookup]
    · dsimp only
      rw [lookup_assocSet, if_pos rfl]
      rfl
  rw [hstep]
  exact Session.query_eq lib hlookup herror hcarries (hready ▸ hpolls) hclocks

/-- `register(sql, rows, partitions=partitions, polls_before_ready=polls)`. -/
def registration (rows : List DictRow) (partitions polls : Int) : Registration where
  rows := rows.map .dict
  partitions := partitions
  pollsBeforeReady := polls

section

variable {conv : Conversions} {lib : Builtins} {rows : List DictRow} {names : List PyStr}
  (h : Table lib rows names) (s : Session) (fake : Fake) (sql : PyStr) {partitions polls : Int}
  {started : ℚ} {clocks : List ℚ}
  (hcarries : ∀ reg, build conv (registration rows partitions polls) = .ok reg → s.Carries reg)
  (hpolls : polls.toNat < clocks.length)
  (hclocks : ∀ clock ∈ clocks, clock < (s.pollCall .null started).deadline)

include h hcarries hpolls hclocks

/-- Rows that come back fit, and so do the partitions. -/
theorem fits_of_query
    (hregister : (fake.step conv (.register sql (registration rows partitions polls))).1 = .ok none)
    {out : List Row} (hquery : s.query lib
      (fake.step conv (.register sql (registration rows partitions polls))).2 sql started clocks =
        some (.ok out)) :
    partitions ≤ maxSize ∧ ∀ name ∈ names, ColumnFits (columnCells rows name) := by
  cases hbuild : build conv (registration rows partitions polls) with
  | error e =>
    rw [Fake.step, hbuild] at hregister
    cases hregister
  | ok reg =>
    obtain ⟨header, hperm, hresult⟩ := resultRows_eq_ok h rfl rfl hbuild
    obtain ⟨result, hsome, hrows⟩ := @query_registered s conv lib fake sql _ reg hbuild
      (hcarries reg hbuild) started clocks hpolls hclocks
    rw [hquery] at hsome
    cases hsome
    have hall := (hresult out).mp ((hrows out).mp rfl)
    refine ⟨partitions_le_of_build hbuild, fun name hname => ?_⟩
    refine @Table.columnFits conv lib rows names h name hname fun row hrow => ?_
    obtain ⟨o, -, values, hvalues, -⟩ := exists_of_forall₂_left hall hrow
    exact ok_of_mem_mapM hvalues (hperm.mem_iff.mpr hname)

/-- Where they fit, the rows come back. -/
theorem query_of_fits (hpartitions : 1 ≤ partitions) (hsize : partitions ≤ maxSize)
    (hfits : ∀ name ∈ names, ColumnFits (columnCells rows name)) :
    (fake.step conv (.register sql (registration rows partitions polls))).1 = .ok none ∧
      ∃ out, s.query lib
          (fake.step conv (.register sql (registration rows partitions polls))).2 sql started clocks =
            some (.ok out) ∧ List.Forall₂ SameRow rows out := by
  have hcells : ∀ row ∈ rows, ∀ name ∈ names, ∃ w,
      throughWire conv lib row (columnOf rows name) = .ok w ∧
        ∀ v, row.lookup name = some v → SameValue v w :=
    fun row hrow name hname => h.throughWire_row hfits hrow hname
  obtain ⟨reg, hbuild⟩ : ∃ reg, build conv (registration rows partitions polls) = .ok reg := by
    obtain ⟨header, hperm, hnormal⟩ := h.normalizeColumns_eq
    have hencode : ∀ row ∈ rows.map RowInput.dict,
        ∃ w, encodeRow conv (header.map (columnOf rows)) row = .ok w := by
      intro input hinput
      obtain ⟨row, hrow, rfl⟩ := List.mem_map.mp hinput
      rw [encodeRow_dict]
      refine exists_mapM_ok fun column hcolumn => ?_
      obtain ⟨name, hname, rfl⟩ := List.mem_map.mp hcolumn
      obtain ⟨w, hw, -⟩ := hcells row hrow name (hperm.mem_iff.mp hname)
      obtain ⟨v, hv, hrest⟩ := bind_eq_ok.mp hw
      obtain ⟨text, htext, -⟩ := bind_eq_ok.mp hrest
      refine ⟨text, ?_⟩
      rw [hv]
      exact htext
    obtain ⟨wire, hwire⟩ := exists_mapM_ok hencode
    have hwireRows : wireRows conv (registration rows partitions polls) =
        .ok (header.map (columnOf rows), wire) := (wireRows_eq_ok hnormal).mpr ⟨rfl, hwire⟩
    exact exists_build hwireRows hpartitions hsize
  obtain ⟨header, hperm, hresult⟩ := resultRows_eq_ok h rfl rfl hbuild
  have hread : ∀ row ∈ rows, ∃ o, (∃ values,
      header.mapM (fun name => throughWire conv lib row (columnOf rows name)) = .ok values ∧
        o = (header.map Key.str).zip values) ∧ SameRow row o := by
    intro row hrow
    have hnames : ∀ name ∈ header, ∃ w, throughWire conv lib row (columnOf rows name) = .ok w ∧
        ∀ v, row.lookup name = some v → SameValue v w :=
      fun name hname => hcells row hrow name (hperm.mem_iff.mp hname)
    obtain ⟨values, hvalues⟩ := exists_forall₂ hnames
    refine ⟨_, ⟨values, mapM_eq_ok.mpr (hvalues.imp fun _ _ hw => hw.1), rfl⟩, ?_⟩
    exact sameRow_zip ((h.keys row hrow).trans hperm.symm) (hvalues.imp fun _ _ hw => hw.2)
  obtain ⟨out, hout⟩ := exists_forall₂ hread
  obtain ⟨result, hsome, hrows⟩ := @query_registered s conv lib fake sql _ reg hbuild
    (hcarries reg hbuild) started clocks hpolls hclocks
  refine ⟨by rw [Fake.step, hbuild], out, ?_, hout.imp fun _ _ ho => ho.2⟩
  rw [hsome, (hrows out).mpr ((hresult out).mpr (hout.imp fun _ _ ho => ho.1))]

/-- **A registered table comes back** unchanged, in order and without an exception, if and only if
the cells of each column fit the first of them, whose scale is that of the column, and no list is asked
for that is too long for Python. -/
theorem register_query_iff (hpartitions : 1 ≤ partitions) :
    ((fake.step conv (.register sql (registration rows partitions polls))).1 = .ok none ∧
      ∃ out, s.query lib
          (fake.step conv (.register sql (registration rows partitions polls))).2 sql started clocks =
            some (.ok out) ∧ List.Forall₂ SameRow rows out) ↔
      partitions ≤ maxSize ∧ ∀ name ∈ names, ColumnFits (columnCells rows name) := by
  refine ⟨?_, fun hfits =>
    query_of_fits h s fake sql hcarries hpolls hclocks hpartitions hfits.1 hfits.2⟩
  rintro ⟨hregister, out, hquery, -⟩
  exact fits_of_query h s fake sql hcarries hpolls hclocks hregister hquery

end

/-! ### Two tables -/

/-- A client of a fake whose sleep is short. -/
def sampleSession : Session where
  channel := ⟨fun _ => .error (.valueError []), fun _ => [], .ok, fun _ => rfl, rfl⟩
  draw _ := idleDraw
  requestId := py "r"
  canSleep := RetryPolicy.sleep_of_bounds .sync le_rfl (by norm_num [longestSleep])

theorem sampleSession_carries (reg : Reg) : sampleSession.Carries reg :=
  ⟨fun _ _ => rfl, fun _ _ _ => rfl, fun _ _ _ => rfl⟩

theorem sampleSession_deadline :
    ∀ clock ∈ [(0 : ℚ), 0], clock < (sampleSession.pollCall .null 0).deadline := by
  intro clock hclock
  have hzero : clock = 0 := by simpa using hclock
  subst hzero
  show (0 : ℚ) < 0 + 600
  norm_num

/-- `[{"D": a}, {"D": b}]`. -/
def decimalRows (a b : PyDecimal) : List DictRow :=
  [[(py "D", .decimal a)], [(py "D", .decimal b)]]

theorem decimalRows_cells (a b : PyDecimal) :
    columnCells (decimalRows a b) (py "D") = [.decimal a, .decimal b] := rfl

theorem decimalRows_table {a b : PyDecimal} (ha : CellKind.decimal.Holds (.decimal a))
    (hb : CellKind.decimal.Holds (.decimal b)) : Table sampleBuiltins (decimalRows a b) [py "D"] where
  rows_ne := by simp [decimalRows]
  nodup := List.nodup_singleton _
  keys := by
    intro row hrow
    rw [decimalRows, List.mem_pair] at hrow
    rcases hrow with rfl | rfl
    · rfl
    · rfl
  kinds := by
    intro name hname
    rw [List.mem_singleton] at hname
    subst hname
    refine ⟨.decimal, fun v hv => ?_⟩
    rw [decimalRows_cells, List.mem_pair] at hv
    rcases hv with rfl | rfl
    · exact ha
    · exact hb
  loads := by
    intro row hrow name j text hcell
    rw [decimalRows, List.mem_pair] at hrow
    rcases hrow with rfl | rfl
    · rw [List.lookup_cons] at hcell
      split at hcell <;> cases hcell
    · rw [List.lookup_cons] at hcell
      split at hcell <;> cases hcell

/-- `Decimal("1")` and `Decimal("2")`. -/
def one : PyDecimal := .finite false 1 0 (by decide)
def two : PyDecimal := .finite false 2 0 (by decide)

/-- `Decimal("1.5")` and then `Decimal("2")`. -/
theorem register_query_iff_pointFirst :
    ((Fake.step refusingConversions {} (.register (py "q")
        (registration (decimalRows oneAndHalf two) 2 1))).1 = .ok none ∧
      ∃ out, sampleSession.query sampleBuiltins (Fake.step refusingConversions {} (.register (py "q")
          (registration (decimalRows oneAndHalf two) 2 1))).2 (py "q") 0 [0, 0] =
            some (.ok out) ∧
          List.Forall₂ SameRow (decimalRows oneAndHalf two) out) := by
  refine (register_query_iff (decimalRows_table (.decimal _ _ _ _) (.decimal _ _ _ _)) sampleSession {}
    (py "q") (fun reg _ => sampleSession_carries reg) (by decide) sampleSession_deadline
    (by decide)).mpr ⟨by decide, ?_⟩
  intro name hname first hfirst v hv
  rw [List.mem_singleton] at hname
  subst hname
  rw [decimalRows_cells] at hfirst hv
  cases hfirst
  have hpoint : HasPoint (.decimal oneAndHalf) := show (-1 : Int) < 0 by decide
  rw [List.mem_pair] at hv
  rcases hv with rfl | rfl
  · exact .inl hpoint
  · exact .inl hpoint

/-- **`Decimal("1")` and then `Decimal("1.5")`**: all `Decimal`s, and they do not come back. -/
theorem register_query_loses_point :
    Table sampleBuiltins (decimalRows one oneAndHalf) [py "D"] ∧
    ¬ ((Fake.step refusingConversions {} (.register (py "q")
        (registration (decimalRows one oneAndHalf) 1 0))).1 = .ok none ∧
      ∃ out, sampleSession.query sampleBuiltins (Fake.step refusingConversions {} (.register (py "q")
          (registration (decimalRows one oneAndHalf) 1 0))).2 (py "q") 0 [0, 0] =
            some (.ok out) ∧
          List.Forall₂ SameRow (decimalRows one oneAndHalf) out) := by
  have htable : Table sampleBuiltins (decimalRows one oneAndHalf) [py "D"] :=
    decimalRows_table (.decimal _ _ _ _) (.decimal _ _ _ _)
  refine ⟨htable, ?_⟩
  rintro ⟨hregister, out, hquery, -⟩
  obtain ⟨-, hfits⟩ := fits_of_query htable sampleSession {} (py "q")
    (fun reg _ => sampleSession_carries reg) (by decide) sampleSession_deadline hregister hquery
  have hsecond := hfits (py "D") (List.mem_singleton.mpr rfl) _ rfl (.decimal oneAndHalf) (by
    rw [decimalRows_cells]
    simp)
  rcases hsecond with hfirst | ⟨hwhole, -⟩
  · exact absurd hfirst (lt_irrefl (0 : Int))
  · exact hwhole (show (-1 : Int) < 0 by decide)

end SnowflakeSqlApi.Testing
