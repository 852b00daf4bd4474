import SnowflakeSqlApi.Bindings
import SnowflakeSqlApi.Escaping

/-!
# Statement construction

`_client_base.py`: `buildPayload` is the JSON body of a statement request, and
`insertStatement` the SQL and the flat parameter list of a multi-row `INSERT`.

* `contextPayload_eq` writes the part of a body that does not depend on the statement as a
  fixed list of items after it.
* `lex_insertPrefix_valuesText` reads the generated SQL back as tokens: the identifiers are
  the caller's names, whatever characters these hold, and there is one placeholder
  for each bound value.
-/

namespace SnowflakeSqlApi

open SqlLexer

/-- The attributes of a client that go into every request body. -/
structure ClientContext where
  statementTimeout : Option Nat := none
  database : Option PyStr := none
  schema : Option PyStr := none
  warehouse : Option PyStr := none
  role : Option PyStr := none
  timezone : Option PyStr := none
  parameters : Dict := []
  timeout_pos : ∀ t, statementTimeout = some t → 0 < t := by simp

namespace ClientContext

/-- `if value: payload[key] = value`. -/
def setText (payload : Dict) (key : PyStr) : Option PyStr → Dict
  | some value => if value = [] then payload else payload.set key (.str value)
  | none => payload

/-- The statement parameters, with the time zone among them. -/
def parametersDict (ctx : ClientContext) : Dict := setText ctx.parameters (py "TIMEZONE") ctx.timezone

/-- `_build_payload` without bindings. -/
def contextPayload (ctx : ClientContext) (sql : PyStr) : Dict :=
  let payload : Dict := [(py "statement", .str sql)]
  let payload :=
    match ctx.statementTimeout with
    | some t => Dict.set payload (py "timeout") (.int t)
    | none => payload
  let payload := setText payload (py "database") ctx.database
  let payload := setText payload (py "schema") ctx.schema
  let payload := setText payload (py "warehouse") ctx.warehouse
  let payload := setText payload (py "role") ctx.role
  if ctx.parametersDict = [] then payload
  else Dict.set payload (py "parameters") (.obj ctx.parametersDict)

def buildPayload (ctx : ClientContext) (sql : PyStr) (params : List Value) : Except Exc Dict :=
  if params = [] then .ok (ctx.contextPayload sql)
  else do
    let bindings ← toBindings params
    pure ((ctx.contextPayload sql).set (py "bindings") (bindingsJson bindings))

/-! ### The items of a body -/

def textItem (key : PyStr) : Option PyStr → Dict
  | some value => if value = [] then [] else [(key, .str value)]
  | none => []

def timeoutItem (ctx : ClientContext) : Dict :=
  ctx.statementTimeout.elim [] fun t => [(py "timeout", .int t)]

def parametersItem (ctx : ClientContext) : Dict :=
  if ctx.parametersDict = [] then [] else [(py "parameters", .obj ctx.parametersDict)]

/-- What a body holds between the statement and the bindings. -/
def contextItems (ctx : ClientContext) : Dict :=
  ctx.timeoutItem ++ textItem (py "database") ctx.database ++ textItem (py "schema") ctx.schema
    ++ textItem (py "warehouse") ctx.warehouse ++ textItem (py "role") ctx.role
    ++ ctx.parametersItem

/-- The keys of `items` are among `keys`. -/
def Keyed (items : Dict) (keys : List PyStr) : Prop := ∀ k ∈ items.map Prod.fst, k ∈ keys

theorem Keyed.append {a b : Dict} {ks ls : List PyStr} (ha : Keyed a ks) (hb : Keyed b ls) :
    Keyed (a ++ b) (ks ++ ls) := by
  intro k hk
  rw [List.map_append, List.mem_append] at hk
  exact List.mem_append.mpr (hk.imp (ha k) (hb k))

theorem Keyed.notMem {items : Dict} {keys : List PyStr} (h : Keyed items keys) {key : PyStr}
    (hkey : key ∉ keys) : key ∉ items.map Prod.fst := fun hmem => hkey (h key hmem)

theorem keyed_single (key : PyStr) (value : Json) : Keyed [(key, value)] [key] := by
  intro k hk
  simpa using hk

theorem keyed_nil (keys : List PyStr) : Keyed [] keys := by
  intro k hk
  exact absurd hk (by simp)

theorem keyed_textItem (key : PyStr) (v : Option PyStr) : Keyed (textItem key v) [key] := by
  cases v with
  | none => exact keyed_nil _
  | some value =>
    rw [textItem]
    split
    · exact keyed_nil _
    · exact keyed_single _ _

theorem keyed_timeoutItem (ctx : ClientContext) : Keyed ctx.timeoutItem [py "timeout"] := by
  rw [timeoutItem]
  cases ctx.statementTimeout with
  | none => exact keyed_nil _
  | some t => exact keyed_single _ _

theorem keyed_parametersItem (ctx : ClientContext) :
    Keyed ctx.parametersItem [py "parameters"] := by
  rw [parametersItem]
  split
  · exact keyed_nil _
  · exact keyed_single _ _

/-- The keys of a body between the statement and the bindings. -/
theorem keyed_contextItems (ctx : ClientContext) : Keyed ctx.contextItems
    [py "timeout", py "database", py "schema", py "warehouse", py "role", py "parameters"] :=
  (((((keyed_timeoutItem ctx).append (keyed_textItem _ _)).append (keyed_textItem _ _)).append
    (keyed_textItem _ _)).append (keyed_textItem _ _)).append (keyed_parametersItem ctx)

theorem setText_eq {payload : Dict} {key : PyStr} (h : key ∉ payload.map Prod.fst)
    (v : Option PyStr) : setText payload key v = payload ++ textItem key v := by
  cases v with
  | none => simp [setText, textItem]
  | some value =>
    rw [setText, textItem]
    split
    · simp
    · exact assocSet_of_notMem _ h

/-- **A body is the statement followed by items that do not depend on it.** -/
theorem contextPayload_eq (ctx : ClientContext) (sql : PyStr) :
    ctx.contextPayload sql = (py "statement", .str sql) :: ctx.contextItems := by
  have hstatement := keyed_single (py "statement") (.str sql)
  have htimeout : (match ctx.statementTimeout with
      | some t => Dict.set [(py "statement", .str sql)] (py "timeout") (.int t)
      | none => [(py "statement", .str sql)]) =
      [(py "statement", .str sql)] ++ ctx.timeoutItem := by
    rw [timeoutItem]
    cases ctx.statementTimeout with
    | none => rfl
    | some t => exact assocSet_of_notMem _ (hstatement.notMem (by decide))
  have h1 := hstatement.append (keyed_timeoutItem ctx)
  have h2 := h1.append (keyed_textItem (py "database") ctx.database)
  have h3 := h2.append (keyed_textItem (py "schema") ctx.schema)
  have h4 := h3.append (keyed_textItem (py "warehouse") ctx.warehouse)
  have h5 := h4.append (keyed_textItem (py "role") ctx.role)
  rw [contextPayload, htimeout, setText_eq (h1.notMem (by decide)),
    setText_eq (h2.notMem (by decide)), setText_eq (h3.notMem (by decide)),
    setText_eq (h4.notMem (by decide)), contextItems, parametersItem]
  by_cases hp : ctx.parametersDict = []
  · rw [if_pos hp, if_pos hp]
    simp
  · rw [if_neg hp, if_neg hp, Dict.set, assocSet_of_notMem _ (h5.notMem (by decide))]
    simp

/-- The context that `del context["statement"]` leaves. -/
theorem del_statement (ctx : ClientContext) (sql : PyStr) :
    (ctx.contextPayload sql).del (py "statement") = ctx.contextItems := by
  rw [contextPayload_eq, Dict.del, List.filter_cons_of_neg (by simp), List.filter_eq_self]
  intro kv hkv
  have hmem : py "statement" ∉ ctx.contextItems.map Prod.fst :=
    (keyed_contextItems ctx).notMem (by decide)
  rw [decide_eq_true_eq]
  rintro he
  exact hmem (he ▸ List.mem_map_of_mem hkv)

theorem buildPayload_eq {ctx : ClientContext} {params : List Value} (hne : params ≠ [])
    {bindings : List (PyStr × BindingValue)} (h : toBindings params = .ok bindings) (sql : PyStr) :
    ctx.buildPayload sql params = .ok ((py "statement", .str sql) :: ctx.contextItems
      ++ [(py "bindings", bindingsJson bindings)]) := by
  rw [buildPayload, if_neg hne, h, contextPayload_eq]
  refine congrArg Except.ok (assocSet_of_notMem _ ?_)
  exact ((keyed_single _ _).append (keyed_contextItems ctx)).notMem (by decide)

end ClientContext

/-! ### `INSERT` statements -/

/-- `"(" + ", ".join(["?"] * width) + ")"`. -/
def placeholderText (width : Nat) : PyStr :=
  [ch '('] ++ join (py ", ") (List.replicate width (py "?")) ++ [ch ')']

/-- The SQL of an `INSERT` up to its values. -/
def insertPrefix (table : PyStr) (columns : List PyStr) : Except Exc PyStr := do
  let cols ← columns.mapM quoteIdentifier
  let name ← quoteName table
  pure (py "INSERT INTO " ++ name ++ py " (" ++ join (py ", ") cols ++ py ") VALUES ")

/-- `", ".join([placeholder] * n)`. -/
def valuesText (width n : Nat) : PyStr := join (py ", ") (List.replicate n (placeholderText width))

/-- The rows laid end to end, each checked for its width. -/
def flattenRows (width : Nat) : List (List Value) → Except Exc (List Value)
  | [] => .ok []
  | row :: rows =>
    if row.length ≠ width then
      .error (.config [lit "each row must have ", .int width, lit " values, got ", .int row.length])
    else do
      let rest ← flattenRows width rows
      pure (row ++ rest)

/-- `_ClientBase._insert_statement`. -/
def insertStatement (table : PyStr) (columns : List PyStr) (rows : List (List Value)) :
    Except Exc (Option (PyStr × List Value)) :=
  if columns = [] then .error (.config [lit "insert_many requires at least one column"])
  else if rows = [] then .ok none
  else do
    let flat ← flattenRows columns.length rows
    let head ← insertPrefix table columns
    pure (some (head ++ valuesText columns.length rows.length, flat))

theorem flattenRows_eq_ok {width : Nat} {rows : List (List Value)} {flat : List Value} :
    flattenRows width rows = .ok flat ↔ (∀ row ∈ rows, row.length = width) ∧ flat = rows.flatten := by
  induction rows generalizing flat with
  | nil => simp [flattenRows, eq_comm]
  | cons row rows ih =>
    rw [flattenRows]
    by_cases hw : row.length = width
    · rw [if_neg (not_not.mpr hw)]
      refine ⟨fun h => ?_, fun h => ?_⟩
      · cases hr : flattenRows width rows with
        | error e => rw [hr] at h; cases h
        | ok rest =>
          rw [hr] at h
          obtain ⟨hall, rfl⟩ := ih.mp hr
          cases h
          exact ⟨List.forall_mem_cons.mpr ⟨hw, hall⟩, rfl⟩
      · obtain ⟨hall, rfl⟩ := h
        rw [ih.mpr ⟨(List.forall_mem_cons.mp hall).2, rfl⟩]
        rfl
    · rw [if_pos hw]
      refine ⟨fun h => ?_, fun h => ?_⟩
      · cases h
      · exact absurd ((List.forall_mem_cons.mp h.1).1) hw

theorem insertStatement_eq_ok {table : PyStr} {columns : List PyStr} {rows : List (List Value)}
    {sql : PyStr} {flat : List Value} :
    insertStatement table columns rows = .ok (some (sql, flat)) ↔
      columns ≠ [] ∧ rows ≠ [] ∧ (∀ row ∈ rows, row.length = columns.length) ∧ flat = rows.flatten ∧
        ∃ head, insertPrefix table columns = .ok head ∧
          sql = head ++ valuesText columns.length rows.length := by
  rw [insertStatement]
  by_cases hc : columns = []
  · rw [if_pos hc]
    refine ⟨fun h => ?_, fun h => absurd hc h.1⟩
    cases h
  · rw [if_neg hc]
    by_cases hr : rows = []
    · rw [if_pos hr]
      refine ⟨fun h => ?_, fun h => absurd hr h.2.1⟩
      cases h
    · rw [if_neg hr]
      refine ⟨fun h => ?_, fun h => ?_⟩
      · cases hf : flattenRows columns.length rows with
        | error e => rw [hf] at h; cases h
        | ok flat' =>
          cases hp : insertPrefix table columns with
          | error e => rw [hf, hp] at h; cases h
          | ok head =>
            rw [hf, hp] at h
            cases h
            obtain ⟨hall, rfl⟩ := flattenRows_eq_ok.mp hf
            exact ⟨hc, hr, hall, rfl, head, rfl, rfl⟩
      · obtain ⟨_, _, hall, rfl, head, hp, rfl⟩ := h
        rw [flattenRows_eq_ok.mpr ⟨hall, rfl⟩, hp]
        rfl

/-! ### The generated text as tokens -/

/-- The tokens of one `(?, ..., ?)` group. -/
def groupTokens (width : Nat) : List Token :=
  [.punct (ch '(')] ++ [.punct (ch ',')].intercalate (List.replicate width [.punct (ch '?')])
    ++ [.punct (ch ')')]

/-- The tokens of an `INSERT` of `n` rows. -/
def insertTokens (table : PyStr) (columns : List PyStr) (n : Nat) : List Token :=
  [.word (py "INSERT"), .word (py "INTO")] ++ nameTokens table ++ [.punct (ch '(')]
    ++ [.punct (ch ',')].intercalate (columns.map fun c => [.ident c])
    ++ [.punct (ch ')'), .word (py "VALUES")]
    ++ [.punct (ch ',')].intercalate (List.replicate n (groupTokens columns.length))

theorem ends_comma : Ends (ch ',' :: [ch ' ']) [.punct (ch ',')] := by
  unfold Ends
  decide

theorem lex_placeholderText {width : Nat} (h : width ≠ 0) :
    lex (placeholderText width) = some (groupTokens width) := by
  have hopen : Ends [ch '('] [.punct (ch '(')] := by unfold Ends; decide
  have hmarks : lex (join (py ", ") (List.replicate width (py "?"))) =
      some ([.punct (ch ',')].intercalate (List.replicate width [.punct (ch '?')])) :=
    lex_join_replicate (by decide) ends_comma (by decide) h
  rw [placeholderText, groupTokens]
  exact lex_append (hopen.lex_append hmarks) rfl (by decide) (by decide)

theorem lex_valuesText {width n : Nat} (hw : width ≠ 0) (hn : n ≠ 0) :
    lex (valuesText width n) =
      some ([.punct (ch ',')].intercalate (List.replicate n (groupTokens width))) :=
  lex_join_replicate (by decide) ends_comma (lex_placeholderText hw) hn

theorem insertPrefix_eq_ok {table : PyStr} {columns : List PyStr} {head : PyStr} :
    insertPrefix table columns = .ok head ↔ ∃ cols name, columns.mapM quoteIdentifier = .ok cols ∧
      quoteName table = .ok name ∧
        head = py "INSERT INTO " ++ name ++ py " (" ++ join (py ", ") cols ++ py ") VALUES " := by
  rw [insertPrefix]
  cases hc : columns.mapM quoteIdentifier with
  | error e => simp [bind, Except.bind]
  | ok cols =>
    cases hn : quoteName table with
    | error e => simp [bind, Except.bind]
    | ok name => simp [bind, Except.bind, pure, Except.pure, eq_comm]

theorem count_intercalate {α : Type} [DecidableEq α] {a : α} {sep : List α} (h : sep.count a = 0)
    (xs : List (List α)) : (sep.intercalate xs).count a = (xs.map (List.count a)).sum := by
  cases xs with
  | nil => rfl
  | cons x xs =>
    rw [intercalate_cons, List.count_append, List.count_flatMap, List.map_cons, List.sum_cons]
    refine congrArg (x.count a + ·) (congrArg List.sum (List.map_congr_left fun y _ => ?_))
    rw [Function.comp_apply, List.count_append, h, Nat.zero_add]

/-- **There is one placeholder for each cell**, and none in a name. -/
theorem count_insertTokens (table : PyStr) (columns : List PyStr) (n : Nat) :
    (insertTokens table columns n).count (.punct (ch '?')) = n * columns.length := by
  have hcomma : [Token.punct (ch ',')].count (.punct (ch '?')) = 0 := by decide
  have hdot : [Token.punct (ch '.')].count (.punct (ch '?')) = 0 := by decide
  have hone : [Token.punct (ch '?')].count (.punct (ch '?')) = 1 := by decide
  have hopen : [Token.punct (ch '(')].count (.punct (ch '?')) = 0 := by decide
  have hclose : [Token.punct (ch ')')].count (.punct (ch '?')) = 0 := by decide
  have hinsert : [Token.word (py "INSERT"), .word (py "INTO")].count (.punct (ch '?')) = 0 := by
    decide
  have hvalues : [Token.punct (ch ')'), .word (py "VALUES")].count (.punct (ch '?')) = 0 := by
    decide
  have hnames : ∀ names : List PyStr,
      ((names.map fun c => [Token.ident c]).map (List.count (.punct (ch '?')))).sum = 0 := by
    intro names
    induction names with
    | nil => rfl
    | cons c names ih =>
      rw [List.map_cons, List.map_cons, List.sum_cons, ih]
      rfl
  have hgroup : (groupTokens columns.length).count (.punct (ch '?')) = columns.length := by
    rw [groupTokens, List.count_append, List.count_append, count_intercalate hcomma, hopen, hclose,
      List.map_replicate, List.sum_replicate, hone]
    simp
  rw [insertTokens, List.count_append, List.count_append, List.count_append, List.count_append,
    List.count_append, nameTokens, count_intercalate hdot, count_intercalate hcomma,
    count_intercalate hcomma, hnames, hnames, hinsert, hopen, hvalues, List.map_replicate,
    List.sum_replicate, hgroup]
  simp

/-- **The text of an `INSERT` is its tokens**: no name and no row count makes any other token. -/
theorem lex_insertPrefix_valuesText {table : PyStr} {columns : List PyStr} {head : PyStr} {n : Nat}
    (hcols : columns ≠ []) (hn : n ≠ 0) (h : insertPrefix table columns = .ok head) :
    lex (head ++ valuesText columns.length n) = some (insertTokens table columns n) := by
  obtain ⟨cols, name, hc, hname, rfl⟩ := insertPrefix_eq_ok.mp h
  have hinsert : Ends (py "INSERT INTO ") [.word (py "INSERT"), .word (py "INTO")] := by
    unfold Ends
    decide
  have hopen : Ends (py " (") [.punct (ch '(')] := by unfold Ends; decide
  have hvalues : Ends (py ") VALUES ") [.punct (ch ')'), .word (py "VALUES")] := by
    unfold Ends
    decide
  have hwidth : columns.length ≠ 0 := by simpa using hcols
  have hcolumns := lex_join_quoted (by decide) ends_comma hcols hc
  have hlast := lex_valuesText hwidth hn
  have htail := lex_append (t := py ") VALUES " ++ valuesText columns.length n) (c := ch ')')
    hcolumns rfl (by decide) (hvalues.lex_append hlast)
  have hfrom := lex_append (t := py " (" ++ (join [ch ',', ch ' '] cols ++
    (py ") VALUES " ++ valuesText columns.length n))) (c := ch ' ') (lex_quoteName hname) rfl
    (by decide) (hopen.lex_append htail)
  have hall := hinsert.lex_append hfrom
  have hsep : py ", " = [ch ',', ch ' '] := rfl
  rw [hsep, insertTokens]
  simpa only [List.append_assoc] using hall

end SnowflakeSqlApi
