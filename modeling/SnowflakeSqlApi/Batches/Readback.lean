import SnowflakeSqlApi.Batches.Agreement
import SnowflakeSqlApi.Python.Utf8

/-!
# What a server reads in a batch

A server decodes the content of a batch with `json.loads`.  `batch_reads` says what it finds
there, whatever the planner did before: the payload of the plain path, with the statement, and
under each key `"1"`, `"2"`, ... the binding of that cell of the rows.

It takes a client whose `parameters` are what a `dict` of JSON values can be
(`ClientContext.Loads`); nothing is asked of the rows, since a batch that cannot be encoded is
never emitted.
-/

namespace SnowflakeSqlApi

/-! ### Payloads that can be read -/

section Payload

variable {float : PyStr → PyFloat}

/-- The `parameters` of the client are a `dict` that `json.loads` gives back. -/
structure ClientContext.Loads (ctx : ClientContext) (float : PyStr → PyFloat) : Prop where
  keys : (ctx.parameters.map Prod.fst).Nodup
  values : ∀ kv ∈ ctx.parameters, Loadable float false kv.2

theorem loadable_str (s : PyStr) : Loadable float false (.str s) := .str (readable_false s)

theorem loadable_obj {kvs : Dict} (hkeys : (kvs.map Prod.fst).Nodup)
    (hvalues : ∀ kv ∈ kvs, Loadable float false kv.2) : Loadable float false (.obj kvs) :=
  .obj hkeys (fun kv _ => readable_false kv.1) hvalues

theorem loadable_binding (b : BindingValue) : Loadable float false b.toJson := by
  have hkeys : [py "type", py "value"].Nodup := by decide
  refine loadable_obj hkeys fun kv hkv => ?_
  rcases List.mem_cons.mp hkv with rfl | hkv
  · exact loadable_str _
  · rw [List.mem_singleton.mp hkv]
    cases b.value with
    | none => exact .null
    | some s => exact loadable_str s

theorem nodup_bindings {params : List Value} {bindings : List (PyStr × BindingValue)}
    (h : toBindings params = .ok bindings) : (bindings.map Prod.fst).Nodup := by
  rw [(toBindings_keys h).1]
  refine List.Nodup.map (fun i j hij => ?_) List.nodup_range
  have := strNat_injective hij
  omega

/-- The bindings of a payload. -/
def bindingItems (bindings : List (PyStr × BindingValue)) : Dict :=
  bindings.map fun kb => (kb.1, kb.2.toJson)

theorem nodup_bindingItems {params : List Value} {bindings : List (PyStr × BindingValue)}
    (h : toBindings params = .ok bindings) : ((bindingItems bindings).map Prod.fst).Nodup := by
  rw [bindingItems, List.map_map]
  exact nodup_bindings h

namespace ClientContext

variable {ctx : ClientContext}

theorem nodup_textItem (key : PyStr) (v : Option PyStr) :
    ((textItem key v).map Prod.fst).Nodup := by
  cases v with
  | none => exact List.nodup_nil
  | some value =>
    rw [textItem]
    split
    · exact List.nodup_nil
    · exact List.nodup_singleton key

/-- Items under a further key keep the keys apart. -/
theorem nodup_append_keyed {a b : Dict} {ks : List PyStr} {key : PyStr}
    (ha : (a.map Prod.fst).Nodup) (hb : (b.map Prod.fst).Nodup) (hks : Keyed a ks)
    (hkeyed : Keyed b [key]) (hkey : key ∉ ks) : ((a ++ b).map Prod.fst).Nodup := by
  rw [List.map_append]
  refine ha.append hb fun k hk hk' => hkey ?_
  rw [← List.mem_singleton.mp (hkeyed k hk')]
  exact hks k hk

theorem nodup_contextItems (ctx : ClientContext) : (ctx.contextItems.map Prod.fst).Nodup := by
  have htimeout : (ctx.timeoutItem.map Prod.fst).Nodup := by
    rw [timeoutItem]
    cases ctx.statementTimeout with
    | none => exact List.nodup_nil
    | some t => exact List.nodup_singleton _
  have hparameters : (ctx.parametersItem.map Prod.fst).Nodup := by
    rw [parametersItem]
    split
    · exact List.nodup_nil
    · exact List.nodup_singleton _
  have h1 := keyed_timeoutItem ctx
  have h2 := h1.append (keyed_textItem (py "database") ctx.database)
  have h3 := h2.append (keyed_textItem (py "schema") ctx.schema)
  have h4 := h3.append (keyed_textItem (py "warehouse") ctx.warehouse)
  have h5 := h4.append (keyed_textItem (py "role") ctx.role)
  have hdatabase := nodup_append_keyed htimeout (nodup_textItem _ ctx.database) h1
    (keyed_textItem (py "database") _) (by decide)
  have hschema := nodup_append_keyed hdatabase (nodup_textItem _ ctx.schema) h2
    (keyed_textItem (py "schema") _) (by decide)
  have hwarehouse := nodup_append_keyed hschema (nodup_textItem _ ctx.warehouse) h3
    (keyed_textItem (py "warehouse") _) (by decide)
  have hrole := nodup_append_keyed hwarehouse (nodup_textItem _ ctx.role) h4
    (keyed_textItem (py "role") _) (by decide)
  exact nodup_append_keyed hrole hparameters h5 (keyed_parametersItem ctx) (by decide)

theorem Loads.parametersDict (h : ctx.Loads float) :
    Loadable float false (.obj ctx.parametersDict) := by
  rw [ClientContext.parametersDict]
  cases ctx.timezone with
  | none => exact loadable_obj h.keys h.values
  | some value =>
    rw [setText]
    by_cases hv : value = []
    · rw [if_pos hv]
      exact loadable_obj h.keys h.values
    · rw [if_neg hv]
      refine loadable_obj (nodup_assocSet h.keys _ _) fun kv hkv => ?_
      rcases mem_assocSet hkv with rfl | hkv
      · exact loadable_str value
      · exact h.values kv hkv

theorem loadable_textItem (key : PyStr) (v : Option PyStr) :
    ∀ kv ∈ textItem key v, Loadable float false kv.2 := by
  intro kv hkv
  cases v with
  | none => cases hkv
  | some value =>
    rw [textItem] at hkv
    split at hkv
    · cases hkv
    · rw [List.mem_singleton.mp hkv]
      exact loadable_str value

theorem Loads.contextItems (h : ctx.Loads float) :
    ∀ kv ∈ ctx.contextItems, Loadable float false kv.2 := by
  intro kv hkv
  rw [ClientContext.contextItems] at hkv
  simp only [List.mem_append] at hkv
  rcases hkv with ((((hkv | hkv) | hkv) | hkv) | hkv) | hkv
  · rw [timeoutItem] at hkv
    cases ht : ctx.statementTimeout with
    | none =>
      rw [ht] at hkv
      cases hkv
    | some t =>
      rw [ht] at hkv
      rw [List.mem_singleton.mp hkv]
      exact .int _
  · exact loadable_textItem _ _ kv hkv
  · exact loadable_textItem _ _ kv hkv
  · exact loadable_textItem _ _ kv hkv
  · exact loadable_textItem _ _ kv hkv
  · rw [parametersItem] at hkv
    split at hkv
    · cases hkv
    · rw [List.mem_singleton.mp hkv]
      exact h.parametersDict

end ClientContext

theorem loadable_bindings {params : List Value} {bindings : List (PyStr × BindingValue)}
    (h : toBindings params = .ok bindings) : Loadable float false (bindingsJson bindings) := by
  refine loadable_obj (nodup_bindingItems h) fun kv hkv => ?_
  obtain ⟨kb, -, rfl⟩ := List.mem_map.mp hkv
  exact loadable_binding kb.2

/-- The keys of a payload are six names and two more. -/
theorem nodup_payload (ctx : ClientContext) (statement bindings : Json) :
    (((py "statement", statement) :: ctx.contextItems ++ [(py "bindings", bindings)]).map
      Prod.fst).Nodup := by
  have hstatement := ClientContext.keyed_single (py "statement") statement
  have hitems : py "statement" ∉ ctx.contextItems.map Prod.fst :=
    ctx.keyed_contextItems.notMem (by decide)
  exact ClientContext.nodup_append_keyed (List.nodup_cons.mpr ⟨hitems, ctx.nodup_contextItems⟩)
    (List.nodup_singleton _) (hstatement.append ctx.keyed_contextItems)
    (ClientContext.keyed_single _ bindings) (by decide)

/-- **A payload is read back**, as it was built. -/
theorem loadable_payload {ctx : ClientContext} (hctx : ctx.Loads float) {params : List Value}
    {bindings : List (PyStr × BindingValue)} (h : toBindings params = .ok bindings) (sql : PyStr) :
    Loadable float false (.obj ((py "statement", .str sql) :: ctx.contextItems
      ++ [(py "bindings", bindingsJson bindings)])) := by
  refine loadable_obj (nodup_payload ctx _ _) fun kv hkv => ?_
  rcases List.mem_append.mp hkv with hkv | hkv
  · rcases List.mem_cons.mp hkv with rfl | hkv
    · exact loadable_str sql
    · exact hctx.contextItems kv hkv
  · rw [List.mem_singleton.mp hkv]
    exact loadable_bindings h

end Payload

/-! ### Batches -/

section Batches

variable {codec : Encoding → Bytes → Option PyStr} {float : PyStr → PyFloat}
  {cfg : PlannerConfig} {src : Source} {table : PyStr} {columns : List PyStr}

/-- What a server that decodes `content` finds: the statement `sql`, and the cells of `rows` bound
under the keys `"1"`, `"2"`, ... in row-major order. -/
structure ReadsAs (payload : Dict) (sql : PyStr) (cells : List Value) : Prop where
  statement : payload.get? (py "statement") = some (.str sql)
  bindings : ∃ bindings, payload.get? (py "bindings") = some (.obj bindings) ∧
    bindings.length = cells.length ∧
    ∀ i, (h : i < cells.length) → ∃ b, bindOne cells[i] = .ok b ∧
      Dict.get? bindings (strNat (i + 1)) = some b.toJson

theorem get?_bindingItems {cells : List Value} {bindings : List (PyStr × BindingValue)}
    (h : toBindings cells = .ok bindings) {i : Nat} (hi : i < cells.length) :
    ∃ b, bindOne cells[i] = .ok b ∧
      Dict.get? (bindingItems bindings) (strNat (i + 1)) = some b.toJson := by
  obtain ⟨vs, hvs, rfl⟩ := toBindingsFrom_eq_ok.mp h
  have hlt : i < vs.length := hvs.length_eq ▸ hi
  refine ⟨vs[i], hvs.get hi hlt, ?_⟩
  have hmem : (strNat (i + 1), vs[i].toJson) ∈
      bindingItems (vs.mapIdx fun i b => (strNat (1 + i), b)) := by
    refine List.mem_map.mpr ⟨(strNat (i + 1), vs[i]), List.mem_iff_getElem.mpr ⟨i, ?_, ?_⟩, rfl⟩
    · rw [List.length_mapIdx]
      exact hlt
    · rw [List.getElem_mapIdx, Nat.add_comm 1]
  exact Dict.get?_of_mem (nodup_bindingItems h) hmem

theorem readsAs_payload {ctx : ClientContext} {cells : List Value}
    {bindings : List (PyStr × BindingValue)} (h : toBindings cells = .ok bindings) (sql : PyStr) :
    ReadsAs ((py "statement", .str sql) :: ctx.contextItems
      ++ [(py "bindings", bindingsJson bindings)]) sql cells where
  statement := rfl
  bindings := by
    have hmem : (py "bindings", bindingsJson bindings) ∈ (py "statement", Json.str sql) ::
        ctx.contextItems ++ [(py "bindings", bindingsJson bindings)] := by simp
    refine ⟨bindingItems bindings, Dict.get?_of_mem (nodup_payload ctx _ _) hmem, ?_, fun i hi =>
      get?_bindingItems h hi⟩
    obtain ⟨vs, hvs, rfl⟩ := toBindingsFrom_eq_ok.mp h
    rw [bindingItems, List.length_map, List.length_mapIdx, hvs.length_eq]

/-- What a server finds in a batch that agrees with the plain path. -/
theorem PreparedBatch.Agrees.reads {b : PreparedBatch} {ctx : ClientContext} {rows : List (List Value)}
    (h : b.Agrees table columns ctx rows) (hctx : ctx.Loads float) : ∃ payload,
    insertStatement table columns rows = .ok (some (b.sql, rows.flatten)) ∧
    ctx.buildPayload b.sql rows.flatten = .ok payload ∧
    loadsBytes codec float b.content = some (.obj payload) ∧ ReadsAs payload b.sql rows.flatten := by
  have hflat := (insertStatement_eq_ok.mp h.statement).2.2.2.1
  obtain ⟨payload, -, hpayload, hcontent, -⟩ := h.content
  have hstatement := h.statement
  rw [hflat] at hpayload hstatement
  have hparams : rows.flatten ≠ [] := by
    intro he
    obtain ⟨hcols, hrows, hwidth, -⟩ := insertStatement_eq_ok.mp hstatement
    have hlength := flatten_length hwidth
    rw [he, List.length_nil] at hlength
    rcases Nat.mul_eq_zero.mp hlength.symm with h0 | h0
    · exact hrows (List.eq_nil_of_length_eq_zero h0)
    · exact hcols (List.eq_nil_of_length_eq_zero h0)
  cases hbindings : toBindings rows.flatten with
  | error e =>
    rw [ClientContext.buildPayload, if_neg hparams, hbindings] at hpayload
    cases hpayload
  | ok bindings =>
    have hbuilt := ctx.buildPayload_eq hparams hbindings b.sql
    rw [hbuilt] at hpayload
    cases hpayload
    exact ⟨_, hstatement, hbuilt, loadsBytes_encode (loadable_payload hctx hbindings b.sql) hcontent,
      readsAs_payload hbindings b.sql⟩

/-- **A server reads the plain payload in every batch**: the content, decoded by `json.loads`, is
what `_build_payload` gives for the `INSERT` of the next rows, each cell bound under its own key. -/
theorem batch_reads {maxRows maxBytes : Int} {ctx : ClientContext} {p p' : Planner} {s : Nat}
    {b : PreparedBatch}
    (hcfg : PlannerConfig.make table columns maxRows maxBytes ctx = .ok cfg)
    (hctx : ctx.Loads float) (hreach : Planner.Reach cfg src p s)
    (hnext : p.nextBatch cfg src = (.ok (some b), p')) :
    ∃ rows payload, src.Lists s rows ∧
      insertStatement table columns rows = .ok (some (b.sql, rows.flatten)) ∧
      ctx.buildPayload b.sql rows.flatten = .ok payload ∧
      loadsBytes codec float b.content = some (.obj payload) ∧
      ReadsAs payload b.sql rows.flatten := by
  have hmade := madeFor_of_make hcfg
  have hspec := nextBatch_spec hmade.width_ne hmade.placeholder hmade.maxRows_pos (hreach.at hmade)
  obtain rfl := ctx_of_make hcfg
  rw [hnext] at hspec
  cases hspec with
  | @batch _ _ rows hne hrows hcarries _ _ _ _ =>
    obtain ⟨payload, hreads⟩ := @PreparedBatch.Agrees.reads codec _ _ _ _ _ _
      (hcarries.agrees hmade hne hrows.valid) hctx
    exact ⟨_, payload, hrows.lists, hreads⟩

theorem loads_pairContext (float : PyStr → PyFloat) : pairContext.Loads float where
  keys := List.nodup_nil
  values := fun _ h => nomatch h

theorem batch_reads_pairSource : ∃ b b' p p' rows payload,
    ({} : Planner).nextBatch pairConfig pairSource = (.ok (some b), p) ∧
    p.nextBatch pairConfig pairSource = (.ok (some b'), p') ∧
    pairSource.Lists (0 + b.rowCount) rows ∧
    loadsBytes (fun _ _ => none) .nonFinite b'.content = some (.obj payload) ∧
    ReadsAs payload b'.sql rows.flatten := by
  obtain ⟨b, hfirst⟩ := nextBatch_pairSource
  have hsecond : emitsBatch ((({} : Planner).nextBatch pairConfig pairSource).2.nextBatch pairConfig
      pairSource) = true := by decide +kernel
  obtain ⟨b', hb'⟩ := eq_of_emitsBatch hsecond
  obtain ⟨rows, payload, hrows, -, -, hloads, hreads⟩ :=
    batch_reads make_pairConfig (loads_pairContext _) (.batch .initial hfirst) hb'
  exact ⟨b, b', _, _, rows, payload, hfirst, hb', hrows, hloads, hreads⟩

end Batches

end SnowflakeSqlApi
