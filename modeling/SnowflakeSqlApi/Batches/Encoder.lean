import SnowflakeSqlApi.Batches.Planner

/-!
# The spliced body and the plain body

A batch body is spliced from a cached slice of the context, the encodings of the cells
and binding keys counted from an offset.  `payloadBytes` is the plain path: the whole
payload as one `dict`, encoded at once.

* `fragment_eq` says what a fragment is: its cells' encodings behind their keys.
* `payloadBytes_eq_ok` says the two paths give the same bytes.
* `body_valuesText` measures a body without building it.
-/

namespace SnowflakeSqlApi

/-- `_encode(self._build_payload(sql, params))`. -/
def payloadBytes (ctx : ClientContext) (sql : PyStr) (params : List Value) : Except Exc Bytes := do
  let payload ← ctx.buildPayload sql params
  encode (.obj payload)

/-! ### Binding keys -/

theorem escapeChar_digit {c : PyChar} (h : 48 ≤ c.val ∧ c.val ≤ 57) :
    escapeChar false c = [c] := by
  have hne : ∀ d : Char, d.toNat < 48 ∨ 57 < d.toNat → c ≠ ch d := by
    intro d hd he
    have hval : c.val = d.toNat := congrArg Fin.val he
    omega
  rw [escapeChar, if_neg (hne _ (by decide)), if_neg (hne _ (by decide)),
    if_neg (hne _ (by decide)), if_neg (hne _ (by decide)), if_neg (hne _ (by decide)),
    if_neg (by omega), if_neg (by omega), if_neg (by omega)]
  rfl

theorem plain_strNat (n : Nat) : Plain (strNat n) := by
  intro c hc
  have hdigit := mem_strNat_digit hc
  exact ⟨escapeChar_digit hdigit, by omega⟩

/-- The encoded key of a binding. -/
def keyBytes (n : Nat) : Bytes := [34] ++ (strNat n).map asciiByte ++ [34]

theorem encode_key (n : Nat) : encode (.str (strNat n)) = .ok (keyBytes n) := by
  have hempty : encode (.str []) = .ok ([34] ++ [34]) := encode_str_eq_ok.mpr (by decide)
  exact (encode_str_append_plain (s := []) (plain_strNat n)).mpr ⟨[34], hempty, rfl⟩

/-- The encodings of consecutive cells behind their keys, the first key being `offset + 1`. -/
def keyedParts (offset : Nat) (encs : List Bytes) : List Bytes :=
  encs.mapIdx fun i e => keyBytes (offset + (i + 1)) ++ 58 :: e

theorem keyedParts_ne_nil {encs : List Bytes} (h : encs ≠ []) (offset : Nat) :
    keyedParts offset encs ≠ [] := List.mapIdx_ne_nil_iff.mpr h

theorem keyedParts_cons (offset : Nat) (e : Bytes) (encs : List Bytes) :
    keyedParts offset (e :: encs) =
      (keyBytes (offset + 1) ++ 58 :: e) :: keyedParts (offset + 1) encs := by
  simp only [keyedParts, List.mapIdx_cons, Nat.zero_add, Nat.add_assoc, Nat.add_comm 1]

/-- The cells of a further row are keyed from the number of cells before it. -/
theorem keyedParts_append (offset : Nat) (encs encs' : List Bytes) :
    keyedParts offset (encs ++ encs') =
      keyedParts offset encs ++ keyedParts (offset + encs.length) encs' := by
  simp only [keyedParts, List.mapIdx_append]
  refine congrArg _ (congrArg (List.mapIdx · encs') ?_)
  funext i e
  have hidx : offset + (i + encs.length + 1) = offset + encs.length + (i + 1) := by omega
  rw [hidx]

theorem map_mapIdx {α β γ : Type} (f : Nat → α → β) (g : β → γ) (xs : List α) :
    (xs.mapIdx f).map g = xs.mapIdx fun i x => g (f i x) :=
  List.ext_getElem (by simp) fun i _ _ => by simp

/-- **A fragment is its keyed cells**, and is never refused. -/
theorem fragment_eq (encs : List Bytes) (offset : Nat) :
    fragment encs offset = .ok ([44].intercalate (keyedParts offset encs)) := by
  have hparts : ((encs.mapIdx fun i value => (offset + (i + 1), value)).mapM fun kv => do
      let key ← encode (.str (strNat kv.1))
      pure (key ++ 58 :: kv.2)) = Except.ok (keyedParts offset encs) := by
    simp only [encode_key]
    show List.mapM (fun kv : Nat × Bytes => pure (keyBytes kv.1 ++ 58 :: kv.2)) _ = _
    rw [List.mapM_pure, map_mapIdx]
    rfl
  rw [fragment, hparts]
  rfl

/-! ### Encoded records -/

/-- `e` is the encoding of the binding of `v`. -/
def CellEncodes (v : Value) (e : Bytes) : Prop := ∃ b, bindOne v = .ok b ∧ encode b.toJson = .ok e

theorem cellEncodes_iff {cells : List Value} {encs : List Bytes} :
    List.Forall₂ CellEncodes cells encs ↔
      ∃ bs, List.Forall₂ (fun v b => bindOne v = .ok b) cells bs ∧
        List.Forall₂ (fun (b : BindingValue) e => encode b.toJson = .ok e) bs encs := forall₂_comp

theorem mapIdx_snd {α : Type} (f : Nat → PyStr) (vs : List α) :
    (vs.mapIdx fun i b => (f i, b)).map Prod.snd = vs := by
  rw [map_mapIdx]
  exact List.ext_getElem (by simp) fun i _ _ => by simp

/-- **What a validated record is**: a sequence of the right width whose cells can all be bound and
encoded. -/
theorem encodeRecord_eq_ok {width : Nat} {r : Record} {row : EncodedRow} :
    encodeRecord width r = .ok row ↔
      r = .sequence row.1 ∧ row.1.length = width ∧ List.Forall₂ CellEncodes row.1 row.2 := by
  cases r with
  | notSequence => simp [encodeRecord]
  | sequence cells =>
    rw [encodeRecord]
    by_cases hw : cells.length = width
    · rw [if_neg (not_not.mpr hw), cellEncodes_iff]
      refine ⟨fun h => ?_, fun h => ?_⟩
      · cases hb : toBindings cells with
        | error e => rw [hb] at h; cases h
        | ok bs =>
          rw [hb] at h
          change (do let encoded ← bs.mapM fun kb => encode kb.2.toJson; pure (cells, encoded)) =
            Except.ok row at h
          cases he : bs.mapM fun kb => encode kb.2.toJson with
          | error e => rw [he] at h; cases h
          | ok encs =>
            rw [he] at h
            cases h
            obtain ⟨vs, hvs, rfl⟩ := toBindingsFrom_eq_ok.mp hb
            refine ⟨rfl, hw, vs, hvs, ?_⟩
            have hall := mapM_eq_ok.mp he
            rw [← mapIdx_snd (fun i => strNat (1 + i)) vs, List.forall₂_map_left_iff]
            exact hall
      · obtain ⟨hr, _, vs, hvs, hencs⟩ := h
        cases hr
        have hb : toBindings row.1 = .ok (vs.mapIdx fun i b => (strNat (1 + i), b)) :=
          toBindingsFrom_eq_ok.mpr ⟨vs, hvs, rfl⟩
        rw [← mapIdx_snd (fun i => strNat (1 + i)) vs, List.forall₂_map_left_iff] at hencs
        have he := mapM_eq_ok (f := fun kb : PyStr × BindingValue => encode kb.2.toJson).mpr hencs
        rw [hb]
        show (do
          let encoded ← (vs.mapIdx fun i b => (strNat (1 + i), b)).mapM fun kb => encode kb.2.toJson
          pure (row.1, encoded)) = Except.ok row
        rw [he]
        rfl
    · rw [if_pos hw]
      refine ⟨fun h => ?_, fun h => ?_⟩
      · cases h
      · obtain ⟨hr, hlen, _⟩ := h
        cases hr
        exact absurd hlen hw

/-! ### The two bodies -/

theorem encode_bindings {cells : List Value} {encs : List Bytes}
    (h : List.Forall₂ CellEncodes cells encs) :
    ∃ bindings, toBindings cells = .ok bindings ∧
      encode (bindingsJson bindings) =
        .ok (123 :: ([44].intercalate (keyedParts 0 encs) ++ [125])) := by
  obtain ⟨vs, hvs, hencs⟩ := cellEncodes_iff.mp h
  refine ⟨_, toBindingsFrom_eq_ok.mpr ⟨vs, hvs, rfl⟩, encode_obj_iff.mpr ⟨_, ?_, rfl⟩⟩
  clear hvs h
  have hkeyed : ∀ offset, List.Forall₂ ItemEncodes
      ((vs.mapIdx fun i b => (strNat (offset + 1 + i), b)).map fun kb => (kb.1, kb.2.toJson))
      (keyedParts offset encs) := by
    induction hencs with
    | nil => intro _; exact .nil
    | cons hb _ ih =>
      intro offset
      rw [keyedParts_cons, List.mapIdx_cons, List.map_cons]
      have htail := ih (offset + 1)
      simp only [Nat.add_assoc, Nat.add_comm 1] at htail ⊢
      exact .cons ⟨_, _, encode_key _, hb, rfl⟩ htail
  simpa using hkeyed 0

/-- The cached slice is the encoded context items, each behind a comma. -/
theorem contextBytes_eq_ok {ctx : ClientContext} {c : Bytes} :
    contextBytes ctx = .ok c ↔
      ∃ parts, List.Forall₂ ItemEncodes ctx.contextItems parts ∧ c = parts.flatMap ([44] ++ ·) := by
  have hinner : ∀ parts : List Bytes, List.Forall₂ ItemEncodes ctx.contextItems parts →
      (if [44].intercalate parts = [] then [] else 44 :: [44].intercalate parts) =
        parts.flatMap ([44] ++ ·) := by
    intro parts hparts
    cases parts with
    | nil => rfl
    | cons p parts =>
      have hne : p ≠ [] := by
        generalize ctx.contextItems = items at hparts
        obtain _ | ⟨hp, _⟩ := hparts
        exact hp.ne_nil
      rw [intercalate_cons, if_neg (by simp [hne])]
      rfl
  have hpayload : ctx.buildPayload [] [] = .ok (ctx.contextPayload []) := if_pos rfl
  rw [contextBytes, hpayload]
  show (do
    let encoded ← encode (.obj ((ctx.contextPayload []).del (py "statement")))
    pure (if (encoded.drop 1).dropLast = [] then [] else 44 :: (encoded.drop 1).dropLast)) =
      Except.ok c ↔ _
  rw [ctx.del_statement]
  refine ⟨fun h => ?_, fun h => ?_⟩
  · cases he : encode (.obj ctx.contextItems) with
    | error e => rw [he] at h; cases h
    | ok encoded =>
      rw [he] at h
      obtain ⟨parts, hparts, rfl⟩ := encode_obj_iff.mp he
      refine ⟨parts, hparts, ?_⟩
      rw [← hinner parts hparts, ← Except.ok.inj h]
      simp
  · obtain ⟨parts, hparts, rfl⟩ := h
    rw [encode_obj_iff.mpr ⟨parts, hparts, rfl⟩, ← hinner parts hparts]
    show Except.ok _ = _
    simp

theorem body_eq_ok {context : Bytes} {sql : PyStr} {bindings b : Bytes} :
    body context sql bindings = .ok b ↔ ∃ statement, encode (.str sql) = .ok statement ∧
      b = bytes "\x7b\"statement\":" ++ statement ++ context ++ bytes ",\"bindings\":\x7b"
        ++ bindings ++ bytes "\x7d\x7d" := by
  rw [body]
  cases encode (.str sql) with
  | error e => simp [bind, Except.bind]
  | ok statement => simp [bind, Except.bind, pure, Except.pure, eq_comm]

/-- **The spliced body is the plain body.** -/
theorem payloadBytes_eq_ok {ctx : ClientContext} {cells : List Value} {encs : List Bytes}
    (h : List.Forall₂ CellEncodes cells encs) (hne : cells ≠ []) {sql : PyStr} {b : Bytes} :
    payloadBytes ctx sql cells = .ok b ↔ ∃ c, contextBytes ctx = .ok c ∧
      body c sql ([44].intercalate (keyedParts 0 encs)) = .ok b := by
  obtain ⟨bindings, hb, henc⟩ := encode_bindings h
  have hstatement : encode (.str (py "statement")) = .ok (bytes "\"statement\"") :=
    encode_str_eq_ok.mpr (by decide)
  have hbindings : encode (.str (py "bindings")) = .ok (bytes "\"bindings\"") :=
    encode_str_eq_ok.mpr (by decide)
  rw [payloadBytes, ClientContext.buildPayload_eq hne hb]
  show encode _ = _ ↔ _
  rw [encode_obj_iff]
  refine ⟨fun hwhole => ?_, fun hspliced => ?_⟩
  · obtain ⟨parts, hparts, rfl⟩ := hwhole
    rw [List.cons_append, List.forall₂_cons_left_iff] at hparts
    obtain ⟨p, rest, ⟨k, statement, hk, hst, rfl⟩, hrest, rfl⟩ := hparts
    obtain ⟨items, last, hitems, hlast, rfl⟩ := forall₂_append_left.mp hrest
    obtain _ | ⟨⟨k', b', hk', hb', rfl⟩, hnil⟩ := hlast
    cases hnil
    rw [hstatement] at hk
    rw [hbindings] at hk'
    rw [henc] at hb'
    cases hk
    cases hk'
    cases hb'
    refine ⟨_, contextBytes_eq_ok.mpr ⟨items, hitems, rfl⟩, body_eq_ok.mpr ⟨_, hst, ?_⟩⟩
    rw [intercalate_cons, List.flatMap_append]
    simp [bytes, py, asciiByte, ch]
  · obtain ⟨c, hc, hbody⟩ := hspliced
    obtain ⟨items, hitems, rfl⟩ := contextBytes_eq_ok.mp hc
    obtain ⟨statement, hst, rfl⟩ := body_eq_ok.mp hbody
    refine ⟨(bytes "\"statement\"" ++ 58 :: statement) :: (items ++ [bytes "\"bindings\"" ++
      58 :: (123 :: ([44].intercalate (keyedParts 0 encs) ++ [125]))]), ?_, ?_⟩
    · exact .cons ⟨_, _, hstatement, hst, rfl⟩
        (forall₂_append_left.mpr ⟨_, _, hitems, .cons ⟨_, _, hbindings, henc, rfl⟩ .nil, rfl⟩)
    · rw [intercalate_cons, List.flatMap_append]
      simp [bytes, py, asciiByte, ch]

/-! ### The size of a body -/

theorem plain_placeholderText (width : Nat) : Plain (placeholderText width) := by
  have hopen : Plain [ch '('] := by decide
  have hclose : Plain [ch ')'] := by decide
  have hmarks : ∀ c ∈ join (py ", ") (List.replicate width (py "?")), c ∈ py ", ?" := by
    cases width with
    | zero => intro c hc; exact absurd hc (by simp [join])
    | succ n =>
      rw [List.replicate_succ, join, intercalate_cons]
      intro c hc
      rcases List.mem_append.mp hc with hc | hc
      · exact List.mem_append_right (py ", ") hc
      · obtain ⟨part, hpart, hc⟩ := List.mem_flatMap.mp hc
        rw [List.eq_of_mem_replicate hpart] at hc
        exact hc
  refine (hopen.append fun c hc => ?_).append hclose
  have hall : Plain (py ", ?") := by decide
  exact hall c (hmarks c hc)

theorem valuesText_succ (width : Nat) {n : Nat} (hn : n ≠ 0) :
    valuesText width (n + 1) = valuesText width n ++ (py ", " ++ placeholderText width) := by
  have hne : List.replicate n (placeholderText width) ≠ [] := by
    rw [Ne, List.replicate_eq_nil_iff]
    exact hn
  rw [valuesText, List.replicate_succ', join, intercalate_append _ hne (List.cons_ne_nil _ _),
    valuesText, join, List.append_assoc]
  simp

theorem valuesText_one (width : Nat) : valuesText width 1 = placeholderText width := by
  simp [valuesText, join]

theorem encode_str_append_length {s t : PyStr} {b : Bytes} (ht : Plain t)
    (h : encode (.str s) = .ok b) :
    ∃ b', encode (.str (s ++ t)) = .ok b' ∧ b'.length = b.length + t.length := by
  have hnil : Plain [] := by decide
  obtain ⟨a, ha, hb⟩ := (encode_str_append_plain hnil).mp (by rwa [List.append_nil])
  refine ⟨a ++ t.map asciiByte ++ [34], (encode_str_append_plain ht).mpr ⟨a, ha, rfl⟩, ?_⟩
  subst hb
  simp only [List.length_append, List.length_map, List.map_nil, List.length_nil]
  omega

/-- **The size of a body**: each further row of the statement adds a separator and a placeholder
to it, whatever the names in the statement are. -/
theorem body_valuesText {context whole : Bytes} {sqlPrefix : PyStr} {width : Nat}
    (hwhole : body context (sqlPrefix ++ placeholderText width) [] = .ok whole) (n : Nat)
    (bindings : Bytes) :
    ∃ b, body context (sqlPrefix ++ valuesText width (n + 1)) bindings = .ok b ∧
      b.length = whole.length + n * (2 + (placeholderText width).length) + bindings.length := by
  obtain ⟨statement, hst, rfl⟩ := body_eq_ok.mp hwhole
  have hstatement : ∃ st, encode (.str (sqlPrefix ++ valuesText width (n + 1))) = .ok st ∧
      st.length = statement.length + n * (2 + (placeholderText width).length) := by
    clear hwhole
    induction n with
    | zero => exact ⟨statement, by rw [valuesText_one]; exact hst, by simp⟩
    | succ n ih =>
      obtain ⟨st, henc, hlen⟩ := ih
      have hsep : Plain (py ", ") := by decide
      obtain ⟨st', henc', hlen'⟩ :=
        encode_str_append_length (hsep.append (plain_placeholderText width)) henc
      refine ⟨st', ?_, ?_⟩
      · rw [valuesText_succ width (Nat.succ_ne_zero n), ← List.append_assoc]
        exact henc'
      · have htwo : (py ", ").length = 2 := rfl
        rw [hlen', hlen, List.length_append, htwo, Nat.add_mul]
        omega
  obtain ⟨st, henc, hlen⟩ := hstatement
  refine ⟨_, body_eq_ok.mpr ⟨st, henc, rfl⟩, ?_⟩
  simp only [List.length_append, List.length_nil, hlen]
  omega

end SnowflakeSqlApi
