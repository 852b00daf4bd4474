import SnowflakeSqlApi.Exceptions

/-!
# `json.dumps`

`dumps` writes a JSON value as text, for the two settings the library uses: the
compact one of `batches._encode` and the default one `bindings` writes a container
with.  A composite is its parts, joined by the separators.

`encode` is `batches._encode`, the compact text as UTF-8.  `encode_obj_iff` reads an
encoded object off the encodings of its items, which is what the batch encoder relies
on when it splices a body together.
-/

namespace SnowflakeSqlApi

/-- The keyword arguments of `json.dumps`. -/
structure DumpsOptions where
  ensureAscii : Bool
  itemSeparator : PyStr
  keySeparator : PyStr
  allowNan : Bool

/-- `json.dumps(value)`. -/
def DumpsOptions.default : DumpsOptions where
  ensureAscii := true
  itemSeparator := py ", "
  keySeparator := py ": "
  allowNan := true

/-- The options of `_encode`. -/
def DumpsOptions.compact : DumpsOptions where
  ensureAscii := false
  itemSeparator := py ","
  keySeparator := py ":"
  allowNan := false

def hexDigit (d : Nat) : PyChar :=
  if h : d < 10 then ⟨48 + d, by omega⟩ else ⟨87 + d % 16, by omega⟩

/-- `\uXXXX`. -/
def unicodeEscape (n : Nat) : PyStr :=
  [ch '\\', ch 'u', hexDigit (n / 4096 % 16), hexDigit (n / 256 % 16), hexDigit (n / 16 % 16),
    hexDigit (n % 16)]

/-- One character of a JSON string. With `ensure_ascii` everything outside space to `~` is
escaped, a code point past the BMP as its surrogate pair. -/
def escapeChar (ensureAscii : Bool) (c : PyChar) : PyStr :=
  if c = ch '"' then py "\\\""
  else if c = ch '\\' then py "\\\\"
  else if c = ch '\n' then py "\\n"
  else if c = ch '\r' then py "\\r"
  else if c = ch '\t' then py "\\t"
  else if c.val = 12 then py "\\f"
  else if c.val = 8 then py "\\b"
  else if c.val < 32 then unicodeEscape c.val
  else if ensureAscii && 126 < c.val then
    if c.val < 0x10000 then unicodeEscape c.val
    else unicodeEscape (0xD800 + (c.val - 0x10000) / 1024)
      ++ unicodeEscape (0xDC00 + (c.val - 0x10000) % 1024)
  else [c]

def escapeStr (ensureAscii : Bool) (s : PyStr) : PyStr := s.flatMap (escapeChar ensureAscii)

def dumpsStr (ensureAscii : Bool) (s : PyStr) : PyStr :=
  [ch '"'] ++ escapeStr ensureAscii s ++ [ch '"']

def dumpsFloat (o : DumpsOptions) (x : PyFloat) : Except Exc PyStr :=
  if x.isFinite then .ok x.repr
  else if o.allowNan then
    .ok (if x.repr = py "inf" then py "Infinity"
      else if x.repr = py "-inf" then py "-Infinity" else py "NaN")
  else .error (.valueError [lit "Out of range float values are not JSON compliant: ", .float x])

mutual

/-- `json.dumps`. -/
def dumps (o : DumpsOptions) : Json → Except Exc PyStr
  | .null => .ok (py "null")
  | .bool b => .ok (if b then py "true" else py "false")
  | .int n => intStr n
  | .float x => dumpsFloat o x
  | .str s => .ok (dumpsStr o.ensureAscii s)
  | .arr xs => do
    let parts ← dumpsList o xs
    pure ([ch '['] ++ join o.itemSeparator parts ++ [ch ']'])
  | .obj kvs => do
    let parts ← dumpsItems o kvs
    pure ([ch '\x7b'] ++ join o.itemSeparator parts ++ [ch '\x7d'])
  | .other type =>
    .error (.typeError [lit "Object of type ", .str type, lit " is not JSON serializable"])

def dumpsList (o : DumpsOptions) : List Json → Except Exc (List PyStr)
  | [] => .ok []
  | x :: xs => do
    let part ← dumps o x
    let parts ← dumpsList o xs
    pure (part :: parts)

def dumpsItems (o : DumpsOptions) : List (PyStr × Json) → Except Exc (List PyStr)
  | [] => .ok []
  | (k, v) :: kvs => do
    let part ← dumps o v
    let parts ← dumpsItems o kvs
    pure ((dumpsStr o.ensureAscii k ++ o.keySeparator ++ part) :: parts)

end

/-- `text.encode("utf-8")`, raising where there are surrogates. -/
def encodeUtf8 (s : PyStr) : Except Exc Bytes :=
  match utf8 s with
  | some b => .ok b
  | none => .error (.builtin "UnicodeEncodeError" [lit "surrogates not allowed"])

/-- `batches._encode`. -/
def encode (value : Json) : Except Exc Bytes := do
  let text ← dumps .compact value
  encodeUtf8 text

/-! ### Joined lists -/

section Join

variable {α : Type} (sep : List α)

theorem intercalate_cons (x : List α) (xs : List (List α)) :
    sep.intercalate (x :: xs) = x ++ xs.flatMap (sep ++ ·) := by
  induction xs generalizing x with
  | nil => simp
  | cons y ys ih => rw [List.intercalate_cons_cons, ih, List.flatMap_cons, List.append_assoc,
      List.append_assoc]

theorem intercalate_append {xs ys : List (List α)} (hx : xs ≠ []) (hy : ys ≠ []) :
    sep.intercalate (xs ++ ys) = sep.intercalate xs ++ sep ++ sep.intercalate ys := by
  cases xs with
  | nil => exact absurd rfl hx
  | cons x xs =>
    cases ys with
    | nil => exact absurd rfl hy
    | cons y ys =>
      simp [List.cons_append, intercalate_cons, List.flatMap_append, List.append_assoc]

theorem intercalate_length_le (xs ys : List (List α)) :
    (sep.intercalate xs).length ≤ (sep.intercalate (xs ++ ys)).length := by
  by_cases hx : xs = []
  · rw [hx]
    exact Nat.zero_le _
  · by_cases hy : ys = []
    · rw [hy, List.append_nil]
    · rw [intercalate_append sep hx hy, List.length_append, List.length_append]
      omega

end Join

/-! ### Encodings of composites -/

theorem encodeUtf8_eq_ok {s : PyStr} {b : Bytes} : encodeUtf8 s = .ok b ↔ utf8 s = some b := by
  rw [encodeUtf8]
  cases utf8 s <;> simp

theorem encode_eq_ok {value : Json} {b : Bytes} :
    encode value = .ok b ↔ ∃ text, dumps .compact value = .ok text ∧ utf8 text = some b := by
  rw [encode]
  cases h : dumps .compact value with
  | error e => simp [bind, Except.bind]
  | ok text => simp [bind, Except.bind, encodeUtf8_eq_ok]

theorem encode_str_eq_ok {s : PyStr} {b : Bytes} :
    encode (.str s) = .ok b ↔ utf8 (dumpsStr false s) = some b := by
  rw [encode_eq_ok]
  constructor
  · rintro ⟨text, h, hb⟩
    cases h
    exact hb
  · intro hb
    exact ⟨_, rfl, hb⟩

/-- `part` is the encoding of one item of an object: the key, `:` and the value. -/
def ItemEncodes (item : PyStr × Json) (part : Bytes) : Prop :=
  ∃ k v, encode (.str item.1) = .ok k ∧ encode item.2 = .ok v ∧ part = k ++ 58 :: v

theorem ItemEncodes.ne_nil {item : PyStr × Json} {part : Bytes} (h : ItemEncodes item part) :
    part ≠ [] := by
  obtain ⟨k, v, _, _, rfl⟩ := h
  simp

theorem utf8_join {ps : List PyStr} {b : Bytes} :
    utf8 (join (py ",") ps) = some b ↔
      ∃ bs, List.Forall₂ (fun p q => utf8 p = some q) ps bs ∧ b = [44].intercalate bs := by
  have hsep : utf8 (py ",") = some [44] := by decide
  induction ps generalizing b with
  | nil =>
    constructor
    · intro h
      exact ⟨[], .nil, by simpa [join, utf8, eq_comm] using h⟩
    · rintro ⟨bs, h, rfl⟩
      cases h
      rfl
  | cons p ps ih =>
    cases ps with
    | nil =>
      constructor
      · intro h
        exact ⟨[b], .cons (by simpa [join] using h) .nil, by simp⟩
      · rintro ⟨bs, h, rfl⟩
        obtain _ | ⟨hp, h⟩ := h
        cases h
        simpa [join] using hp
    | cons p' ps =>
      rw [join, List.intercalate_cons_cons, List.append_assoc, utf8_separated hsep]
      constructor
      · rintro ⟨x, y, hx, hy, rfl⟩
        obtain ⟨bs, hbs, rfl⟩ := ih.mp hy
        refine ⟨x :: bs, .cons hx hbs, ?_⟩
        cases hbs
        rw [List.intercalate_cons_cons, List.append_assoc]
      · rintro ⟨bs, h, rfl⟩
        obtain _ | ⟨hp, h⟩ := h
        obtain _ | ⟨hp', h⟩ := h
        rw [List.intercalate_cons_cons, List.append_assoc]
        exact ⟨_, _, hp, ih.mpr ⟨_, .cons hp' h, rfl⟩, rfl⟩

theorem dumpsItems_eq_ok {o : DumpsOptions} {kvs : Dict} {ps : List PyStr} :
    dumpsItems o kvs = .ok ps ↔ List.Forall₂ (fun kv p => ∃ part, dumps o kv.2 = .ok part ∧
      p = dumpsStr o.ensureAscii kv.1 ++ o.keySeparator ++ part) kvs ps := by
  induction kvs generalizing ps with
  | nil =>
    constructor
    · intro h
      cases h
      exact .nil
    · intro h
      cases h
      rfl
  | cons kv kvs ih =>
    obtain ⟨k, v⟩ := kv
    rw [dumpsItems]
    constructor
    · intro h
      cases hv : dumps o v with
      | error e => rw [hv] at h; cases h
      | ok part =>
        cases hr : dumpsItems o kvs with
        | error e => rw [hv, hr] at h; cases h
        | ok parts =>
          rw [hv, hr] at h
          cases h
          exact .cons ⟨part, hv, rfl⟩ (ih.mp hr)
    · intro h
      obtain _ | ⟨⟨part, hv, rfl⟩, h⟩ := h
      dsimp only at hv ⊢
      rw [hv, ih.mpr h]
      rfl

theorem utf8_item {k : PyStr} {part : PyStr} {b : Bytes} :
    utf8 (dumpsStr false k ++ py ":" ++ part) = some b ↔
      ∃ x y, utf8 (dumpsStr false k) = some x ∧ utf8 part = some y ∧ b = x ++ 58 :: y := by
  have hsep : utf8 (py ":") = some [58] := by decide
  rw [List.append_assoc, utf8_separated hsep]
  rfl

/-- The items of an object are encoded each by itself. -/
theorem dumpsItems_utf8 {kvs : Dict} {bs : List Bytes} :
    (∃ ps, dumpsItems .compact kvs = .ok ps ∧ List.Forall₂ (fun p q => utf8 p = some q) ps bs) ↔
      List.Forall₂ ItemEncodes kvs bs := by
  simp only [dumpsItems_eq_ok]
  induction kvs generalizing bs with
  | nil =>
    constructor
    · rintro ⟨ps, h, hbs⟩
      cases h
      cases hbs
      exact .nil
    · intro h
      cases h
      exact ⟨[], .nil, .nil⟩
  | cons kv kvs ih =>
    constructor
    · rintro ⟨ps, h, hbs⟩
      obtain _ | ⟨⟨part, hv, rfl⟩, h⟩ := h
      obtain _ | ⟨hb, hbs⟩ := hbs
      obtain ⟨x, y, hx, hy, rfl⟩ := utf8_item.mp hb
      exact .cons ⟨x, y, encode_str_eq_ok.mpr hx, encode_eq_ok.mpr ⟨part, hv, hy⟩, rfl⟩
        (ih.mp ⟨_, h, hbs⟩)
    · intro h
      obtain _ | ⟨⟨x, y, hx, hy, rfl⟩, h⟩ := h
      obtain ⟨ps, hps, hbs⟩ := ih.mpr h
      obtain ⟨part, hv, hy⟩ := encode_eq_ok.mp hy
      exact ⟨_, .cons ⟨part, hv, rfl⟩ hps,
        .cons (utf8_item.mpr ⟨x, y, encode_str_eq_ok.mp hx, hy, rfl⟩) hbs⟩

/-- **An encoded object is its encoded items**, joined by commas between braces. -/
theorem encode_obj_iff {kvs : Dict} {b : Bytes} :
    encode (.obj kvs) = .ok b ↔
      ∃ parts, List.Forall₂ ItemEncodes kvs parts ∧ b = 123 :: ([44].intercalate parts ++ [125]) := by
  have hopen : utf8 [ch '\x7b'] = some [123] := by decide
  have hclose : utf8 [ch '\x7d'] = some [125] := by decide
  rw [encode_eq_ok]
  constructor
  · rintro ⟨text, h, hb⟩
    rw [dumps] at h
    cases hi : dumpsItems .compact kvs with
    | error e => rw [hi] at h; cases h
    | ok ps =>
      rw [hi] at h
      cases h
      obtain ⟨x, y, hx, hy, rfl⟩ := utf8_append_inv hb
      obtain ⟨o, m, ho, hm, rfl⟩ := utf8_append_inv hx
      rw [hopen] at ho
      rw [hclose] at hy
      cases ho
      cases hy
      obtain ⟨bs, hbs, rfl⟩ := utf8_join.mp hm
      exact ⟨bs, dumpsItems_utf8.mp ⟨ps, hi, hbs⟩, rfl⟩
  · rintro ⟨parts, h, rfl⟩
    obtain ⟨ps, hi, hbs⟩ := dumpsItems_utf8.mpr h
    refine ⟨[ch '\x7b'] ++ join (py ",") ps ++ [ch '\x7d'], ?_, ?_⟩
    · rw [dumps, hi]
      rfl
    · exact utf8_append_of (a := 123 :: [44].intercalate parts)
        (utf8_append_of hopen (utf8_join.mpr ⟨parts, hbs, rfl⟩)) hclose

/-! ### Text appended to a string -/

/-- Characters that JSON and UTF-8 both keep as one byte. -/
def Plain (s : PyStr) : Prop := ∀ c ∈ s, escapeChar false c = [c] ∧ c.val < 0x80

instance (s : PyStr) : Decidable (Plain s) := List.decidableBAll _ s

theorem Plain.append {s t : PyStr} (hs : Plain s) (ht : Plain t) : Plain (s ++ t) := by
  intro c hc
  rcases List.mem_append.mp hc with hc | hc
  · exact hs c hc
  · exact ht c hc

theorem escapeStr_plain {s : PyStr} (h : Plain s) : escapeStr false s = s := by
  induction s with
  | nil => rfl
  | cons c cs ih =>
    rw [escapeStr, List.flatMap_cons, (h c (by simp)).1]
    exact congrArg (c :: ·) (ih fun d hd => h d (by simp [hd]))

theorem escapeStr_append (e : Bool) (s t : PyStr) :
    escapeStr e (s ++ t) = escapeStr e s ++ escapeStr e t := List.flatMap_append

/-- **Plain text at the end of a string** adds its own bytes before the closing quote. -/
theorem encode_str_append_plain {s t : PyStr} {b : Bytes} (ht : Plain t) :
    encode (.str (s ++ t)) = .ok b ↔
      ∃ a, encode (.str s) = .ok (a ++ [34]) ∧ b = a ++ t.map asciiByte ++ [34] := by
  have hquote : utf8 [ch '"'] = some [34] := by decide
  have htext : utf8 t = some (t.map asciiByte) := utf8_ascii fun c hc => (ht c hc).2
  rw [encode_str_eq_ok, dumpsStr, escapeStr_append, escapeStr_plain ht, ← List.append_assoc]
  constructor
  · intro h
    obtain ⟨x, y, hx, hy, rfl⟩ := utf8_append_inv h
    obtain ⟨z, w, hz, hw, rfl⟩ := utf8_append_inv hx
    rw [hquote] at hy
    rw [htext] at hw
    cases hy
    cases hw
    exact ⟨z, encode_str_eq_ok.mpr (utf8_append_of hz hquote), rfl⟩
  · rintro ⟨a, ha, rfl⟩
    obtain ⟨x, y, hx, hy, hxy⟩ := utf8_append_inv (encode_str_eq_ok.mp ha)
    rw [hquote] at hy
    cases hy
    obtain rfl := List.append_cancel_right hxy
    exact utf8_append_of (utf8_append_of hx htext) hquote

end SnowflakeSqlApi
