import SnowflakeSqlApi.Lib.Fallible
import SnowflakeSqlApi.Python.Scanner

/-!
# `json.loads`

`scanOnce` is the decoder of `json.loads`: it reads one value and leaves the text after it.  The
fuel bounds the depth of the calls; a text needs no more than twice its length.  `loads` is the
decoder on a whole text.

`JsonText` is what a text of a value may look like, with white space anywhere between its
tokens.  `loads_text` reads any such text back, and `text_dumps` says that what `dumps` writes is
one, for a value that keeps what a `dict` and a `float` promise (`Loadable`).
-/

namespace SnowflakeSqlApi

/-! ### The decoder -/

/-- White space between tokens. -/
def isJsonSpace (c : PyChar) : Bool :=
  c = ch ' ' || c = ch '\t' || c = ch '\n' || c = ch '\r'

def skipSpace (s : PyStr) : PyStr := s.dropWhile isJsonSpace

/-- The floats that have no digits. -/
def nan : PyFloat := .nonFinite (py "nan")
def infinity : PyFloat := .nonFinite (py "inf")
def negInfinity : PyFloat := .nonFinite (py "-inf")

/-- The values that are one word. -/
def words : List (PyStr × Json) := [
  (py "null", .null),
  (py "true", .bool true),
  (py "false", .bool false),
  (py "NaN", .float nan),
  (py "Infinity", .float infinity),
  (py "-Infinity", .float negInfinity)]

/-- A value that is no container and no string. -/
def scanScalar (float : PyStr → PyFloat) (s : PyStr) : Option (Json × PyStr) :=
  match words.find? fun word => word.1.isPrefixOf s with
  | some word => some (word.2, s.drop word.1.length)
  | none => scanNumber float s

/-- `dict(pairs)`. -/
def dictOf (pairs : Dict) : Dict := pairs.foldl (fun d kv => assocSet d kv.1 kv.2) []

section Decoder

variable (float : PyStr → PyFloat)

mutual

/-- `scan_once`. -/
def scanOnce : Nat → PyStr → Option (Json × PyStr)
  | 0, _ => none
  | _ + 1, [] => none
  | n + 1, c :: cs =>
    if c = ch '"' then (scanString cs.length cs).map fun read => (.str read.1, read.2)
    else if c = ch '[' then
      if (skipSpace cs).head? = some (ch ']') then some (.arr [], (skipSpace cs).tail)
      else (scanValues n (skipSpace cs)).map fun read => (.arr read.1, read.2)
    else if c = ch '\x7b' then
      if (skipSpace cs).head? = some (ch '\x7d') then some (.obj [], (skipSpace cs).tail)
      else (scanPairs n (skipSpace cs)).map fun read => (.obj (dictOf read.1), read.2)
    else scanScalar float (c :: cs)

/-- The values of an array from one on, with the bracket after them. -/
def scanValues : Nat → PyStr → Option (List Json × PyStr)
  | 0, _ => none
  | n + 1, s => do
    let (value, rest) ← scanOnce n s
    match skipSpace rest with
    | [] => none
    | c :: rest =>
      if c = ch ']' then some ([value], rest)
      else if c = ch ',' then do
        let (values, rest) ← scanValues n (skipSpace rest)
        some (value :: values, rest)
      else none

/-- The pairs of an object from one on, with the brace after them. -/
def scanPairs : Nat → PyStr → Option (Dict × PyStr)
  | 0, _ | _ + 1, [] => none
  | n + 1, q :: cs =>
    if q = ch '"' then do
      let (key, rest) ← scanString cs.length cs
      match skipSpace rest with
      | [] => none
      | c :: rest =>
        if c = ch ':' then do
          let (value, rest) ← scanOnce n (skipSpace rest)
          match skipSpace rest with
          | [] => none
          | c :: rest =>
            if c = ch '\x7d' then some ([(key, value)], rest)
            else if c = ch ',' then do
              let (pairs, rest) ← scanPairs n (skipSpace rest)
              some ((key, value) :: pairs, rest)
            else none
        else none
    else none

end

/-- A byte order mark. -/
def byteOrderMark : PyChar := ch '\uFEFF'

/-- `json.loads` on text; `none` is a `ValueError`. -/
def loads (s : PyStr) : Option Json :=
  if s.head? = some byteOrderMark then none
  else
    match scanOnce float (2 * s.length) (skipSpace s) with
    | none => none
    | some (value, rest) => if skipSpace rest = [] then some value else none

end Decoder

/-! ### Texts of values -/

/-- White space. -/
def Blank (s : PyStr) : Prop := ∀ c ∈ s, isJsonSpace c = true

/-- A text of a float. -/
def FloatText (float : PyStr → PyFloat) (x : PyFloat) (text : PyStr) : Prop :=
  (IsFloatText text ∧ float text = x) ∨ (text, Json.float x) ∈ words

section Grammar

variable (float : PyStr → PyFloat) (e : Bool)

mutual

/-- A text of a value; `e` says whether strings are escaped to ASCII. -/
inductive JsonText : Json → PyStr → Prop
  | null : JsonText .null (py "null")
  | bool (b : Bool) : JsonText (.bool b) (if b then py "true" else py "false")
  | int {n : Int} : FewDigits n → JsonText (.int n) (strInt n)
  | float {x : PyFloat} {text : PyStr} : FloatText float x text → JsonText (.float x) text
  | str {s : PyStr} : Readable e s → JsonText (.str s) (dumpsStr e s)
  | arrNil {blank : PyStr} : Blank blank → JsonText (.arr []) (ch '[' :: blank ++ [ch ']'])
  | arr {blank text : PyStr} {xs : List Json} : Blank blank → ValuesText xs text →
      JsonText (.arr xs) (ch '[' :: blank ++ text)
  | objNil {blank : PyStr} : Blank blank →
      JsonText (.obj []) (ch '\x7b' :: blank ++ [ch '\x7d'])
  | obj {blank text : PyStr} {kvs : Dict} : Blank blank → (kvs.map Prod.fst).Nodup →
      PairsText kvs text → JsonText (.obj kvs) (ch '\x7b' :: blank ++ text)

/-- The values of an array, with the bracket after them. -/
inductive ValuesText : List Json → PyStr → Prop
  | last {x : Json} {text blank : PyStr} : JsonText x text → Blank blank →
      ValuesText [x] (text ++ (blank ++ [ch ']']))
  | more {x : Json} {xs : List Json} {text texts blank blank' : PyStr} : JsonText x text →
      Blank blank → Blank blank' → ValuesText xs texts →
      ValuesText (x :: xs) (text ++ (blank ++ ch ',' :: (blank' ++ texts)))

/-- The pairs of an object, with the brace after them. -/
inductive PairsText : Dict → PyStr → Prop
  | last {k : PyStr} {x : Json} {text blank blank' : PyStr} : Readable e k → JsonText x text →
      Blank blank → Blank blank' →
      PairsText [(k, x)] (dumpsStr e k ++ ch ':' :: (blank ++ (text ++ (blank' ++ [ch '\x7d']))))
  | more {k : PyStr} {x : Json} {kvs : Dict} {text texts blank blank' blank'' : PyStr} :
      Readable e k → JsonText x text → Blank blank → Blank blank' → Blank blank'' →
      PairsText kvs texts → PairsText ((k, x) :: kvs)
        (dumpsStr e k ++ ch ':' :: (blank ++ (text ++ (blank' ++ ch ',' :: (blank'' ++ texts)))))

end

end Grammar

/-! ### White space -/

theorem skipSpace_append {blank t : PyStr} (hblank : Blank blank)
    (ht : ∀ c ∈ t.head?, isJsonSpace c = false) : skipSpace (blank ++ t) = t := by
  rw [skipSpace, List.dropWhile_append_of_pos hblank]
  cases t with
  | nil => rfl
  | cons c t => rw [List.dropWhile_cons_of_neg (by simp [ht c rfl])]

theorem skipSpace_blank {blank : PyStr} (h : Blank blank) : skipSpace blank = [] := by
  have hskip := skipSpace_append h (fun c (hc : c ∈ ([] : PyStr).head?) => nomatch hc)
  rwa [List.append_nil] at hskip

theorem blank_nil : Blank [] := fun _ h => nomatch h

/-- White space before a delimiter is a delimiter. -/
theorem Blank.delimited {blank t : PyStr} (hblank : Blank blank) (ht : Delimited t) :
    Delimited (blank ++ t) := by
  cases blank with
  | nil => exact ht
  | cons c blank =>
    intro d hd
    cases hd
    have hc := hblank _ List.mem_cons_self
    simp only [isJsonSpace, Bool.or_eq_true, decide_eq_true_eq] at hc
    rcases hc with ((rfl | rfl) | rfl) | rfl <;> simp

/-! ### Scalars -/

theorem find?_words_of_digit {c : PyChar} (hc : isDecimalDigit c = true) (cs : PyStr) :
    (words.find? fun word => word.1.isPrefixOf (c :: cs)) = none := by
  have hne : ∀ {d : PyChar}, isDecimalDigit d = false → (d == c) = false := by
    intro d hd
    rw [beq_eq_false_iff_ne]
    rintro rfl
    rw [hc] at hd
    cases hd
  have hword : ∀ {d : PyChar} (ds : PyStr), isDecimalDigit d = false →
      ¬ (d :: ds).isPrefixOf (c :: cs) = true := by
    intro d ds hd
    rw [List.isPrefixOf_cons_cons, hne hd]
    exact Bool.false_ne_true
  rw [List.find?_eq_none]
  intro word hmem
  simp only [words, List.mem_cons, List.not_mem_nil, or_false] at hmem
  rcases hmem with rfl | rfl | rfl | rfl | rfl | rfl <;> exact hword _ (by decide)

theorem find?_words_of_minus {c : PyChar} (hc : isDecimalDigit c = true) (cs : PyStr) :
    (words.find? fun word => word.1.isPrefixOf (ch '-' :: c :: cs)) = none := by
  have hinf : (ch 'I' == c) = false := by
    rw [beq_eq_false_iff_ne]
    rintro rfl
    exact absurd hc (by decide)
  have hword : ∀ {d : PyChar} (ds : PyStr), d ≠ ch '-' →
      ¬ (d :: ds).isPrefixOf (ch '-' :: c :: cs) = true := by
    intro d ds hd
    rw [List.isPrefixOf_cons_cons, beq_eq_false_iff_ne.mpr hd]
    exact Bool.false_ne_true
  rw [List.find?_eq_none]
  intro word hmem
  simp only [words, List.mem_cons, List.not_mem_nil, or_false] at hmem
  rcases hmem with rfl | rfl | rfl | rfl | rfl | rfl
  iterate 5 exact hword _ (by decide)
  show ¬ (ch '-' :: ch 'I' :: py "nfinity").isPrefixOf (ch '-' :: c :: cs) = true
  rw [List.isPrefixOf_cons_cons, List.isPrefixOf_cons_cons, hinf, Bool.false_and, Bool.and_false]
  exact Bool.false_ne_true

/-- How the text of a number begins. -/
theorem IsNumber.begins {sign whole fraction exponent : PyStr}
    (h : IsNumber sign whole fraction exponent) (t : PyStr) :
    ∃ c cs, isDecimalDigit c = true ∧
      (sign ++ (whole ++ t) = c :: cs ∨ sign ++ (whole ++ t) = ch '-' :: c :: cs) := by
  obtain ⟨c, cs, hc, hwhole⟩ : ∃ c cs, isDecimalDigit c = true ∧ whole = c :: cs := by
    rcases h.whole with hzero | ⟨hne, hdigits, -⟩
    · exact ⟨ch '0', [], by decide, hzero⟩
    · cases whole with
      | nil => exact absurd rfl hne
      | cons c cs => exact ⟨c, cs, hdigits c List.mem_cons_self, rfl⟩
  refine ⟨c, cs ++ t, hc, ?_⟩
  rcases h.sign with rfl | rfl
  · exact .inl (by rw [hwhole]; rfl)
  · exact .inr (by rw [hwhole]; rfl)

/-- No value of one word begins like a number. -/
theorem scanScalar_number (float : PyStr → PyFloat) {sign whole fraction exponent : PyStr}
    (h : IsNumber sign whole fraction exponent) (t : PyStr) :
    scanScalar float (sign ++ (whole ++ t)) = scanNumber float (sign ++ (whole ++ t)) := by
  obtain ⟨c, cs, hc, hbegins | hbegins⟩ := h.begins t
  · rw [hbegins, scanScalar, find?_words_of_digit hc]
  · rw [hbegins, scanScalar, find?_words_of_minus hc]

theorem scanScalar_word (float : PyStr → PyFloat) {word : PyStr × Json} (h : word ∈ words)
    (t : PyStr) : scanScalar float (word.1 ++ t) = some (word.2, t) := by
  simp only [words, List.mem_cons, List.not_mem_nil, or_false] at h
  rcases h with rfl | rfl | rfl | rfl | rfl | rfl <;> rfl

/-- A character that begins neither a string nor a container. -/
def BeginsScalar (c : PyChar) : Prop :=
  c ≠ ch '"' ∧ c ≠ ch '[' ∧ c ≠ ch '\x7b' ∧ c ≠ ch ']' ∧ isJsonSpace c = false ∧ c.val < 128

theorem beginsScalar_digit {c : PyChar} (hc : isDecimalDigit c = true) : BeginsScalar c := by
  have hne : ∀ {d : PyChar}, isDecimalDigit d = false → c ≠ d := by
    rintro d hd rfl
    rw [hc] at hd
    cases hd
  refine ⟨hne (by decide), hne (by decide), hne (by decide), hne (by decide), ?_, ?_⟩
  · rw [isJsonSpace, decide_eq_false (hne (by decide)), decide_eq_false (hne (by decide)),
      decide_eq_false (hne (by decide)), decide_eq_false (hne (by decide))]
    rfl
  · rw [isDecimalDigit, digitValue] at hc
    split at hc
    · omega
    · cases hc

theorem IsNumber.beginsScalar {sign whole fraction exponent : PyStr}
    (h : IsNumber sign whole fraction exponent) (t : PyStr) :
    ∃ c cs, sign ++ (whole ++ t) = c :: cs ∧ BeginsScalar c := by
  obtain ⟨c, cs, hc, hbegins | hbegins⟩ := h.begins t
  · exact ⟨c, cs, hbegins, beginsScalar_digit hc⟩
  · exact ⟨ch '-', c :: cs, hbegins, by decide, by decide, by decide, by decide, by decide,
      by decide⟩

/-- A text that is scanned as a scalar. -/
structure ScansScalar (float : PyStr → PyFloat) (x : Json) (text : PyStr) : Prop where
  begins : ∃ c cs, text = c :: cs ∧ BeginsScalar c
  scan : ∀ {rest : PyStr}, Delimited rest → scanScalar float (text ++ rest) = some (x, rest)

theorem scansScalar_word (float : PyStr → PyFloat) {word : PyStr × Json} (h : word ∈ words) :
    ScansScalar float word.2 word.1 where
  begins := by
    simp only [words, List.mem_cons, List.not_mem_nil, or_false] at h
    rcases h with rfl | rfl | rfl | rfl | rfl | rfl
    all_goals
      exact ⟨_, _, rfl, by decide, by decide, by decide, by decide, by decide, by decide⟩
  scan _ := scanScalar_word float h _

theorem exists_isNumber_strInt (n : Int) :
    ∃ sign whole, IsNumber sign whole [] [] ∧ strInt n = sign ++ (whole ++ []) := by
  by_cases hn : n < 0
  · exact ⟨[ch '-'], strNat n.natAbs, ⟨.inr rfl, isWhole_strNat _, .inl rfl, .inl rfl⟩,
      by rw [strInt, if_pos hn, List.append_nil]; rfl⟩
  · exact ⟨[], strNat n.natAbs, ⟨.inl rfl, isWhole_strNat _, .inl rfl, .inl rfl⟩,
      by rw [strInt, if_neg hn, List.append_nil]; rfl⟩

theorem scansScalar_int (float : PyStr → PyFloat) {n : Int} (h : FewDigits n) :
    ScansScalar float (.int n) (strInt n) := by
  obtain ⟨sign, whole, hnumber, htext⟩ := exists_isNumber_strInt n
  refine ⟨?_, fun {rest} hrest => ?_⟩
  · rw [htext]
    exact hnumber.beginsScalar []
  · rw [← scanNumber_strInt float h hrest, htext, List.append_assoc, List.append_assoc,
      scanScalar_number float hnumber]

theorem scansScalar_float {float : PyStr → PyFloat} {x : PyFloat} {text : PyStr}
    (h : FloatText float x text) : ScansScalar float (.float x) text := by
  rcases h with ⟨htext, rfl⟩ | hword
  · obtain ⟨sign, whole, fraction, exponent, hnumber, -, heq⟩ := id htext
    rw [List.append_assoc, List.append_assoc] at heq
    refine ⟨?_, fun {rest} hrest => ?_⟩
    · rw [heq]
      exact hnumber.beginsScalar _
    · rw [← scanNumber_float float htext hrest, heq, List.append_assoc, List.append_assoc,
        scanScalar_number float hnumber]
  · exact scansScalar_word float hword

/-! ### Any text of a value is read back -/

section Complete

variable {float : PyStr → PyFloat} {e : Bool}

theorem dumpsStr_append (e : Bool) (s t : PyStr) :
    dumpsStr e s ++ t = ch '"' :: (escapeStr e s ++ ch '"' :: t) := by
  rw [dumpsStr, List.append_assoc, List.append_assoc]
  rfl

/-- A string in quotes is read back. -/
theorem scanString_quoted {s : PyStr} (h : Readable e s) (t : PyStr) :
    scanString (escapeStr e s ++ ch '"' :: t).length (escapeStr e s ++ ch '"' :: t) =
      some (s, t) := by
  refine scanString_escapeStr h ?_ t
  have hlength := length_le_escapeStr e s
  rw [List.length_append, List.length_cons]
  omega

/-- How the text of a value begins. -/
theorem JsonText.begins {x : Json} {text : PyStr} (h : JsonText float e x text) :
    ∃ c cs, text = c :: cs ∧ c ≠ ch ']' ∧ isJsonSpace c = false ∧ c.val < 128 := by
  have hscalar : ∀ {x : Json} {text : PyStr}, ScansScalar float x text →
      ∃ c cs, text = c :: cs ∧ c ≠ ch ']' ∧ isJsonSpace c = false ∧ c.val < 128 := by
    intro x text h
    obtain ⟨c, cs, htext, -, -, -, hclose, hspace, hascii⟩ := h.begins
    exact ⟨c, cs, htext, hclose, hspace, hascii⟩
  cases h with
  | null => exact ⟨_, _, rfl, by decide, by decide, by decide⟩
  | bool b => cases b <;> exact ⟨_, _, rfl, by decide, by decide, by decide⟩
  | int h => exact hscalar (scansScalar_int float h)
  | float h => exact hscalar (scansScalar_float h)
  | str _ | arrNil _ | arr _ _ | objNil _ | obj _ _ _ =>
    exact ⟨_, _, rfl, by decide, by decide, by decide⟩

theorem ScansScalar.scanOnce {x : Json} {text : PyStr} (h : ScansScalar float x text) {n : Nat}
    (hn : 2 * text.length ≤ n) {rest : PyStr} (hrest : Delimited rest) :
    scanOnce float n (text ++ rest) = some (x, rest) := by
  obtain ⟨c, cs, rfl, hquote, harr, hobj, -⟩ := h.begins
  rw [← h.scan hrest]
  cases n with
  | zero => simp at hn
  | succ n =>
    show SnowflakeSqlApi.scanOnce float (n + 1) (c :: (cs ++ rest)) = _
    rw [SnowflakeSqlApi.scanOnce, if_neg hquote, if_neg harr, if_neg hobj]
    rfl

theorem dictOf_of_nodup {kvs : Dict} (h : (kvs.map Prod.fst).Nodup) : dictOf kvs = kvs := by
  have hfold : ∀ (rest d : Dict), ((d ++ rest).map Prod.fst).Nodup →
      rest.foldl (fun d kv => assocSet d kv.1 kv.2) d = d ++ rest := by
    intro rest
    induction rest with
    | nil =>
      intro d _
      rw [List.append_nil]
      rfl
    | cons kv rest ih =>
      intro d hd
      have hnew : kv.1 ∉ d.map Prod.fst := by
        rw [List.map_append, List.nodup_append] at hd
        exact fun hmem => hd.2.2 _ hmem _ (by simp) rfl
      rw [List.append_cons] at hd ⊢
      rw [List.foldl_cons, assocSet_of_notMem kv.2 hnew]
      exact ih _ hd
  exact hfold kvs [] h

/-- The rest of a container after a value: white space, then a mark. -/
theorem skipSpace_mark {blank : PyStr} (hblank : Blank blank) {c : PyChar}
    (hc : isJsonSpace c = false) (t : PyStr) : skipSpace (blank ++ c :: t) = c :: t :=
  skipSpace_append hblank fun d hd => by
    cases hd
    exact hc

theorem ValuesText.begins {xs : List Json} {text : PyStr} (h : ValuesText float e xs text) :
    ∃ c cs, text = c :: cs ∧ c ≠ ch ']' ∧ isJsonSpace c = false := by
  cases h with
  | last h _ | more h _ _ _ =>
    obtain ⟨c, cs, rfl, hclose, hspace, -⟩ := h.begins
    exact ⟨c, _, rfl, hclose, hspace⟩

theorem PairsText.begins {kvs : Dict} {text : PyStr} (h : PairsText float e kvs text) :
    ∃ cs, text = ch '"' :: cs := by
  cases h with
  | last _ _ _ _ | more _ _ _ _ _ _ => exact ⟨_, rfl⟩

/-- An empty container. -/
theorem skipSpace_close {blank : PyStr} (hblank : Blank blank) {c : PyChar}
    (hc : isJsonSpace c = false) (rest : PyStr) :
    (skipSpace (blank ++ [c] ++ rest)).head? = some c ∧
      (skipSpace (blank ++ [c] ++ rest)).tail = rest := by
  rw [List.append_assoc, List.singleton_append, skipSpace_mark hblank hc]
  exact ⟨rfl, rfl⟩

/-- A text of some length leaves fuel for a step. -/
theorem exists_fuel {text : PyStr} {n : Nat} (hn : 2 * text.length ≤ n) (hne : text ≠ []) :
    ∃ m, n = m + 1 := by
  have hpos := List.length_pos_of_ne_nil hne
  exact ⟨n - 1, by omega⟩

theorem delimited_mark {blank : PyStr} (hblank : Blank blank) {c : PyChar}
    (hc : c = ch ',' ∨ c = ch ']' ∨ c = ch '\x7d') (t : PyStr) : Delimited (blank ++ c :: t) := by
  refine hblank.delimited fun d hd => ?_
  cases hd
  rcases hc with rfl | rfl | rfl <;> decide

/-- A pair of an object is read, up to what comes after it. -/
theorem scanPairs_pair {k : PyStr} {x : Json} {text blank tail : PyStr} {n : Nat} (hk : Readable e k)
    (h : JsonText float e x text) (hblank : Blank blank)
    (hread : scanOnce float n (text ++ tail) = some (x, tail)) :
    scanPairs float (n + 1) (dumpsStr e k ++ ch ':' :: (blank ++ (text ++ tail))) =
      match skipSpace tail with
      | [] => none
      | c :: rest =>
        if c = ch '\x7d' then some ([(k, x)], rest)
        else if c = ch ',' then do
          let (pairs, rest) ← scanPairs float n (skipSpace rest)
          some ((k, x) :: pairs, rest)
        else none := by
  obtain ⟨c, cs, htext, -, hspace, -⟩ := h.begins
  have hskip : skipSpace (blank ++ (text ++ tail)) = text ++ tail := by
    rw [htext]
    exact skipSpace_mark hblank hspace _
  have hcolon : skipSpace (ch ':' :: (blank ++ (text ++ tail))) = ch ':' :: (blank ++ (text ++ tail)) :=
    skipSpace_mark blank_nil (by decide) _
  rw [dumpsStr_append, scanPairs, if_pos rfl, scanString_quoted hk, Option.bind_eq_bind,
    Option.bind_some]
  dsimp only
  rw [hcolon]
  dsimp only
  rw [if_pos rfl, hskip, hread, Option.bind_eq_bind, Option.bind_some]

mutual

/-- **A text of a value is read back**, whatever may stand after it. -/
theorem scanOnce_text : ∀ {x : Json} {text : PyStr}, JsonText float e x text →
    ∀ (n : Nat) (rest : PyStr), 2 * text.length ≤ n → Delimited rest →
      scanOnce float n (text ++ rest) = some (x, rest)
  | _, _, .null, _, _, hn, hrest =>
    (scansScalar_word float (List.mem_cons_self)).scanOnce hn hrest
  | _, _, .bool b, n, rest, hn, hrest => by
    cases b with
    | true =>
      exact (@scansScalar_word float (py "true", .bool true) (by simp [words])).scanOnce hn hrest
    | false =>
      exact (@scansScalar_word float (py "false", .bool false) (by simp [words])).scanOnce hn hrest
  | _, _, .int h, _, _, hn, hrest => (scansScalar_int float h).scanOnce hn hrest
  | _, _, .float h, _, _, hn, hrest => (scansScalar_float h).scanOnce hn hrest
  | _, _, .str h, n, rest, hn, _ => by
    obtain ⟨n, rfl⟩ := exists_fuel hn (List.cons_ne_nil _ _)
    rw [dumpsStr_append, scanOnce, if_pos rfl, scanString_quoted h]
    rfl
  | _, _, .arrNil hblank, n, rest, hn, _ => by
    obtain ⟨n, rfl⟩ := exists_fuel hn (List.cons_ne_nil _ _)
    obtain ⟨hhead, htail⟩ := skipSpace_close hblank (c := ch ']') (by decide) rest
    rw [List.cons_append, List.cons_append, scanOnce, if_neg (by decide), if_pos rfl, if_pos hhead,
      htail]
  | _, _, @JsonText.arr _ _ blank text xs hblank h, n, rest, hn, _ => by
    obtain ⟨n, rfl⟩ := exists_fuel hn (List.cons_ne_nil _ _)
    obtain ⟨c, cs, htext, hclose, hspace⟩ := h.begins
    have hskip : skipSpace (blank ++ text ++ rest) = text ++ rest := by
      rw [htext, List.append_assoc]
      exact skipSpace_mark hblank hspace _
    have hopen : (text ++ rest).head? ≠ some (ch ']') := by
      rw [htext]
      exact fun h => hclose (Option.some.inj h)
    have hread := scanValues_text h n rest (by
      rw [List.cons_append, List.length_cons, List.length_append] at hn
      omega)
    rw [List.cons_append, List.cons_append, scanOnce, if_neg (by decide), if_pos rfl, hskip,
      if_neg hopen, hread]
    rfl
  | _, _, .objNil hblank, n, rest, hn, _ => by
    obtain ⟨n, rfl⟩ := exists_fuel hn (List.cons_ne_nil _ _)
    obtain ⟨hhead, htail⟩ := skipSpace_close hblank (c := ch '\x7d') (by decide) rest
    rw [List.cons_append, List.cons_append, scanOnce, if_neg (by decide), if_neg (by decide),
      if_pos rfl, if_pos hhead, htail]
  | _, _, @JsonText.obj _ _ blank text kvs hblank hnodup h, n, rest, hn, _ => by
    obtain ⟨n, rfl⟩ := exists_fuel hn (List.cons_ne_nil _ _)
    obtain ⟨cs, htext⟩ := h.begins
    have hskip : skipSpace (blank ++ text ++ rest) = text ++ rest := by
      rw [htext, List.append_assoc]
      exact skipSpace_mark hblank (by decide) _
    have hopen : (text ++ rest).head? ≠ some (ch '\x7d') := by
      rw [htext]
      exact fun h => absurd (Option.some.inj h) (by decide)
    have hread := scanPairs_text h n rest (by
      rw [List.cons_append, List.length_cons, List.length_append] at hn
      omega)
    rw [List.cons_append, List.cons_append, scanOnce, if_neg (by decide), if_neg (by decide),
      if_pos rfl, hskip, if_neg hopen, hread]
    show some (Json.obj (dictOf kvs), rest) = _
    rw [dictOf_of_nodup hnodup]

theorem scanValues_text : ∀ {xs : List Json} {text : PyStr}, ValuesText float e xs text →
    ∀ (n : Nat) (rest : PyStr), 2 * text.length ≤ n →
      scanValues float n (text ++ rest) = some (xs, rest)
  | _, _, @ValuesText.last _ _ x text blank h hblank, n, rest, hn => by
    obtain ⟨n, rfl⟩ := exists_fuel hn (by simp)
    have hread := scanOnce_text h n (blank ++ ch ']' :: rest) (by
      rw [List.length_append, List.length_append, List.length_singleton] at hn
      omega) (delimited_mark hblank (.inr (.inl rfl)) rest)
    rw [List.append_assoc, List.append_assoc, List.singleton_append, scanValues, hread,
      Option.bind_eq_bind, Option.bind_some]
    dsimp only
    rw [skipSpace_mark hblank (by decide)]
    exact if_pos rfl
  | _, _, @ValuesText.more _ _ x xs text texts blank blank' h hblank hblank' hs, n, rest, hn => by
    obtain ⟨n, rfl⟩ := exists_fuel hn (by simp)
    obtain ⟨c, cs, htexts, -, hspace⟩ := hs.begins
    rw [List.length_append, List.length_append, List.length_cons, List.length_append] at hn
    have hread := scanOnce_text h n (blank ++ ch ',' :: (blank' ++ (texts ++ rest))) (by omega)
      (delimited_mark hblank (.inl rfl) _)
    have hmore := scanValues_text hs n rest (by omega)
    have hskip : skipSpace (blank' ++ (texts ++ rest)) = texts ++ rest := by
      rw [htexts]
      exact skipSpace_mark hblank' hspace _
    have hassoc : text ++ (blank ++ ch ',' :: (blank' ++ texts)) ++ rest =
        text ++ (blank ++ ch ',' :: (blank' ++ (texts ++ rest))) := by simp
    rw [hassoc, scanValues, hread, Option.bind_eq_bind, Option.bind_some]
    dsimp only
    rw [skipSpace_mark hblank (by decide)]
    dsimp only
    rw [if_neg (by decide), if_pos rfl, hskip, hmore]
    rfl

theorem scanPairs_text : ∀ {kvs : Dict} {text : PyStr}, PairsText float e kvs text →
    ∀ (n : Nat) (rest : PyStr), 2 * text.length ≤ n →
      scanPairs float n (text ++ rest) = some (kvs, rest)
  | _, _, @PairsText.last _ _ k x text blank blank' hk h hblank hblank', n, rest, hn => by
    obtain ⟨n, rfl⟩ := exists_fuel hn (by simp)
    simp only [List.length_append, List.length_cons] at hn
    have hread := scanOnce_text h n (blank' ++ ch '\x7d' :: rest) (by omega)
      (delimited_mark hblank' (.inr (.inr rfl)) rest)
    have hassoc : dumpsStr e k ++ ch ':' :: (blank ++ (text ++ (blank' ++ [ch '\x7d']))) ++ rest =
        dumpsStr e k ++ ch ':' :: (blank ++ (text ++ (blank' ++ ch '\x7d' :: rest))) := by simp
    rw [hassoc, scanPairs_pair hk h hblank hread, skipSpace_mark hblank' (by decide)]
    exact if_pos rfl
  | _, _, @PairsText.more _ _ k x kvs text texts blank blank' blank'' hk h hblank hblank' hblank'' hs,
      n, rest, hn => by
    obtain ⟨n, rfl⟩ := exists_fuel hn (by simp)
    obtain ⟨cs, htexts⟩ := hs.begins
    simp only [List.length_append, List.length_cons] at hn
    have hread := scanOnce_text h n (blank' ++ ch ',' :: (blank'' ++ (texts ++ rest))) (by omega)
      (delimited_mark hblank' (.inl rfl) _)
    have hmore := scanPairs_text hs n rest (by omega)
    have hskip : skipSpace (blank'' ++ (texts ++ rest)) = texts ++ rest := by
      rw [htexts]
      exact skipSpace_mark hblank'' (by decide) _
    have hassoc : dumpsStr e k ++ ch ':' ::
        (blank ++ (text ++ (blank' ++ ch ',' :: (blank'' ++ texts)))) ++ rest =
        dumpsStr e k ++ ch ':' ::
          (blank ++ (text ++ (blank' ++ ch ',' :: (blank'' ++ (texts ++ rest))))) := by simp
    rw [hassoc, scanPairs_pair hk h hblank hread, skipSpace_mark hblank' (by decide)]
    dsimp only
    rw [if_neg (by decide), if_pos rfl, hskip, hmore]
    rfl

end

/-- **`loads` reads any text of a value**, with white space around it. -/
theorem loads_text {x : Json} {text blank blank' : PyStr} (h : JsonText float e x text)
    (hblank : Blank blank) (hblank' : Blank blank') :
    loads float (blank ++ (text ++ blank')) = some x := by
  obtain ⟨c, cs, htext, -, hspace, hascii⟩ := h.begins
  have hbom : (blank ++ (text ++ blank')).head? ≠ some byteOrderMark := by
    intro hhead
    cases blank with
    | nil =>
      rw [htext] at hhead
      cases hhead
      exact absurd hascii (by decide)
    | cons d blank =>
      cases hhead
      exact absurd (hblank _ List.mem_cons_self) (by decide)
  have hskip : skipSpace (blank ++ (text ++ blank')) = text ++ blank' := by
    rw [htext]
    exact skipSpace_mark hblank hspace _
  have hdelimited : Delimited blank' := by
    have := hblank'.delimited delimited_nil
    rwa [List.append_nil] at this
  have hread := scanOnce_text h (2 * (blank ++ (text ++ blank')).length) blank' (by
    rw [List.length_append, List.length_append]
    omega) hdelimited
  rw [loads, if_neg hbom, hskip, hread]
  exact if_pos (skipSpace_blank hblank')

end Complete

/-! ### What `dumps` writes -/

/-- A float that `float` gives back from its `repr`, or one without digits. -/
def PyFloat.Reads (float : PyStr → PyFloat) (x : PyFloat) : Prop :=
  if x.isFinite then IsFloatText x.repr ∧ float x.repr = x
  else x ∈ [nan, infinity, negInfinity]

/-- A value that keeps what a `dict` and a `float` promise, and has no surrogate pair in a text where
these are escaped. -/
inductive Loadable (float : PyStr → PyFloat) (e : Bool) : Json → Prop
  | null : Loadable float e .null
  | bool (b : Bool) : Loadable float e (.bool b)
  | int (n : Int) : Loadable float e (.int n)
  | float {x : PyFloat} : x.Reads float → Loadable float e (.float x)
  | str {s : PyStr} : Readable e s → Loadable float e (.str s)
  | arr {xs : List Json} : (∀ x ∈ xs, Loadable float e x) → Loadable float e (.arr xs)
  | obj {kvs : Dict} : (kvs.map Prod.fst).Nodup → (∀ kv ∈ kvs, Readable e kv.1) →
      (∀ kv ∈ kvs, Loadable float e kv.2) → Loadable float e (.obj kvs)

/-- The separators are a comma and a colon, with white space after them. -/
structure DumpsOptions.Spaced (o : DumpsOptions) : Prop where
  item : ∃ blank, o.itemSeparator = ch ',' :: blank ∧ Blank blank
  key : ∃ blank, o.keySeparator = ch ':' :: blank ∧ Blank blank

theorem DumpsOptions.spaced_compact : DumpsOptions.compact.Spaced where
  item := ⟨[], rfl, blank_nil⟩
  key := ⟨[], rfl, blank_nil⟩

theorem blank_space : Blank [ch ' '] := by
  intro c hc
  rw [List.mem_singleton.mp hc]
  rfl

theorem DumpsOptions.spaced_default : DumpsOptions.default.Spaced where
  item := ⟨[ch ' '], rfl, blank_space⟩
  key := ⟨[ch ' '], rfl, blank_space⟩

section Dumps

variable {float : PyStr → PyFloat} {o : DumpsOptions}

theorem floatText_dumpsFloat {x : PyFloat} {text : PyStr} (hx : x.Reads float)
    (h : dumpsFloat o x = .ok text) : FloatText float x text := by
  rw [PyFloat.Reads] at hx
  rw [dumpsFloat] at h
  by_cases hfinite : x.isFinite = true
  · rw [if_pos hfinite] at hx h
    cases h
    exact .inl hx
  · rw [if_neg hfinite] at hx h
    by_cases hallow : o.allowNan = true
    · rw [if_pos hallow] at h
      cases h
      refine .inr ?_
      simp only [List.mem_cons, List.not_mem_nil, or_false] at hx
      rcases hx with rfl | rfl | rfl
      · show (py "NaN", Json.float nan) ∈ words
        simp [words]
      · show (py "Infinity", Json.float infinity) ∈ words
        simp [words]
      · show (py "-Infinity", Json.float negInfinity) ∈ words
        simp [words]
    · rw [if_neg hallow] at h
      cases h

/-- Texts of values, with a separator between them, are the inside of an array. -/
theorem valuesText_join {e : Bool} {blank blank' : PyStr} (hblank : Blank blank)
    (hblank' : Blank blank') {xs : List Json} {parts : List PyStr} (hne : xs ≠ [])
    (h : List.Forall₂ (JsonText float e) xs parts) :
    ValuesText float e xs (join (ch ',' :: blank) parts ++ (blank' ++ [ch ']'])) := by
  induction h with
  | nil => exact absurd rfl hne
  | @cons x part xs parts htext hrest ih =>
    cases hrest with
    | nil =>
      rw [join, List.intercalate_singleton]
      exact ValuesText.last htext hblank'
    | @cons x' part' xs parts htext' hrest =>
      have hmore := ValuesText.more htext blank_nil hblank (ih (List.cons_ne_nil _ _))
      have hassoc : join (ch ',' :: blank) (part :: part' :: parts) ++ (blank' ++ [ch ']']) =
          part ++ ([] ++ ch ',' :: (blank ++
            (join (ch ',' :: blank) (part' :: parts) ++ (blank' ++ [ch ']'])))) := by
        rw [join, join, List.intercalate_cons_cons]
        simp
      rw [hassoc]
      exact hmore

/-- The text of one item of an object. -/
def PairText (float : PyStr → PyFloat) (e : Bool) (blank : PyStr) (kv : PyStr × Json)
    (part : PyStr) : Prop :=
  ∃ text, Readable e kv.1 ∧ JsonText float e kv.2 text ∧
    part = dumpsStr e kv.1 ++ ch ':' :: (blank ++ text)

/-- Texts of items, with a separator between them, are the inside of an object. -/
theorem pairsText_join {e : Bool} {colon blank blank' : PyStr} (hcolon : Blank colon)
    (hblank : Blank blank) (hblank' : Blank blank') {kvs : Dict} {parts : List PyStr} (hne : kvs ≠ [])
    (h : List.Forall₂ (PairText float e colon) kvs parts) :
    PairsText float e kvs (join (ch ',' :: blank) parts ++ (blank' ++ [ch '\x7d'])) := by
  induction h with
  | nil => exact absurd rfl hne
  | @cons kv part kvs parts hpair hrest ih =>
    obtain ⟨text, hkey, htext, rfl⟩ := hpair
    cases hrest with
    | nil =>
      have hlast := PairsText.last hkey htext hcolon hblank'
      have hassoc : join (ch ',' :: blank) [dumpsStr e kv.1 ++ ch ':' :: (colon ++ text)] ++
          (blank' ++ [ch '\x7d']) =
          dumpsStr e kv.1 ++ ch ':' :: (colon ++ (text ++ (blank' ++ [ch '\x7d']))) := by
        rw [join, List.intercalate_singleton]
        simp
      rw [hassoc]
      exact hlast
    | @cons kv' part' kvs parts hpair' hrest =>
      have hmore := PairsText.more hkey htext hcolon blank_nil hblank (ih (List.cons_ne_nil _ _))
      have hassoc : join (ch ',' :: blank)
          ((dumpsStr e kv.1 ++ ch ':' :: (colon ++ text)) :: part' :: parts) ++
            (blank' ++ [ch '\x7d']) =
          dumpsStr e kv.1 ++ ch ':' :: (colon ++ (text ++ ([] ++ ch ',' :: (blank ++
            (join (ch ',' :: blank) (part' :: parts) ++ (blank' ++ [ch '\x7d'])))))) := by
        rw [join, join, List.intercalate_cons_cons]
        simp
      rw [hassoc]
      exact hmore

theorem texts_dumpsList {xs : List Json} {parts : List PyStr}
    (hxs : ∀ x ∈ xs, ∀ {text : PyStr}, dumps o x = .ok text →
      JsonText float o.ensureAscii x text) (h : dumpsList o xs = .ok parts) :
    List.Forall₂ (JsonText float o.ensureAscii) xs parts := by
  induction xs generalizing parts with
  | nil =>
    cases h
    exact .nil
  | cons x xs ih =>
    obtain ⟨part, hpart, h⟩ := bind_eq_ok.mp h
    obtain ⟨rest, hrest, h⟩ := bind_eq_ok.mp h
    cases h
    exact .cons (hxs x List.mem_cons_self hpart)
      (ih (fun y hy => hxs y (List.mem_cons_of_mem _ hy)) hrest)

theorem texts_dumpsItems {colon : PyStr} (hkey : o.keySeparator = ch ':' :: colon) {kvs : Dict}
    {parts : List PyStr} (hkeys : ∀ kv ∈ kvs, Readable o.ensureAscii kv.1)
    (hvalues : ∀ kv ∈ kvs, ∀ {text : PyStr}, dumps o kv.2 = .ok text →
      JsonText float o.ensureAscii kv.2 text) (h : dumpsItems o kvs = .ok parts) :
    List.Forall₂ (PairText float o.ensureAscii colon) kvs parts := by
  have hall := dumpsItems_eq_ok.mp h
  clear h
  induction hall with
  | nil => exact .nil
  | @cons kv part kvs parts hitem _ ih =>
    obtain ⟨text, htext, rfl⟩ := hitem
    refine .cons ⟨text, hkeys kv List.mem_cons_self, hvalues kv List.mem_cons_self htext, ?_⟩
      (ih (fun y hy => hkeys y (List.mem_cons_of_mem _ hy))
        fun y hy => hvalues y (List.mem_cons_of_mem _ hy))
    rw [hkey, List.append_assoc, List.cons_append]

/-- **What `dumps` writes is a text of the value.** -/
theorem text_dumps (hspaced : o.Spaced) {x : Json} (hx : Loadable float o.ensureAscii x) :
    ∀ {text : PyStr}, dumps o x = .ok text → JsonText float o.ensureAscii x text := by
  induction hx with
  | null =>
    intro text h
    cases h
    exact .null
  | bool b =>
    intro text h
    cases h
    exact .bool b
  | int n =>
    intro text h
    obtain ⟨hfew, rfl⟩ := intStr_eq_ok.mp h
    exact .int hfew
  | float hreads =>
    intro text h
    exact .float (floatText_dumpsFloat hreads h)
  | str hreadable =>
    intro text h
    cases h
    exact .str hreadable
  | @arr xs _ ih =>
    intro text h
    obtain ⟨parts, hparts, h⟩ := bind_eq_ok.mp h
    cases h
    by_cases hne : xs = []
    · subst hne
      cases hparts
      exact .arrNil blank_nil
    · obtain ⟨blank, hitem, hblank⟩ := hspaced.item
      rw [hitem, List.append_assoc]
      exact JsonText.arr blank_nil
        (valuesText_join hblank blank_nil hne (texts_dumpsList ih hparts))
  | @obj kvs hnodup hkeys _ ih =>
    intro text h
    obtain ⟨parts, hparts, h⟩ := bind_eq_ok.mp h
    cases h
    by_cases hne : kvs = []
    · subst hne
      cases hparts
      exact .objNil blank_nil
    · obtain ⟨blank, hitem, hblank⟩ := hspaced.item
      obtain ⟨colon, hkey, hcolon⟩ := hspaced.key
      rw [hitem, List.append_assoc]
      exact JsonText.obj blank_nil hnodup
        (pairsText_join hcolon hblank blank_nil hne (texts_dumpsItems hkey hkeys ih hparts))

/-- **`json.loads` gives back what `json.dumps` wrote.** -/
theorem loads_dumps (hspaced : o.Spaced) {x : Json} (hx : Loadable float o.ensureAscii x)
    {text : PyStr} (h : dumps o x = .ok text) : loads float text = some x := by
  have hloads := loads_text (text_dumps hspaced hx h) blank_nil blank_nil
  rwa [List.append_nil, List.nil_append] at hloads

end Dumps

/-! ### Texts on one line -/

/-- There is no control character in the text, a line break least of all. -/
def Printable (s : PyStr) : Prop := ∀ c ∈ s, 32 ≤ c.val

instance (s : PyStr) : Decidable (Printable s) := List.decidableBAll _ s

theorem Printable.append {s t : PyStr} (hs : Printable s) (ht : Printable t) :
    Printable (s ++ t) := by
  intro c hc
  rcases List.mem_append.mp hc with hc | hc
  · exact hs c hc
  · exact ht c hc

theorem Printable.newline {s : PyStr} (h : Printable s) : ch '\n' ∉ s := by
  intro hmem
  have := h _ hmem
  have hcode : (ch '\n').val = 10 := rfl
  omega

/-- Every character is a printable one of ASCII. -/
def Graphic (s : PyStr) : Prop := ∀ c ∈ s, 32 ≤ c.val ∧ c.val < 128

instance (s : PyStr) : Decidable (Graphic s) := List.decidableBAll _ s

theorem Graphic.append {s t : PyStr} (hs : Graphic s) (ht : Graphic t) : Graphic (s ++ t) := by
  intro c hc
  rcases List.mem_append.mp hc with hc | hc
  · exact hs c hc
  · exact ht c hc

theorem Graphic.printable {s : PyStr} (h : Graphic s) : Printable s := fun c hc => (h c hc).1

theorem graphic_digits {s : PyStr} (h : Digits s) : Graphic s := by
  intro c hc
  have hdigit := h c hc
  rw [isDecimalDigit, digitValue] at hdigit
  by_cases hrange : 48 ≤ c.val ∧ c.val ≤ 57
  · omega
  · rw [if_neg hrange] at hdigit
    cases hdigit

theorem graphic_hexDigit (d : Nat) : 32 ≤ (hexDigit d).val ∧ (hexDigit d).val < 128 := by
  rw [hexDigit]
  split
  · show 32 ≤ 48 + d ∧ 48 + d < 128
    omega
  · show 32 ≤ 87 + d % 16 ∧ 87 + d % 16 < 128
    omega

theorem graphic_unicodeEscape (n : Nat) : Graphic (unicodeEscape n) := by
  intro c hc
  simp only [unicodeEscape, List.mem_cons, List.not_mem_nil, or_false] at hc
  rcases hc with rfl | rfl | rfl | rfl | rfl | rfl
  · decide
  · decide
  · exact graphic_hexDigit _
  · exact graphic_hexDigit _
  · exact graphic_hexDigit _
  · exact graphic_hexDigit _

theorem graphic_strInt (n : Int) : Graphic (strInt n) := by
  have hdigits := graphic_digits (digits_strNat n.natAbs)
  have hminus : Graphic [ch '-'] := by decide
  rw [strInt]
  split
  · exact hminus.append hdigits
  · exact hdigits

/-- A text of a float, with digits or without. -/
theorem graphic_floatText {float : PyStr → PyFloat} {x : PyFloat} {text : PyStr}
    (h : FloatText float x text) : Graphic text := by
  rcases h with ⟨htext, -⟩ | hword
  · obtain ⟨sign, whole, fraction, exponent, hnumber, -, rfl⟩ := htext
    have hsign : Graphic sign := by
      rcases hnumber.sign with rfl | rfl <;> decide
    have hwhole : Graphic whole := by
      rcases hnumber.whole with rfl | ⟨-, hdigits, -⟩
      · decide
      · exact graphic_digits hdigits
    have hfraction : Graphic fraction := by
      rcases hnumber.fraction with rfl | ⟨ds, -, hdigits, rfl⟩
      · decide
      · have hpoint : Graphic [ch '.'] := by decide
        exact hpoint.append (graphic_digits hdigits)
    have hexponent : Graphic exponent := by
      rcases hnumber.exponent with rfl | ⟨letter, sign', ds, hletter, hsign', -, hdigits, rfl⟩
      · decide
      · have hmark : Graphic (letter :: sign') := by
          simp only [List.mem_cons, List.not_mem_nil, or_false] at hsign'
          rcases hletter with rfl | rfl <;> rcases hsign' with rfl | rfl | rfl <;> decide
        exact hmark.append (graphic_digits hdigits)
    exact ((hsign.append hwhole).append hfraction).append hexponent
  · simp only [words, List.mem_cons, List.not_mem_nil, or_false] at hword
    rcases hword with hword | hword | hword | hword | hword | hword <;> cases hword <;> decide

theorem Escaped.printable {e : Bool} {c : PyChar} {text : PyStr} (h : Escaped e c text) :
    Printable text := by
  cases h with
  | short letter _ hshort =>
    intro d hd
    simp only [List.mem_cons, List.not_mem_nil, or_false] at hd
    rcases hd with rfl | rfl
    · decide
    · by_contra hlow
      rw [shortEscape] at hshort
      have hne : ∀ {d' : PyChar}, 32 ≤ d'.val → d ≠ d' := by
        rintro d' hd' rfl
        exact hlow hd'
      rw [if_neg (hne (by decide)), if_neg (hne (by decide)), if_neg (hne (by decide)),
        if_neg (hne (by decide)), if_neg (hne (by decide)), if_neg (hne (by decide)),
        if_neg (hne (by decide)), if_neg (hne (by decide))] at hshort
      cases hshort
  | unit _ _ => exact (graphic_unicodeEscape _).printable
  | pair _ _ => exact ((graphic_unicodeEscape _).append (graphic_unicodeEscape _)).printable
  | plain hcontrol _ _ =>
    intro d hd
    rw [List.mem_singleton.mp hd]
    exact hcontrol

theorem printable_dumpsStr (e : Bool) (s : PyStr) : Printable (dumpsStr e s) := by
  have hquote : Printable [ch '"'] := by decide
  refine (hquote.append fun c hc => ?_).append hquote
  obtain ⟨d, -, hd⟩ := List.mem_flatMap.mp hc
  exact (escaped_escapeChar e d).printable c hd

theorem printable_join {sep : PyStr} (hsep : Printable sep) {parts : List PyStr}
    (h : ∀ part ∈ parts, Printable part) : Printable (join sep parts) := by
  cases parts with
  | nil => exact fun _ hc => nomatch hc
  | cons part parts =>
    rw [join, intercalate_cons]
    refine (h part List.mem_cons_self).append fun c hc => ?_
    obtain ⟨next, hnext, hc⟩ := List.mem_flatMap.mp hc
    exact (hsep.append (h next (List.mem_cons_of_mem _ hnext))) c hc

section Printable

variable {float : PyStr → PyFloat} {o : DumpsOptions}

theorem printable_dumpsList {xs : List Json} {parts : List PyStr}
    (hxs : ∀ x ∈ xs, ∀ {text : PyStr}, dumps o x = .ok text → Printable text)
    (h : dumpsList o xs = .ok parts) : ∀ part ∈ parts, Printable part := by
  induction xs generalizing parts with
  | nil =>
    cases h
    exact fun _ hpart => nomatch hpart
  | cons x xs ih =>
    obtain ⟨part, hpart, h⟩ := bind_eq_ok.mp h
    obtain ⟨rest, hrest, h⟩ := bind_eq_ok.mp h
    cases h
    intro p hp
    rcases List.mem_cons.mp hp with rfl | hp
    · exact hxs x List.mem_cons_self hpart
    · exact ih (fun y hy => hxs y (List.mem_cons_of_mem _ hy)) hrest p hp

theorem printable_dumpsItems (hkey : Printable o.keySeparator) {kvs : Dict} {parts : List PyStr}
    (hvalues : ∀ kv ∈ kvs, ∀ {text : PyStr}, dumps o kv.2 = .ok text → Printable text)
    (h : dumpsItems o kvs = .ok parts) : ∀ part ∈ parts, Printable part := by
  have hall := dumpsItems_eq_ok.mp h
  clear h
  induction hall with
  | nil => exact fun _ hpart => nomatch hpart
  | cons hitem _ ih =>
    obtain ⟨part, hpart, rfl⟩ := hitem
    intro p hp
    rcases List.mem_cons.mp hp with rfl | hp
    · exact ((printable_dumpsStr _ _).append hkey).append (hvalues _ List.mem_cons_self hpart)
    · exact ih (fun y hy => hvalues y (List.mem_cons_of_mem _ hy)) p hp

/-- **What `dumps` writes is one line**, if its separators are. -/
theorem printable_dumps (hitem : Printable o.itemSeparator) (hkey : Printable o.keySeparator)
    {e : Bool} {x : Json} (hx : Loadable float e x) :
    ∀ {text : PyStr}, dumps o x = .ok text → Printable text := by
  have hbrackets : Printable [ch '['] ∧ Printable [ch ']'] ∧ Printable [ch '\x7b'] ∧
      Printable [ch '\x7d'] := by decide
  obtain ⟨hopen, hclose, hbrace, hbrace'⟩ := hbrackets
  induction hx with
  | null =>
    intro text h
    cases h
    decide
  | bool b =>
    intro text h
    cases h
    cases b <;> decide
  | int n =>
    intro text h
    obtain ⟨-, rfl⟩ := intStr_eq_ok.mp h
    exact (graphic_strInt n).printable
  | float hreads =>
    intro text h
    exact (graphic_floatText (floatText_dumpsFloat hreads h)).printable
  | str _ =>
    intro text h
    cases h
    exact printable_dumpsStr _ _
  | arr _ ih =>
    intro text h
    obtain ⟨parts, hparts, h⟩ := bind_eq_ok.mp h
    cases h
    exact (hopen.append (printable_join hitem (printable_dumpsList ih hparts))).append hclose
  | obj _ _ _ ih =>
    intro text h
    obtain ⟨parts, hparts, h⟩ := bind_eq_ok.mp h
    cases h
    exact (hbrace.append (printable_join hitem (printable_dumpsItems hkey ih hparts))).append hbrace'

end Printable

end SnowflakeSqlApi
