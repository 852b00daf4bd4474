import SnowflakeSqlApi.Python.Loads

/-!
# `json.dumps` with an indent

The text that `json.dumps(value, indent=n)` lays out over lines, `dumpsIndent`.  It is a text of
the value as the compact one is, with other white space (`text_dumpsIndent`), so that `loads`
reads both; and as strings are escaped, it is ASCII (`ascii_text`).
-/

namespace SnowflakeSqlApi

/-- A line break, and the indent of a level. -/
def newlineIndent (width level : Nat) : PyStr := ch '\n' :: List.replicate (width * level) (ch ' ')

/-- The parts of a composite, each on a line of its own; without parts there is no line break. -/
def bracketed (opening closing : PyChar) (width level : Nat) (parts : List PyStr) : PyStr :=
  if parts = [] then [opening, closing]
  else opening :: newlineIndent width (level + 1)
    ++ (join (ch ',' :: newlineIndent width (level + 1)) parts
      ++ (newlineIndent width level ++ [closing]))

mutual

/-- `json.dumps(value, indent=width)`, from a level on. -/
def dumpsIndent (width : Nat) : Nat → Json → Except Exc PyStr
  | level, .arr xs => do
    let parts ← dumpsIndentList width (level + 1) xs
    pure (bracketed (ch '[') (ch ']') width level parts)
  | level, .obj kvs => do
    let parts ← dumpsIndentItems width (level + 1) kvs
    pure (bracketed (ch '\x7b') (ch '\x7d') width level parts)
  | _, .null => dumps .default .null
  | _, .bool b => dumps .default (.bool b)
  | _, .int n => dumps .default (.int n)
  | _, .float x => dumps .default (.float x)
  | _, .str s => dumps .default (.str s)
  | _, .other type => dumps .default (.other type)

def dumpsIndentList (width : Nat) : Nat → List Json → Except Exc (List PyStr)
  | _, [] => .ok []
  | level, x :: xs => do
    let part ← dumpsIndent width level x
    let parts ← dumpsIndentList width level xs
    pure (part :: parts)

def dumpsIndentItems (width : Nat) : Nat → List (PyStr × Json) → Except Exc (List PyStr)
  | _, [] => .ok []
  | level, (k, v) :: kvs => do
    let part ← dumpsIndent width level v
    let parts ← dumpsIndentItems width level kvs
    pure ((dumpsStr true k ++ py ": " ++ part) :: parts)

end

/-! ### The text of a value -/

theorem blank_newlineIndent (width level : Nat) : Blank (newlineIndent width level) := by
  intro c hc
  rcases List.mem_cons.mp hc with rfl | hc
  · rfl
  · rw [List.eq_of_mem_replicate hc]
    rfl

section Text

variable {float : PyStr → PyFloat} {width : Nat}

theorem texts_dumpsIndentList {level : Nat} {xs : List Json} {parts : List PyStr}
    (hxs : ∀ x ∈ xs, ∀ {text : PyStr}, dumpsIndent width level x = .ok text →
      JsonText float true x text) (h : dumpsIndentList width level xs = .ok parts) :
    List.Forall₂ (JsonText float true) xs parts := by
  induction xs generalizing parts with
  | nil =>
    rw [dumpsIndentList] at h
    cases h
    exact .nil
  | cons x xs ih =>
    rw [dumpsIndentList] at h
    obtain ⟨part, hpart, h⟩ := bind_eq_ok.mp h
    obtain ⟨rest, hrest, h⟩ := bind_eq_ok.mp h
    cases h
    exact .cons (hxs x List.mem_cons_self hpart)
      (ih (fun y hy => hxs y (List.mem_cons_of_mem _ hy)) hrest)

theorem texts_dumpsIndentItems {level : Nat} {kvs : Dict} {parts : List PyStr}
    (hkeys : ∀ kv ∈ kvs, Readable true kv.1)
    (hvalues : ∀ kv ∈ kvs, ∀ {text : PyStr}, dumpsIndent width level kv.2 = .ok text →
      JsonText float true kv.2 text) (h : dumpsIndentItems width level kvs = .ok parts) :
    List.Forall₂ (PairText float true [ch ' ']) kvs parts := by
  induction kvs generalizing parts with
  | nil =>
    rw [dumpsIndentItems] at h
    cases h
    exact .nil
  | cons kv kvs ih =>
    rw [dumpsIndentItems] at h
    obtain ⟨part, hpart, h⟩ := bind_eq_ok.mp h
    obtain ⟨rest, hrest, h⟩ := bind_eq_ok.mp h
    cases h
    refine .cons ⟨part, hkeys kv List.mem_cons_self, hvalues kv List.mem_cons_self hpart, ?_⟩
      (ih (fun y hy => hkeys y (List.mem_cons_of_mem _ hy))
        (fun y hy => hvalues y (List.mem_cons_of_mem _ hy)) hrest)
    show dumpsStr true kv.1 ++ [ch ':', ch ' '] ++ part = _
    rw [List.append_assoc, List.cons_append]

/-- **A text laid out over lines is a text of the value.** -/
theorem text_dumpsIndent {x : Json} (hx : Loadable float true x) :
    ∀ {level : Nat} {text : PyStr}, dumpsIndent width level x = .ok text →
      JsonText float true x text := by
  induction hx with
  | null =>
    intro level text h
    rw [dumpsIndent] at h
    exact text_dumps DumpsOptions.spaced_default .null h
  | bool b =>
    intro level text h
    rw [dumpsIndent] at h
    exact text_dumps DumpsOptions.spaced_default (.bool b) h
  | int n =>
    intro level text h
    rw [dumpsIndent] at h
    exact text_dumps DumpsOptions.spaced_default (.int n) h
  | float hreads =>
    intro level text h
    rw [dumpsIndent] at h
    exact text_dumps DumpsOptions.spaced_default (.float hreads) h
  | str hreadable =>
    intro level text h
    rw [dumpsIndent] at h
    exact text_dumps DumpsOptions.spaced_default (.str hreadable) h
  | @arr xs _ ih =>
    intro level text h
    rw [dumpsIndent] at h
    obtain ⟨parts, hparts, h⟩ := bind_eq_ok.mp h
    cases h
    have htexts := texts_dumpsIndentList (fun x hx => ih x hx) hparts
    rw [bracketed]
    by_cases hne : parts = []
    · rw [if_pos hne]
      rw [hne] at htexts
      cases htexts
      exact .arrNil blank_nil
    · rw [if_neg hne]
      have hxs : xs ≠ [] := by
        rintro rfl
        cases htexts
        exact hne rfl
      exact .arr (blank_newlineIndent width _)
        (valuesText_join (blank_newlineIndent width _) (blank_newlineIndent width _) hxs htexts)
  | @obj kvs hnodup hkeys _ ih =>
    intro level text h
    rw [dumpsIndent] at h
    obtain ⟨parts, hparts, h⟩ := bind_eq_ok.mp h
    cases h
    have htexts := texts_dumpsIndentItems hkeys (fun kv hkv => ih kv hkv) hparts
    rw [bracketed]
    by_cases hne : parts = []
    · rw [if_pos hne]
      rw [hne] at htexts
      cases htexts
      exact .objNil blank_nil
    · rw [if_neg hne]
      have hkvs : kvs ≠ [] := by
        rintro rfl
        cases htexts
        exact hne rfl
      exact .obj (blank_newlineIndent width _) hnodup
        (pairsText_join blank_space (blank_newlineIndent width _) (blank_newlineIndent width _) hkvs
          htexts)

theorem exists_dumpsFloat (x : PyFloat) : ∃ text, dumps .default (.float x) = .ok text := by
  rw [dumps, dumpsFloat]
  by_cases hfinite : x.isFinite = true
  · exact ⟨_, if_pos hfinite⟩
  · rw [if_neg hfinite]
    exact ⟨_, if_pos rfl⟩

/-- A value that `dumps` writes: no integer in it has too many digits, and nothing in it is of a type
without a JSON form. -/
inductive Writable : Json → Prop
  | null : Writable .null
  | bool (b : Bool) : Writable (.bool b)
  | int {n : Int} : FewDigits n → Writable (.int n)
  | float (x : PyFloat) : Writable (.float x)
  | str (s : PyStr) : Writable (.str s)
  | arr {xs : List Json} : (∀ x ∈ xs, Writable x) → Writable (.arr xs)
  | obj {kvs : Dict} : (∀ kv ∈ kvs, Writable kv.2) → Writable (.obj kvs)

theorem Writable.exists_dumpsIndent {x : Json} (hx : Writable x) :
    ∀ level, ∃ text, dumpsIndent width level x = .ok text := by
  induction hx with
  | null => exact fun _ => ⟨_, by rw [dumpsIndent]; rfl⟩
  | bool b => exact fun _ => ⟨_, by rw [dumpsIndent]; rfl⟩
  | int hfew => exact fun _ => ⟨_, by rw [dumpsIndent]; exact intStr_of_few hfew⟩
  | str _ => exact fun _ => ⟨_, by rw [dumpsIndent]; rfl⟩
  | float x =>
    intro level
    rw [dumpsIndent]
    exact exists_dumpsFloat x
  | @arr xs _ ih =>
    intro level
    have hparts : ∃ parts, dumpsIndentList width (level + 1) xs = .ok parts := by
      clear * - ih
      induction xs with
      | nil => exact ⟨[], by rw [dumpsIndentList]⟩
      | cons x xs ihs =>
        obtain ⟨part, hpart⟩ := ih x List.mem_cons_self (level + 1)
        obtain ⟨parts, hparts⟩ := ihs fun y hy => ih y (List.mem_cons_of_mem _ hy)
        exact ⟨part :: parts, by rw [dumpsIndentList, hpart, hparts]; rfl⟩
    obtain ⟨parts, hparts⟩ := hparts
    exact ⟨_, by rw [dumpsIndent, hparts]; rfl⟩
  | @obj kvs _ ih =>
    intro level
    have hparts : ∃ parts, dumpsIndentItems width (level + 1) kvs = .ok parts := by
      clear * - ih
      induction kvs with
      | nil => exact ⟨[], by rw [dumpsIndentItems]⟩
      | cons kv kvs ihs =>
        obtain ⟨part, hpart⟩ := ih kv List.mem_cons_self (level + 1)
        obtain ⟨parts, hparts⟩ := ihs fun y hy => ih y (List.mem_cons_of_mem _ hy)
        exact ⟨_ :: parts, by rw [dumpsIndentItems, hpart, hparts]; rfl⟩
    obtain ⟨parts, hparts⟩ := hparts
    exact ⟨_, by rw [dumpsIndent, hparts]; rfl⟩

/-- The layout of a row of a result. -/
example : dumpsIndent 2 0 (.arr [.obj [(py "N", .int 1), (py "A", .arr [])], .null]) =
    .ok (py "[\n  \x7b\n    \"N\": 1,\n    \"A\": []\n  \x7d,\n  null\n]") := rfl

end Text

/-! ### ASCII -/

/-- Every character is one of ASCII. -/
def Ascii (s : PyStr) : Prop := ∀ c ∈ s, c.val < 128

instance (s : PyStr) : Decidable (Ascii s) := List.decidableBAll _ s

theorem Ascii.append {s t : PyStr} (hs : Ascii s) (ht : Ascii t) : Ascii (s ++ t) := by
  intro c hc
  rcases List.mem_append.mp hc with hc | hc
  · exact hs c hc
  · exact ht c hc

theorem Ascii.cons {c : PyChar} {s : PyStr} (hc : c.val < 128) (hs : Ascii s) : Ascii (c :: s) :=
  List.forall_mem_cons.mpr ⟨hc, hs⟩

theorem Graphic.ascii {s : PyStr} (h : Graphic s) : Ascii s := fun c hc => (h c hc).2

theorem ascii_escapeChar (c : PyChar) : Ascii (escapeChar true c) := by
  rw [escapeChar]
  split_ifs with _ _ _ _ _ _ _ _ hwide hbmp
  · decide
  · decide
  · decide
  · decide
  · decide
  · decide
  · decide
  · exact (graphic_unicodeEscape _).ascii
  · exact (graphic_unicodeEscape _).ascii
  · exact ((graphic_unicodeEscape _).append (graphic_unicodeEscape _)).ascii
  · have hnarrow : ¬126 < c.val := fun h => hwide (by simp [h])
    intro d hd
    rw [List.mem_singleton.mp hd]
    omega

theorem ascii_dumpsStr (s : PyStr) : Ascii (dumpsStr true s) := by
  have hquote : Ascii [ch '"'] := by decide
  refine (hquote.append fun c hc => ?_).append hquote
  obtain ⟨d, -, hd⟩ := List.mem_flatMap.mp hc
  exact ascii_escapeChar d c hd

theorem ascii_blank {s : PyStr} (h : Blank s) : Ascii s := by
  intro c hc
  have hspace := h c hc
  simp only [isJsonSpace, Bool.or_eq_true, decide_eq_true_eq] at hspace
  rcases hspace with ((rfl | rfl) | rfl) | rfl <;> decide

section Ascii

variable {float : PyStr → PyFloat}

mutual

/-- **A text with its strings escaped is ASCII.** -/
theorem ascii_text : ∀ {x : Json} {text : PyStr}, JsonText float true x text → Ascii text
  | _, _, .null => by decide
  | _, _, .bool b => by cases b <;> decide
  | _, _, .int _ => (graphic_strInt _).ascii
  | _, _, .float h => (graphic_floatText h).ascii
  | _, _, .str _ => ascii_dumpsStr _
  | _, _, .arrNil hblank => (Ascii.cons (by decide) (ascii_blank hblank)).append (by decide)
  | _, _, .arr hblank h => (Ascii.cons (by decide) (ascii_blank hblank)).append (ascii_values h)
  | _, _, .objNil hblank => (Ascii.cons (by decide) (ascii_blank hblank)).append (by decide)
  | _, _, .obj hblank _ h => (Ascii.cons (by decide) (ascii_blank hblank)).append (ascii_pairs h)

theorem ascii_values : ∀ {xs : List Json} {text : PyStr}, ValuesText float true xs text → Ascii text
  | _, _, .last h hblank => (ascii_text h).append ((ascii_blank hblank).append (by decide))
  | _, _, .more h hblank hblank' hmore => (ascii_text h).append ((ascii_blank hblank).append
      (.cons (by decide) ((ascii_blank hblank').append (ascii_values hmore))))

theorem ascii_pairs : ∀ {kvs : Dict} {text : PyStr}, PairsText float true kvs text → Ascii text
  | _, _, .last _ h hblank hblank' => (ascii_dumpsStr _).append (.cons (by decide)
      ((ascii_blank hblank).append ((ascii_text h).append ((ascii_blank hblank').append (by decide)))))
  | _, _, .more _ h hblank hblank' hblank'' hmore => (ascii_dumpsStr _).append (.cons (by decide)
      ((ascii_blank hblank).append ((ascii_text h).append ((ascii_blank hblank').append
        (.cons (by decide) ((ascii_blank hblank'').append (ascii_pairs hmore)))))))

end

end Ascii

end SnowflakeSqlApi
