import SnowflakeSqlApi.Python.Text

/-!
# Tokens of SQL text

The lexical rule of quoted identifiers: a double quote opens one, a doubled double
quote inside it is a literal quote, a single one closes it.  Outside quotes, word
characters make words, whitespace separates and every other character is a token.

`lex` is an automaton run over the text.  Two facts make texts compose: after a text
that leaves the automaton at rest (`Ends`) anything may follow, `Ends.lex_append`,
and after any complete text a delimiter may follow, `lex_append`.  `lex_join` is the
separated list, and `lex_quoted` a quoted identifier.
-/

namespace SnowflakeSqlApi.SqlLexer

inductive Token
  | word (s : PyStr)
  | ident (s : PyStr)
  | punct (c : PyChar)
  deriving DecidableEq

inductive Mode
  | start
  | word (acc : PyStr)
  | quoted (acc : PyStr)
  /-- After a double quote inside a quoted identifier. -/
  | closing (acc : PyStr)
  deriving DecidableEq

def isWordChar (c : PyChar) : Bool :=
  (48 ≤ c.val && c.val ≤ 57) || (65 ≤ c.val && c.val ≤ 90) || (97 ≤ c.val && c.val ≤ 122)
    || c = ch '_' || c = ch '$' || 128 ≤ c.val

/-- A character read at rest. -/
def fresh (c : PyChar) : List Token × Mode :=
  if c = ch '"' then ([], .quoted [])
  else if isWordChar c then ([], .word [c])
  else if isSpace c then ([], .start)
  else ([.punct c], .start)

def step : Mode → PyChar → List Token × Mode
  | .start, c => fresh c
  | .word acc, c =>
    if isWordChar c then ([], .word (acc ++ [c])) else (.word acc :: (fresh c).1, (fresh c).2)
  | .quoted acc, c => if c = ch '"' then ([], .closing acc) else ([], .quoted (acc ++ [c]))
  | .closing acc, c =>
    if c = ch '"' then ([], .quoted (acc ++ [c])) else (.ident acc :: (fresh c).1, (fresh c).2)

/-- The tokens a mode holds at the end of the text, none inside quotes. -/
def finish : Mode → Option (List Token)
  | .start => some []
  | .word acc => some [.word acc]
  | .quoted _ => none
  | .closing acc => some [.ident acc]

def scan : Mode → PyStr → List Token × Mode
  | m, [] => ([], m)
  | m, c :: cs => ((step m c).1 ++ (scan (step m c).2 cs).1, (scan (step m c).2 cs).2)

/-- The tokens of a text, `none` when a quoted identifier is left open. -/
def lex (s : PyStr) : Option (List Token) := (finish (scan .start s).2).map ((scan .start s).1 ++ ·)

theorem scan_append (m : Mode) (s t : PyStr) :
    scan m (s ++ t) =
      ((scan m s).1 ++ (scan (scan m s).2 t).1, (scan (scan m s).2 t).2) := by
  induction s generalizing m with
  | nil => rfl
  | cons c cs ih => rw [List.cons_append, scan, ih, scan, List.append_assoc]

theorem lex_eq_some {s : PyStr} {tokens : List Token} :
    lex s = some tokens ↔
      ∃ last, finish (scan .start s).2 = some last ∧ tokens = (scan .start s).1 ++ last := by
  rw [lex, Option.map_eq_some_iff]
  refine exists_congr fun last => and_congr Iff.rfl ?_
  exact eq_comm

/-! ### Texts one after the other -/

/-- The text leaves the automaton at rest, with these tokens. -/
def Ends (s : PyStr) (tokens : List Token) : Prop := scan .start s = (tokens, .start)

theorem Ends.lex_append {s t : PyStr} {a b : List Token} (hs : Ends s a) (ht : lex t = some b) :
    lex (s ++ t) = some (a ++ b) := by
  obtain ⟨last, hlast, rfl⟩ := lex_eq_some.mp ht
  refine lex_eq_some.mpr ⟨last, ?_, ?_⟩
  · rw [scan_append, hs]
    exact hlast
  · rw [scan_append, hs, List.append_assoc]

/-- A character that ends a word and a quoted identifier. -/
def Delimits (c : PyChar) : Prop := c ≠ ch '"' ∧ isWordChar c = false

instance (c : PyChar) : Decidable (Delimits c) := inferInstanceAs (Decidable (_ ∧ _))

/-- What a complete text holds back is released by a delimiter. -/
theorem step_delimiter {m : Mode} {last : List Token} {c : PyChar} (hm : finish m = some last)
    (hc : Delimits c) : step m c = (last ++ (fresh c).1, (fresh c).2) := by
  cases m with
  | start => cases hm; rfl
  | word acc => cases hm; rw [step, if_neg (by simp [hc.2])]; rfl
  | quoted acc => cases hm
  | closing acc => cases hm; rw [step, if_neg hc.1]; rfl

theorem scan_delimiter {m : Mode} {last : List Token} {c : PyChar} (hm : finish m = some last)
    (hc : Delimits c) (t : PyStr) :
    scan m (c :: t) = (last ++ (scan .start (c :: t)).1, (scan .start (c :: t)).2) := by
  rw [scan, step_delimiter hm hc, scan, step, List.append_assoc]

/-- **A delimiter may follow any complete text.** -/
theorem lex_append {s t : PyStr} {a b : List Token} {c : PyChar} (hs : lex s = some a)
    (hhead : t.head? = some c) (hc : Delimits c) (ht : lex t = some b) :
    lex (s ++ t) = some (a ++ b) := by
  obtain ⟨t, rfl⟩ := List.head?_eq_some_iff.mp hhead
  obtain ⟨last, hlast, rfl⟩ := lex_eq_some.mp hs
  obtain ⟨last', hlast', rfl⟩ := lex_eq_some.mp ht
  refine lex_eq_some.mpr ⟨last', ?_, ?_⟩
  · rw [scan_append, scan_delimiter hlast hc]
    exact hlast'
  · rw [scan_append, scan_delimiter hlast hc]
    simp only [List.append_assoc]

/-- **A separated list** has the tokens of its members, separated. -/
theorem lex_join {sep : PyStr} {c : PyChar} {ts : List Token} (hc : Delimits c)
    (hsep : Ends (c :: sep) ts) :
    ∀ {parts : List PyStr} {as : List (List Token)}, parts ≠ [] →
      List.Forall₂ (fun p a => lex p = some a) parts as →
        lex (join (c :: sep) parts) = some (ts.intercalate as) := by
  intro parts
  induction parts with
  | nil => intro as h _; exact absurd rfl h
  | cons p parts ih =>
    intro as _ h
    obtain _ | ⟨hp, h⟩ := h
    cases h with
    | nil => simpa [join] using hp
    | cons hp' h =>
      rw [join, List.intercalate_cons_cons, List.intercalate_cons_cons, List.append_assoc,
        List.append_assoc, List.cons_append]
      refine lex_append hp rfl hc ?_
      rw [← List.cons_append]
      exact hsep.lex_append (ih (by simp) (.cons hp' h))

theorem lex_join_replicate {sep part : PyStr} {c : PyChar} {ts a : List Token} (hc : Delimits c)
    (hsep : Ends (c :: sep) ts) (hpart : lex part = some a) {n : Nat} (hn : n ≠ 0) :
    lex (join (c :: sep) (List.replicate n part)) = some (ts.intercalate (List.replicate n a)) := by
  refine lex_join hc hsep ?_ ?_
  · intro he
    exact hn (by simpa using congrArg List.length he)
  · clear hn
    induction n with
    | zero => exact .nil
    | succ n ih => exact .cons hpart ih

/-! ### Quoted identifiers -/

/-- `name.replace('"', '""')`. -/
def doubleQuotes (s : PyStr) : PyStr := s.flatMap fun c => if c = ch '"' then [c, c] else [c]

theorem scan_doubleQuotes (s acc : PyStr) :
    scan (.quoted acc) (doubleQuotes s) = ([], .quoted (acc ++ s)) := by
  induction s generalizing acc with
  | nil => simp [doubleQuotes, scan]
  | cons c cs ih =>
    have htail : doubleQuotes (c :: cs) =
        (if c = ch '"' then [c, c] else [c]) ++ doubleQuotes cs := List.flatMap_cons
    rw [htail, scan_append]
    by_cases hc : c = ch '"'
    · rw [if_pos hc, scan, step, if_pos hc, scan, step, if_pos hc]
      simp [scan, ih]
    · rw [if_neg hc, scan, step, if_neg hc]
      simp [scan, ih]

/-- **A quoted name is one identifier token, the name itself**, whatever the name holds. -/
theorem lex_quoted (s : PyStr) : lex (ch '"' :: doubleQuotes s ++ [ch '"']) = some [.ident s] := by
  have hopen : scan .start [ch '"'] = ([], .quoted []) := by decide
  have hscan : scan .start (ch '"' :: doubleQuotes s ++ [ch '"']) = ([], .closing s) := by
    rw [← List.singleton_append, List.append_assoc, scan_append, hopen]
    dsimp only
    rw [scan_append, scan_doubleQuotes]
    rfl
  rw [lex, hscan]
  rfl

end SnowflakeSqlApi.SqlLexer
