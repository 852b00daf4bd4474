import SnowflakeSqlApi.Python.Dumps

/-!
# Scanning JSON text

The scanners of `json.loads` for the two kinds of token that are more than a fixed word: a
string after its opening quote (`scanString`) and a number (`scanNumber`).  Each returns what it
read and the text after it.

`scanString_escapeStr` reads an escaped string back, with one exception that is real: where
everything outside ASCII is escaped, two surrogates that stand next to each other in the text are
read as the one character that they encode.  `scanNumber_strInt` and `scanNumber_float` read
numbers back, as long as the text after them does not go on with the number.
-/

namespace SnowflakeSqlApi

/-! ### Strings -/

/-- The character of an escape with one letter. -/
def shortEscape (letter : PyChar) : Option PyChar :=
  if letter = ch '"' then some (ch '"')
  else if letter = ch '\\' then some (ch '\\')
  else if letter = ch '/' then some (ch '/')
  else if letter = ch 'b' then some 8
  else if letter = ch 'f' then some 12
  else if letter = ch 'n' then some (ch '\n')
  else if letter = ch 'r' then some (ch '\r')
  else if letter = ch 't' then some (ch '\t')
  else none

/-- Four hexadecimal digits, as the number they write. -/
def scanCodeUnit : PyStr → Option (Nat × PyStr)
  | a :: b :: c :: d :: cs => do
    let a ← hexValue a
    let b ← hexValue b
    let c ← hexValue c
    let d ← hexValue d
    pure (a * 4096 + b * 256 + c * 16 + d, cs)
  | _ => none

def IsHighSurrogate (n : Nat) : Prop := 0xD800 ≤ n ∧ n < 0xDC00

def IsLowSurrogate (n : Nat) : Prop := 0xDC00 ≤ n ∧ n < 0xE000

instance (n : Nat) : Decidable (IsHighSurrogate n) := inferInstanceAs (Decidable (_ ∧ _))

instance (n : Nat) : Decidable (IsLowSurrogate n) := inferInstanceAs (Decidable (_ ∧ _))

/-- The code point `n`. -/
def charOf (n : Nat) : Option PyChar := if h : n < 0x110000 then some ⟨n, h⟩ else none

/-- The low surrogate of a `\uXXXX` escape, with the text after it. -/
def scanLowSurrogate : PyStr → Option (Option (Nat × PyStr))
  | b :: u :: cs =>
    if b = ch '\\' ∧ u = ch 'u' then
      (scanCodeUnit cs).map fun low => if IsLowSurrogate low.1 then some low else none
    else some none
  | _ => some none

/-- The escape after a backslash. A high surrogate takes the low one after it. -/
def scanEscape : PyStr → Option (PyChar × PyStr)
  | [] => none
  | e :: cs =>
    if e = ch 'u' then do
      let (unit, rest) ← scanCodeUnit cs
      if IsHighSurrogate unit then
        match ← scanLowSurrogate rest with
        | some (low, rest) =>
          let c ← charOf (0x10000 + (unit - 0xD800) * 1024 + (low - 0xDC00))
          pure (c, rest)
        | none => (charOf unit).map fun c => (c, rest)
      else (charOf unit).map fun c => (c, rest)
    else (shortEscape e).map fun c => (c, cs)

/-- One character of a string, whose text begins with `c`. -/
def scanChar (c : PyChar) (cs : PyStr) : Option (PyChar × PyStr) :=
  if c = ch '\\' then scanEscape cs else if c.val < 32 then none else some (c, cs)

/-- `scanstring`: the text up to the closing quote, in at most so many characters. -/
def scanString : Nat → PyStr → Option (PyStr × PyStr)
  | 0, _ => none
  | _ + 1, [] => none
  | n + 1, c :: cs =>
    if c = ch '"' then some ([], cs)
    else do
      let (c, rest) ← scanChar c cs
      let (s, rest) ← scanString n rest
      pure (c :: s, rest)

/-! ### Escaped strings read back -/

/-- No high surrogate stands before a low one. -/
def Unpaired (s : PyStr) : Prop :=
  s.IsChain fun c d => ¬ (IsHighSurrogate c.val ∧ IsLowSurrogate d.val)

/-- Escapes give the text away again: they do unless everything outside ASCII is escaped and
two surrogates make a pair. -/
def Readable (ensureAscii : Bool) (s : PyStr) : Prop := ensureAscii = true → Unpaired s

theorem Readable.tail {e : Bool} {c : PyChar} {s : PyStr} (h : Readable e (c :: s)) :
    Readable e s := fun he => (h he).of_cons

theorem readable_false (s : PyStr) : Readable false s := fun h => nomatch h

theorem hexValue_hexDigit_mod (n : Nat) : hexValue (hexDigit (n % 16)) = some (n % 16) := by
  have hall : ∀ d < 16, hexValue (hexDigit d) = some d := by decide
  exact hall _ (Nat.mod_lt _ (by decide))

/-- The digits of a code unit read back. -/
theorem scanCodeUnit_hexDigits {n : Nat} (h : n < 0x10000) (rest : PyStr) :
    scanCodeUnit ([hexDigit (n / 4096 % 16), hexDigit (n / 256 % 16), hexDigit (n / 16 % 16),
      hexDigit (n % 16)] ++ rest) = some (n, rest) := by
  have hsum : n / 4096 % 16 * 4096 + n / 256 % 16 * 256 + n / 16 % 16 * 16 + n % 16 = n := by omega
  show scanCodeUnit (_ :: _ :: _ :: _ :: rest) = _
  rw [scanCodeUnit, hexValue_hexDigit_mod, hexValue_hexDigit_mod, hexValue_hexDigit_mod,
    hexValue_hexDigit_mod]
  show some (_, rest) = _
  rw [hsum]

theorem scanEscape_unit {n : Nat} (h : n < 0x10000) {rest : PyStr}
    (hrest : IsHighSurrogate n → scanLowSurrogate rest = some none) :
    scanEscape ((unicodeEscape n).tail ++ rest) = some (⟨n, by omega⟩, rest) := by
  have hchar : charOf n = some ⟨n, by omega⟩ := dif_pos _
  show scanEscape (ch 'u' :: ([hexDigit (n / 4096 % 16), hexDigit (n / 256 % 16),
    hexDigit (n / 16 % 16), hexDigit (n % 16)] ++ rest)) = _
  rw [scanEscape, if_pos rfl, scanCodeUnit_hexDigits h]
  show (if IsHighSurrogate n then _ else (charOf n).map fun c => (c, rest)) = _
  by_cases hhigh : IsHighSurrogate n
  · rw [if_pos hhigh, hrest hhigh, hchar]
    rfl
  · rw [if_neg hhigh, hchar]
    rfl

theorem scanEscape_of_pair {cs rest after : PyStr} {unit low : Nat}
    (hunit : scanCodeUnit cs = some (unit, rest)) (hhigh : IsHighSurrogate unit)
    (hlow : scanLowSurrogate rest = some (some (low, after))) :
    scanEscape (ch 'u' :: cs) =
      (charOf (0x10000 + (unit - 0xD800) * 1024 + (low - 0xDC00))).map fun c => (c, after) := by
  rw [scanEscape, if_pos rfl, hunit, Option.bind_eq_bind, Option.bind_some]
  dsimp only
  rw [if_pos hhigh, hlow, Option.bind_eq_bind, Option.bind_some]
  dsimp only
  rw [Option.map_eq_bind]
  rfl

theorem scanEscape_pair (high : Nat) {low : Nat} (hhigh : high < 1024) (hlow : low < 1024)
    (rest : PyStr) :
    scanEscape ((unicodeEscape (0xD800 + high)).tail ++ (unicodeEscape (0xDC00 + low) ++ rest)) =
      (charOf (0x10000 + high * 1024 + low)).map fun c => (c, rest) := by
  have hsecond : scanLowSurrogate (unicodeEscape (0xDC00 + low) ++ rest) =
      some (some (0xDC00 + low, rest)) := by
    show scanLowSurrogate (ch '\\' :: ch 'u' :: ([hexDigit ((0xDC00 + low) / 4096 % 16),
      hexDigit ((0xDC00 + low) / 256 % 16), hexDigit ((0xDC00 + low) / 16 % 16),
      hexDigit ((0xDC00 + low) % 16)] ++ rest)) = _
    rw [scanLowSurrogate, if_pos ⟨rfl, rfl⟩, scanCodeUnit_hexDigits (by omega), Option.map_some,
      if_pos ⟨by omega, by omega⟩]
  have hpair := scanEscape_of_pair (@scanCodeUnit_hexDigits (0xD800 + high) (by omega)
    (unicodeEscape (0xDC00 + low) ++ rest)) ⟨by omega, by omega⟩ hsecond
  rwa [Nat.add_sub_cancel_left, Nat.add_sub_cancel_left] at hpair

/-- What an escaped character is. -/
inductive Escaped (e : Bool) (c : PyChar) : PyStr → Prop
  | short (letter : PyChar) : letter ≠ ch 'u' → shortEscape letter = some c →
      Escaped e c [ch '\\', letter]
  | unit : c.val < 0x10000 → (IsHighSurrogate c.val → e = true) → Escaped e c (unicodeEscape c.val)
  | pair : e = true → 0x10000 ≤ c.val → Escaped e c
      (unicodeEscape (0xD800 + (c.val - 0x10000) / 1024) ++
        unicodeEscape (0xDC00 + (c.val - 0x10000) % 1024))
  | plain : 32 ≤ c.val → c ≠ ch '"' → c ≠ ch '\\' → Escaped e c [c]

theorem escaped_escapeChar (e : Bool) (c : PyChar) : Escaped e c (escapeChar e c) := by
  rw [escapeChar]
  by_cases hquote : c = ch '"'
  · rw [if_pos hquote, hquote]
    exact .short (ch '"') (by decide) rfl
  rw [if_neg hquote]
  by_cases hback : c = ch '\\'
  · rw [if_pos hback, hback]
    exact .short (ch '\\') (by decide) rfl
  rw [if_neg hback]
  by_cases hn : c = ch '\n'
  · rw [if_pos hn, hn]
    exact .short (ch 'n') (by decide) rfl
  rw [if_neg hn]
  by_cases hr : c = ch '\r'
  · rw [if_pos hr, hr]
    exact .short (ch 'r') (by decide) rfl
  rw [if_neg hr]
  by_cases ht : c = ch '\t'
  · rw [if_pos ht, ht]
    exact .short (ch 't') (by decide) rfl
  rw [if_neg ht]
  by_cases hf : c.val = 12
  · obtain rfl : c = 12 := Fin.ext hf
    exact .short (ch 'f') (by decide) rfl
  rw [if_neg hf]
  by_cases hb : c.val = 8
  · obtain rfl : c = 8 := Fin.ext hb
    exact .short (ch 'b') (by decide) rfl
  rw [if_neg hb]
  by_cases hcontrol : c.val < 32
  · rw [if_pos hcontrol]
    refine .unit (by omega) fun hhigh => ?_
    have := hhigh.1
    omega
  rw [if_neg hcontrol]
  by_cases hascii : (e && decide (126 < c.val)) = true
  · rw [if_pos hascii]
    obtain ⟨he, -⟩ := Bool.and_eq_true_iff.mp hascii
    by_cases hbmp : c.val < 0x10000
    · rw [if_pos hbmp]
      exact .unit hbmp fun _ => he
    · rw [if_neg hbmp]
      exact .pair he (by omega)
  · rw [if_neg hascii]
    exact .plain (by omega) hquote hback

/-- No escaped character but a low surrogate begins with an escaped low surrogate. -/
theorem Escaped.scanLow {e : Bool} {c : PyChar} {text : PyStr} (h : Escaped e c text)
    (hlow : ¬ IsLowSurrogate c.val) (rest : PyStr) :
    scanLowSurrogate (text ++ rest) = some none := by
  have hunit : ∀ {n : Nat}, n < 0x10000 → ¬ IsLowSurrogate n → ∀ rest : PyStr,
      scanLowSurrogate (unicodeEscape n ++ rest) = some none := by
    intro n hn hnot rest
    show scanLowSurrogate (ch '\\' :: ch 'u' :: ([hexDigit (n / 4096 % 16),
      hexDigit (n / 256 % 16), hexDigit (n / 16 % 16), hexDigit (n % 16)] ++ rest)) = _
    rw [scanLowSurrogate, if_pos ⟨rfl, rfl⟩, scanCodeUnit_hexDigits hn,
      Option.map_some, if_neg hnot]
  cases h with
  | short letter hletter _ =>
    show scanLowSurrogate (ch '\\' :: letter :: rest) = _
    rw [scanLowSurrogate, if_neg fun h => hletter h.2]
  | unit hbmp _ => exact hunit hbmp hlow rest
  | pair _ hastral =>
    have hc := c.isLt
    rw [List.append_assoc]
    refine hunit (by omega) (fun h => ?_) _
    have := h.1
    omega
  | plain _ _ hback =>
    cases rest with
    | nil => rfl
    | cons d rest =>
      show scanLowSurrogate (c :: d :: rest) = _
      rw [scanLowSurrogate, if_neg fun h => hback h.1]

/-- An escaped character is read back. -/
theorem Escaped.read {e : Bool} {c : PyChar} {text : PyStr} (h : Escaped e c text)
    {rest : PyStr}
    (hrest : e = true → IsHighSurrogate c.val → scanLowSurrogate rest = some none) (n : Nat) :
    scanString (n + 1) (text ++ rest) =
      (scanString n rest).map fun read => (c :: read.1, read.2) := by
  have hstep : ∀ {b : PyChar} {cs : PyStr}, b ≠ ch '"' → scanChar b cs = some (c, rest) →
      scanString (n + 1) (b :: cs) =
        (scanString n rest).map fun read => (c :: read.1, read.2) := by
    intro b cs hb hchar
    rw [scanString, if_neg hb, hchar]
    show (scanString n rest >>= fun read => some (c :: read.1, read.2)) = _
    exact Option.map_eq_bind.symm
  have hescape : ∀ {cs : PyStr}, scanEscape cs = some (c, rest) →
      scanChar (ch '\\') cs = some (c, rest) := fun h => (if_pos rfl).trans h
  have hquote : ch '\\' ≠ ch '"' := by decide
  cases h with
  | short letter hletter hshort =>
    refine hstep hquote (hescape ?_)
    show scanEscape (letter :: rest) = _
    rw [scanEscape, if_neg hletter, hshort]
    rfl
  | unit hbmp hhigh =>
    exact hstep hquote (hescape (scanEscape_unit hbmp fun h => hrest (hhigh h) h))
  | pair he hastral =>
    have hc := c.isLt
    refine hstep hquote (hescape ?_)
    have hpair := scanEscape_pair ((c.val - 0x10000) / 1024) (by omega)
      (Nat.mod_lt (c.val - 0x10000) (by decide)) rest
    have hchar : charOf (0x10000 + (c.val - 0x10000) / 1024 * 1024 + (c.val - 0x10000) % 1024) =
        some c := by
      rw [show 0x10000 + (c.val - 0x10000) / 1024 * 1024 + (c.val - 0x10000) % 1024 = c.val by omega]
      exact dif_pos hc
    rw [hchar] at hpair
    exact hpair
  | plain hcontrol hq hback =>
    refine hstep hq ?_
    show scanChar c rest = _
    rw [scanChar, if_neg hback, if_neg (by omega)]

theorem escapeStr_cons (e : Bool) (c : PyChar) (s : PyStr) :
    escapeStr e (c :: s) = escapeChar e c ++ escapeStr e s := List.flatMap_cons

theorem length_le_escapeStr (e : Bool) (s : PyStr) : s.length ≤ (escapeStr e s).length := by
  induction s with
  | nil => exact le_rfl
  | cons c s ih =>
    have hpos : 0 < (escapeChar e c).length := by
      cases hc : escapeChar e c with
      | nil =>
        have hescaped := escaped_escapeChar e c
        rw [hc] at hescaped
        cases hescaped
      | cons d ds => exact Nat.succ_pos _
    rw [escapeStr_cons, List.length_append, List.length_cons]
    omega

/-- **An escaped string is read back**, up to its closing quote. -/
theorem scanString_escapeStr {e : Bool} {s : PyStr} (h : Readable e s) {n : Nat} (hn : s.length < n)
    (rest : PyStr) : scanString n (escapeStr e s ++ ch '"' :: rest) = some (s, rest) := by
  induction s generalizing n with
  | nil =>
    cases n with
    | zero => exact absurd hn (Nat.not_lt_zero _)
    | succ n => exact if_pos rfl
  | cons c s ih =>
    cases n with
    | zero => exact absurd hn (Nat.not_lt_zero _)
    | succ n =>
      have hread := ih h.tail (Nat.lt_of_succ_lt_succ hn)
      have hlow : e = true → IsHighSurrogate c.val →
          scanLowSurrogate (escapeStr e s ++ ch '"' :: rest) = some none := by
        intro he hhigh
        cases s with
        | nil =>
          cases rest with
          | nil => rfl
          | cons d rest =>
            show scanLowSurrogate (ch '"' :: d :: rest) = _
            rw [scanLowSurrogate, if_neg fun h => absurd h.1 (by decide)]
        | cons d s =>
          have hnext : ¬ IsLowSurrogate d.val := fun hd =>
            (List.isChain_cons_cons.mp (h he)).1 ⟨hhigh, hd⟩
          rw [escapeStr_cons, List.append_assoc]
          exact (escaped_escapeChar e d).scanLow hnext _
      rw [escapeStr_cons, List.append_assoc, (escaped_escapeChar e c).read hlow, hread]
      rfl

/-! ### Numbers -/

def isDecimalDigit (c : PyChar) : Bool := (digitValue c).isSome

/-- `(0|[1-9][0-9]*)`, as far as it goes. -/
def scanWhole : PyStr → PyStr
  | [] => []
  | c :: cs => if c = ch '0' then [c] else (c :: cs).takeWhile isDecimalDigit

/-- `(\.[0-9]+)?`. -/
def scanFraction : PyStr → PyStr
  | [] => []
  | c :: cs =>
    if c = ch '.' ∧ cs.takeWhile isDecimalDigit ≠ [] then c :: cs.takeWhile isDecimalDigit else []

/-- `[-+]?`. -/
def scanSign : PyStr → PyStr
  | [] => []
  | c :: _ => if c = ch '-' ∨ c = ch '+' then [c] else []

/-- `([eE][-+]?[0-9]+)?`. -/
def scanExponent : PyStr → PyStr
  | [] => []
  | c :: cs =>
    let sign := scanSign cs
    let digits := (cs.drop sign.length).takeWhile isDecimalDigit
    if (c = ch 'e' ∨ c = ch 'E') ∧ digits ≠ [] then c :: sign ++ digits else []

/-- The number at the start of a text. `float` is what `float(text)` returns. -/
def scanNumber (float : PyStr → PyFloat) (s : PyStr) : Option (Json × PyStr) :=
  let sign := if s.head? = some (ch '-') then [ch '-'] else []
  let unsigned := s.drop sign.length
  let whole := scanWhole unsigned
  let fraction := scanFraction (unsigned.drop whole.length)
  let exponent := scanExponent (unsigned.drop (whole.length + fraction.length))
  let rest := unsigned.drop (whole.length + fraction.length + exponent.length)
  if whole = [] then none
  else if fraction = [] ∧ exponent = [] then (parseInt (sign ++ whole)).map fun n => (.int n, rest)
  else some (.float (float (sign ++ whole ++ fraction ++ exponent)), rest)

/-! ### Numbers read back -/

def Digits (s : PyStr) : Prop := ∀ c ∈ s, isDecimalDigit c = true

/-- The text does not go on with a digit. -/
def NoDigit (s : PyStr) : Prop := ∀ c ∈ s.head?, isDecimalDigit c = false

/-- The digits of a number before its point. -/
def IsWhole (s : PyStr) : Prop := s = [ch '0'] ∨ (s ≠ [] ∧ Digits s ∧ s.head? ≠ some (ch '0'))

/-- A point and digits, or nothing. -/
def IsFraction (s : PyStr) : Prop := s = [] ∨ ∃ ds, ds ≠ [] ∧ Digits ds ∧ s = ch '.' :: ds

/-- The exponent of a number, or nothing. -/
def IsExponent (s : PyStr) : Prop :=
  s = [] ∨ ∃ e sign ds, (e = ch 'e' ∨ e = ch 'E') ∧ sign ∈ [[], [ch '-'], [ch '+']] ∧ ds ≠ [] ∧
    Digits ds ∧ s = e :: sign ++ ds

/-- What may stand after a value: nothing, white space, a comma or a closing bracket. -/
def Delimited (s : PyStr) : Prop :=
  ∀ c ∈ s.head?, c ∈ [ch ' ', ch '\t', ch '\n', ch '\r', ch ',', ch ']', ch '\x7d']

theorem delimited_nil : Delimited [] := by
  intro c hc
  cases hc

theorem Delimited.ne {s : PyStr} (h : Delimited s) {c : PyChar}
    (hc : c ∉ [ch ' ', ch '\t', ch '\n', ch '\r', ch ',', ch ']', ch '\x7d']) :
    ∀ d ∈ s.head?, d ≠ c := fun d hd hdc => hc (hdc ▸ h d hd)

theorem Delimited.noDigit {s : PyStr} (h : Delimited s) : NoDigit s := by
  intro c hc
  have hmem := h c hc
  simp only [List.mem_cons, List.not_mem_nil, or_false] at hmem
  rcases hmem with rfl | rfl | rfl | rfl | rfl | rfl | rfl <;> rfl

theorem takeWhile_isDecimalDigit {ds t : PyStr} (hds : Digits ds) (ht : NoDigit t) :
    (ds ++ t).takeWhile isDecimalDigit = ds := by
  rw [List.takeWhile_append_of_pos hds]
  cases t with
  | nil => exact List.append_nil ds
  | cons c t => rw [List.takeWhile_cons_of_neg (by simp [ht c rfl]), List.append_nil]

theorem scanWhole_append {s t : PyStr} (hs : IsWhole s) (ht : NoDigit t) :
    scanWhole (s ++ t) = s := by
  rcases hs with rfl | ⟨hne, hdigits, hzero⟩
  · rfl
  · cases s with
    | nil => exact absurd rfl hne
    | cons c cs =>
      have hc : c ≠ ch '0' := fun h => hzero (congrArg some h)
      show scanWhole (c :: (cs ++ t)) = _
      rw [scanWhole, if_neg hc]
      exact takeWhile_isDecimalDigit hdigits ht

theorem scanFraction_append {s t : PyStr} (hs : IsFraction s) (ht : NoDigit t)
    (hpoint : ∀ c ∈ t.head?, c ≠ ch '.') : scanFraction (s ++ t) = s := by
  rcases hs with rfl | ⟨ds, hne, hdigits, rfl⟩
  · cases t with
    | nil => rfl
    | cons c t => exact if_neg fun h => hpoint c rfl h.1
  · have htake := takeWhile_isDecimalDigit hdigits ht
    show scanFraction (ch '.' :: (ds ++ t)) = _
    rw [scanFraction, htake, if_pos ⟨rfl, hne⟩]

theorem scanSign_append {sign ds : PyStr} (hsign : sign ∈ [[], [ch '-'], [ch '+']]) (hne : ds ≠ [])
    (hdigits : Digits ds) (t : PyStr) : scanSign (sign ++ (ds ++ t)) = sign := by
  cases ds with
  | nil => exact absurd rfl hne
  | cons c ds =>
    have hc := hdigits c List.mem_cons_self
    have hminus : c ≠ ch '-' := by
      rintro rfl
      exact absurd hc (by decide)
    have hplus : c ≠ ch '+' := by
      rintro rfl
      exact absurd hc (by decide)
    simp only [List.mem_cons, List.not_mem_nil, or_false] at hsign
    rcases hsign with rfl | rfl | rfl
    · exact if_neg fun h => h.elim hminus hplus
    · rfl
    · rfl

theorem scanExponent_append {s t : PyStr} (hs : IsExponent s) (ht : NoDigit t)
    (he : ∀ c ∈ t.head?, c ≠ ch 'e' ∧ c ≠ ch 'E') : scanExponent (s ++ t) = s := by
  rcases hs with rfl | ⟨e, sign, ds, hletter, hsign, hne, hdigits, rfl⟩
  · cases t with
    | nil => rfl
    | cons c t => exact if_neg fun h => h.1.elim (he c rfl).1 (he c rfl).2
  · have hscan := scanSign_append hsign hne hdigits t
    have htake : ((sign ++ (ds ++ t)).drop sign.length).takeWhile isDecimalDigit = ds := by
      rw [List.drop_left]
      exact takeWhile_isDecimalDigit hdigits ht
    rw [List.cons_append, List.cons_append, List.append_assoc, scanExponent, hscan, htake,
      if_pos ⟨hletter, hne⟩]
    rfl

/-- The text of a number, in its four parts. -/
structure IsNumber (sign whole fraction exponent : PyStr) : Prop where
  sign : sign = [] ∨ sign = [ch '-']
  whole : IsWhole whole
  fraction : IsFraction fraction
  exponent : IsExponent exponent

theorem IsWhole.head_ne {s : PyStr} (h : IsWhole s) (t : PyStr) : (s ++ t).head? ≠ some (ch '-') := by
  rcases h with rfl | ⟨hne, hdigits, -⟩
  · show some (ch '0') ≠ some (ch '-')
    decide
  · cases s with
    | nil => exact absurd rfl hne
    | cons c s =>
      intro hc
      cases hc
      exact absurd (hdigits _ List.mem_cons_self) (by decide)

theorem IsWhole.ne_nil {s : PyStr} (h : IsWhole s) : s ≠ [] := by
  rcases h with rfl | h
  · decide
  · exact h.1

/-- What follows a number's whole digits does not go on with them. -/
theorem IsExponent.noDigit {s t : PyStr} (hs : IsExponent s) (ht : Delimited t) : NoDigit (s ++ t) := by
  rcases hs with rfl | ⟨e, sign, ds, hletter, -, -, -, rfl⟩
  · exact ht.noDigit
  · intro c hc
    cases hc
    rcases hletter with rfl | rfl <;> decide

theorem IsExponent.head_ne {s t : PyStr} (hs : IsExponent s) (ht : Delimited t) :
    ∀ c ∈ (s ++ t).head?, c ≠ ch '.' := by
  rcases hs with rfl | ⟨e, sign, ds, hletter, -, -, -, rfl⟩
  · exact ht.ne (by decide)
  · intro c hc
    cases hc
    rcases hletter with rfl | rfl <;> decide

theorem IsFraction.noDigit {s t : PyStr} (hs : IsFraction s) (ht : NoDigit t) : NoDigit (s ++ t) := by
  rcases hs with rfl | ⟨ds, -, -, rfl⟩
  · exact ht
  · intro c hc
    cases hc
    decide

/-- **A number is scanned as it is written**, whatever may stand after it. -/
theorem scanNumber_append {float : PyStr → PyFloat} {sign whole fraction exponent : PyStr}
    (h : IsNumber sign whole fraction exponent) {rest : PyStr} (hrest : Delimited rest) :
    scanNumber float (sign ++ (whole ++ (fraction ++ (exponent ++ rest)))) =
      if fraction = [] ∧ exponent = [] then
        (parseInt (sign ++ whole)).map fun n => (.int n, rest)
      else some (.float (float (sign ++ whole ++ fraction ++ exponent)), rest) := by
  have hexponent : scanExponent (exponent ++ rest) = exponent :=
    scanExponent_append h.exponent hrest.noDigit fun c hc =>
      ⟨hrest.ne (by decide) c hc, hrest.ne (by decide) c hc⟩
  have hafter := h.exponent.noDigit hrest
  have hfraction : scanFraction (fraction ++ (exponent ++ rest)) = fraction :=
    scanFraction_append h.fraction hafter (h.exponent.head_ne hrest)
  have hwhole : scanWhole (whole ++ (fraction ++ (exponent ++ rest))) = whole :=
    scanWhole_append h.whole (h.fraction.noDigit hafter)
  have hsign : (if (sign ++ (whole ++ (fraction ++ (exponent ++ rest)))).head? = some (ch '-') then
      [ch '-'] else []) = sign := by
    rcases h.sign with rfl | rfl
    · exact if_neg (h.whole.head_ne _)
    · exact if_pos rfl
  rw [scanNumber, hsign, List.drop_left, hwhole, List.drop_left, hfraction, ← List.drop_drop, List.drop_left,
    List.drop_left, hexponent, ← List.drop_drop, ← List.drop_drop, List.drop_left, List.drop_left,
    List.drop_left, if_neg h.whole.ne_nil]

theorem digits_strNat (n : Nat) : Digits (strNat n) := by
  intro c hc
  have hdigit := mem_strNat_digit hc
  rw [isDecimalDigit, digitValue, if_pos hdigit]
  rfl

/-- `str` of a natural number has no leading zero. -/
theorem isWhole_strNat (n : Nat) : IsWhole (strNat n) := by
  by_cases hn : n = 0
  · subst hn
    exact .inl rfl
  · refine .inr ⟨strNat_ne_nil n, digits_strNat n, fun hzero => ?_⟩
    have hdigits : digitsOf n = (Nat.digits 10 n).reverse := if_neg hn
    have hne : Nat.digits 10 n ≠ [] := Nat.digits_ne_nil_iff_ne_zero.mpr hn
    rw [strNat, hdigits, List.map_reverse, List.head?_reverse, List.getLast?_map,
      List.getLast?_eq_some_getLast hne] at hzero
    have hlast := Nat.getLast_digit_ne_zero 10 hn
    have hlt := Nat.digits_lt_base (by decide) (List.getLast_mem hne)
    have hval := congrArg Fin.val (Option.some.inj hzero)
    rw [digitChar_val] at hval
    have hcode : (ch '0').val = 48 := rfl
    omega

/-- **An integer is read back**, if it has few enough digits. -/
theorem scanNumber_strInt (float : PyStr → PyFloat) {n : Int} (hfew : FewDigits n) {rest : PyStr}
    (hrest : Delimited rest) : scanNumber float (strInt n ++ rest) = some (.int n, rest) := by
  have hnumber : ∀ {sign : PyStr}, sign = [] ∨ sign = [ch '-'] → strInt n = sign ++ strNat n.natAbs →
      scanNumber float (strInt n ++ rest) = some (.int n, rest) := by
    intro sign hsign heq
    have hscan := @scanNumber_append float sign (strNat n.natAbs) [] []
      ⟨hsign, isWhole_strNat _, .inl rfl, .inl rfl⟩ rest hrest
    rw [if_pos ⟨rfl, rfl⟩, ← heq, parseInt_strInt hfew] at hscan
    rw [heq, List.append_assoc]
    exact hscan
  by_cases hn : n < 0
  · exact hnumber (.inr rfl) (if_pos hn)
  · exact hnumber (.inl rfl) (if_neg hn)

/-- The text of a number that is read as a float. -/
def IsFloatText (text : PyStr) : Prop := ∃ sign whole fraction exponent,
  IsNumber sign whole fraction exponent ∧ ¬ (fraction = [] ∧ exponent = []) ∧
    text = sign ++ whole ++ fraction ++ exponent

/-- **So is a float**, by what `float` makes of its text. -/
theorem scanNumber_float (float : PyStr → PyFloat) {text : PyStr} (h : IsFloatText text)
    {rest : PyStr} (hrest : Delimited rest) :
    scanNumber float (text ++ rest) = some (.float (float text), rest) := by
  obtain ⟨sign, whole, fraction, exponent, hnumber, hpoint, rfl⟩ := h
  have hscan := @scanNumber_append float _ _ _ _ hnumber rest hrest
  rw [if_neg hpoint] at hscan
  rw [List.append_assoc, List.append_assoc, List.append_assoc]
  exact hscan

end SnowflakeSqlApi
