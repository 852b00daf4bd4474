import Mathlib.Data.Nat.Digits.Lemmas
import Mathlib.Data.List.Basic
import Mathlib.Tactic.Ring

/-!
# Python text

A Python `str` is a sequence of code points, lone surrogates included: a name or a
cell can hold one, and UTF-8 encoding is where it is refused.  So text is
`List PyChar` here and not Lean's `String`; `py "..."` reads a literal of the source.

The file has what the library does with text:

* `strInt` is the decimal text of an integer and `parseInt` is `int`, and `parseInt_strInt_iff`
  says when the second inverts the first: both refuse more than 4300 digits, and `readInt`
  reads a text without the limit;
* `fixedDigits` is the zero-padded rendering of a fraction, read back by
  `parseInt_fixedDigits`;
* `partition`, `strip`, `join` are the methods of those names, and a `Casing` has `lower` and
  `upper`;
* `utf8` is `str.encode("utf-8")`, and `utf8_append` says it goes part by part.

`digitValue` is for ASCII digits, which formats of the source name; `decimalValue` is for all
decimal digits of Unicode (version 14, that of Python 3.11), which `int` and `Decimal` read.
-/

namespace SnowflakeSqlApi

/-- A Python character: any code point, lone surrogates included. -/
abbrev PyChar := Fin 0x110000

abbrev PyStr := List PyChar

instance : LawfulBEq PyStr := inferInstance

abbrev Bytes := List UInt8

theorem toNat_lt_codePoints (c : Char) : c.toNat < 0x110000 := by
  have hval : c.toNat = c.val.toNat := rfl
  rw [hval]
  rcases c.valid with h | ⟨_, h⟩
  · exact lt_trans h (by decide)
  · exact h

def ch (c : Char) : PyChar := ⟨c.toNat, toNat_lt_codePoints c⟩

/-- A literal of the source. -/
def py (s : String) : PyStr := s.toList.map ch

/-! ### Joining, splitting, trimming -/

/-- `sep.join(parts)`. -/
def join (sep : PyStr) (parts : List PyStr) : PyStr := sep.intercalate parts

/-- `s.partition(sep)` without the separator: the text before the first `sep` and the
text after it, both `s` and `""` where there is none. -/
def partition (sep : PyChar) : PyStr → PyStr × PyStr
  | [] => ([], [])
  | c :: cs =>
    if c = sep then ([], cs)
    else ((c :: (partition sep cs).1), (partition sep cs).2)

theorem partition_append {sep : PyChar} :
    ∀ {s : PyStr} (t : PyStr), sep ∉ s → partition sep (s ++ sep :: t) = (s, t) := by
  intro s
  induction s with
  | nil => intro t _; simp [partition]
  | cons c cs ih =>
    intro t h
    rw [List.mem_cons, not_or] at h
    rw [List.cons_append, partition, if_neg (Ne.symm h.1), ih t h.2]

theorem partition_of_notMem {sep : PyChar} {s : PyStr} (h : sep ∉ s) :
    partition sep s = (s, []) := by
  induction s with
  | nil => rfl
  | cons c cs ih =>
    rw [List.mem_cons, not_or] at h
    rw [partition, if_neg (Ne.symm h.1), ih h.2]

/-- `str.isspace` of one character. -/
def isSpace (c : PyChar) : Bool :=
  (9 ≤ c.val && c.val ≤ 13) || (28 ≤ c.val && c.val ≤ 32) || c.val = 0x85 || c.val = 0xA0
    || c.val = 0x1680 || (0x2000 ≤ c.val && c.val ≤ 0x200A) || c.val = 0x2028
    || c.val = 0x2029 || c.val = 0x202F || c.val = 0x205F || c.val = 0x3000

/-- `s.strip()`, for the characters `p` holds of. -/
def stripBy (p : PyChar → Bool) (s : PyStr) : PyStr :=
  ((s.dropWhile p).reverse.dropWhile p).reverse

def strip (s : PyStr) : PyStr := stripBy isSpace s

/-- `s.lower()` on ASCII letters; other characters stay. Of these only the Kelvin sign lowers to an ASCII
letter, so comparisons with words that have no `k` come to the same. -/
def asciiLower (s : PyStr) : PyStr :=
  s.map fun c =>
    if h : 65 ≤ c.val ∧ c.val ≤ 90 then ⟨c.val + 32, by omega⟩ else c

/-- `s.upper()` on ASCII letters; other characters stay. -/
def asciiUpper (s : PyStr) : PyStr :=
  s.map fun c => if 97 ≤ c.val ∧ c.val ≤ 122 then ⟨c.val - 32, by omega⟩ else c

/-- `str.lower` and `str.upper`, which go by the Unicode data of the interpreter: they are the plain
ones on ASCII texts, and no character has a dot in its upper case but the dot. -/
structure Casing where
  lower : PyStr → PyStr
  upper : PyStr → PyStr
  lower_ascii : ∀ {s : PyStr}, (∀ c ∈ s, c.val < 0x80) → lower s = asciiLower s
  upper_ascii : ∀ {s : PyStr}, (∀ c ∈ s, c.val < 0x80) → upper s = asciiUpper s
  dot_notMem_upper : ∀ {s : PyStr}, ch '.' ∉ s → ch '.' ∉ upper s

theorem dot_notMem_asciiUpper {s : PyStr} (h : ch '.' ∉ s) : ch '.' ∉ asciiUpper s := by
  intro hmem
  obtain ⟨c, hc, hupper⟩ := List.mem_map.mp hmem
  split at hupper
  · next hletter =>
    have hval : c.val - 32 = 46 := congrArg Fin.val hupper
    omega
  · exact h (hupper ▸ hc)

/-- A casing that knows no other letters. -/
def asciiCasing : Casing := ⟨asciiLower, asciiUpper, fun _ => rfl, fun _ => rfl, dot_notMem_asciiUpper⟩

theorem dropWhile_of_all_not {p : PyChar → Bool} {s : PyStr} (h : ∀ c ∈ s, p c = false) :
    s.dropWhile p = s := by
  cases s with
  | nil => rfl
  | cons c cs => rw [List.dropWhile_cons, if_neg (by simp [h c])]

theorem stripBy_of_all_not {p : PyChar → Bool} {s : PyStr} (h : ∀ c ∈ s, p c = false) :
    stripBy p s = s := by
  rw [stripBy, dropWhile_of_all_not h,
    dropWhile_of_all_not (fun c hc => h c (List.mem_reverse.mp hc)), List.reverse_reverse]

/-! ### Decimal text -/

def digitChar (d : Nat) : PyChar := ⟨48 + d % 10, by omega⟩

/-- The value of an ASCII digit. -/
def digitValue (c : PyChar) : Option Nat :=
  if 48 ≤ c.val ∧ c.val ≤ 57 then some (c.val - 48) else none

@[simp] theorem digitValue_digitChar {d : Nat} (h : d < 10) : digitValue (digitChar d) = some d := by
  simp only [digitValue, digitChar, Nat.mod_eq_of_lt h]
  rw [if_pos (by omega)]
  simp

theorem digitChar_val (d : Nat) : (digitChar d).val = 48 + d % 10 := rfl

theorem digitChar_ne {c : PyChar} (hc : c.val < 48 ∨ 57 < c.val) (d : Nat) : digitChar d ≠ c := by
  intro h
  have := digitChar_val d
  rw [h] at this
  omega

theorem isSpace_digitChar (d : Nat) : isSpace (digitChar d) = false := by
  have := digitChar_val d
  simp only [isSpace, Bool.or_eq_false_iff, Bool.and_eq_false_imp, decide_eq_true_eq,
    decide_eq_false_iff_not]
  omega

/-- The decimal digits of `n`, most significant first. -/
def digitsOf (n : Nat) : List Nat := if n = 0 then [0] else (Nat.digits 10 n).reverse

/-- The decimal text of a natural number. -/
def strNat (n : Nat) : PyStr := (digitsOf n).map digitChar

/-- The decimal text of an integer. `str` refuses one of more than `intMaxStrDigits` digits. -/
def strInt (n : Int) : PyStr :=
  if n < 0 then ch '-' :: strNat n.natAbs else strNat n.natAbs

/-- The rendering of `n` with exactly `k` digits, as `f"{n:0kd}"` gives for `n < 10 ** k`. -/
def fixedDigits : Nat → Nat → List Nat
  | 0, _ => []
  | k + 1, n => fixedDigits k (n / 10) ++ [n % 10]

theorem digitsOf_lt {n d : Nat} (h : d ∈ digitsOf n) : d < 10 := by
  rw [digitsOf] at h
  split at h
  · simp only [List.mem_singleton] at h; omega
  · exact Nat.digits_lt_base (by decide) (List.mem_reverse.mp h)

theorem digitsOf_ne_nil (n : Nat) : digitsOf n ≠ [] := by
  rw [digitsOf]
  split
  · simp
  · next h => simpa using (Nat.digits_ne_nil_iff_ne_zero (b := 10)).mpr h

theorem fixedDigits_lt : ∀ {k n d : Nat}, d ∈ fixedDigits k n → d < 10 := by
  intro k
  induction k with
  | zero => intro n d h; exact absurd h (by simp [fixedDigits])
  | succ k ih =>
    intro n d h
    rw [fixedDigits, List.mem_append, List.mem_singleton] at h
    rcases h with h | rfl
    · exact ih h
    · exact Nat.mod_lt _ (by decide)

@[simp] theorem fixedDigits_length : ∀ k n : Nat, (fixedDigits k n).length = k := by
  intro k
  induction k with
  | zero => intro n; rfl
  | succ k ih => intro n; simp [fixedDigits, ih]

/-- The number a digit list writes. -/
def ofDigitList (ds : List Nat) : Nat := ds.foldl (fun acc d => acc * 10 + d) 0

theorem foldl_digits (ds : List Nat) :
    ∀ acc : Nat, ds.foldl (fun a d => a * 10 + d) acc = acc * 10 ^ ds.length + ofDigitList ds := by
  induction ds with
  | nil => intro acc; simp [ofDigitList]
  | cons d ds ih =>
    intro acc
    rw [ofDigitList, List.foldl_cons, List.foldl_cons, ih, ih (0 * 10 + d), List.length_cons]
    ring

theorem ofDigitList_append (ds es : List Nat) :
    ofDigitList (ds ++ es) = ofDigitList ds * 10 ^ es.length + ofDigitList es := by
  rw [ofDigitList, List.foldl_append]
  exact foldl_digits es _

theorem ofDigitList_digitsOf (n : Nat) : ofDigitList (digitsOf n) = n := by
  rw [digitsOf]
  split
  · next h => rw [h]; rfl
  · rw [ofDigitList, List.foldl_reverse]
    conv_rhs => rw [← Nat.ofDigits_digits 10 n, Nat.ofDigits_eq_foldr]
    congr 1
    funext d acc
    simp only [Nat.cast_id]
    ring

theorem ofDigitList_fixedDigits : ∀ {k n : Nat}, n < 10 ^ k → ofDigitList (fixedDigits k n) = n := by
  intro k
  induction k with
  | zero => intro n h; simp at h; subst h; rfl
  | succ k ih =>
    intro n h
    rw [fixedDigits, ofDigitList_append, ih (by rw [pow_succ] at h; omega)]
    simp [ofDigitList]
    omega

/-- The value of a hexadecimal digit. -/
def hexValue (c : PyChar) : Option Nat :=
  if 48 ≤ c.val ∧ c.val ≤ 57 then some (c.val - 48)
  else if 97 ≤ c.val ∧ c.val ≤ 102 then some (c.val - 87)
  else if 65 ≤ c.val ∧ c.val ≤ 70 then some (c.val - 55)
  else none

/-- The zeros of the decimal digits of Unicode after ASCII; the other nine come after each. -/
def digitZeros : List Nat :=
  [0x660, 0x6F0, 0x7C0, 0x966, 0x9E6, 0xA66, 0xAE6, 0xB66, 0xBE6, 0xC66, 0xCE6, 0xD66, 0xDE6,
    0xE50, 0xED0, 0xF20, 0x1040, 0x1090, 0x17E0, 0x1810, 0x1946, 0x19D0, 0x1A80, 0x1A90,
    0x1B50, 0x1BB0, 0x1C40, 0x1C50, 0xA620, 0xA8D0, 0xA900, 0xA9D0, 0xA9F0, 0xAA50, 0xABF0,
    0xFF10, 0x104A0, 0x10D30, 0x11066, 0x110F0, 0x11136, 0x111D0, 0x112F0, 0x11450, 0x114D0,
    0x11650, 0x116C0, 0x11730, 0x118E0, 0x11950, 0x11C50, 0x11D50, 0x11DA0, 0x16A60, 0x16AC0,
    0x16B50, 0x1D7CE, 0x1D7D8, 0x1D7E2, 0x1D7EC, 0x1D7F6, 0x1E140, 0x1E2F0, 0x1E950, 0x1FBF0]

/-- `unicodedata.decimal(c)`. -/
def decimalValue (c : PyChar) : Option Nat :=
  if c.val < 0x80 then digitValue c
  else (digitZeros.find? fun first => first ≤ c.val && c.val < first + 10).map (c.val - ·)

theorem decimalValue_lt {c : PyChar} {d : Nat} (h : decimalValue c = some d) : d < 10 := by
  rw [decimalValue] at h
  split at h
  · rw [digitValue] at h
    split at h
    · cases h
      omega
    · cases h
  · obtain ⟨first, hfirst, rfl⟩ := Option.map_eq_some_iff.mp h
    have hrange := List.find?_some hfirst
    simp only [Bool.and_eq_true, decide_eq_true_eq] at hrange
    omega

/-- What `int` strips: whitespace but for the four ASCII separators. -/
def isIntSpace (c : PyChar) : Bool := isSpace c && !(28 ≤ c.val && c.val ≤ 31)

/-- Digits read left to right, single underscores allowed between two of them. `seen`
says that the last character was a digit. -/
def digitRun (acc : Nat) (seen : Bool) : PyStr → Option Nat
  | [] => if seen then some acc else none
  | c :: cs =>
    match decimalValue c with
    | some d => digitRun (acc * 10 + d) true cs
    | none => if c = ch '_' ∧ seen then digitRun acc false cs else none

/-- The integer of a text, however many digits it has: surrounding whitespace, an optional sign, then
digits. -/
def readInt (s : PyStr) : Option Int :=
  match stripBy isIntSpace s with
  | [] => none
  | c :: cs =>
    if c = ch '-' then (digitRun 0 false cs).map fun n : Nat => -(n : Int)
    else if c = ch '+' then (digitRun 0 false cs).map Int.ofNat
    else (digitRun 0 false (c :: cs)).map Int.ofNat

/-- `sys.get_int_max_str_digits()`. -/
def intMaxStrDigits : Nat := 4300

def digitCount (s : PyStr) : Nat := s.countP fun c => (decimalValue c).isSome

/-- `int(s)`. `none` is `ValueError`, which more digits than the limit raise as well. -/
def parseInt (s : PyStr) : Option Int := if intMaxStrDigits < digitCount s then none else readInt s

/-- The integer has no more digits than `str` writes and `int` reads. -/
def FewDigits (n : Int) : Prop := (digitsOf n.natAbs).length ≤ intMaxStrDigits

instance (n : Int) : Decidable (FewDigits n) := inferInstanceAs (Decidable (_ ≤ _))

theorem decimalValue_digitChar {d : Nat} (h : d < 10) : decimalValue (digitChar d) = some d := by
  rw [decimalValue, if_pos (by rw [digitChar_val]; omega), digitValue_digitChar h]

theorem isSome_decimalValue (d : Nat) : (decimalValue (digitChar d)).isSome = true := by
  have hsame : digitChar d = digitChar (d % 10) := by
    rw [digitChar, digitChar]
    simp
  rw [hsame, decimalValue_digitChar (Nat.mod_lt _ (by decide))]
  rfl

theorem digitCount_digits (ds : List Nat) : digitCount (ds.map digitChar) = ds.length := by
  rw [digitCount, List.countP_map, List.countP_eq_length]
  exact fun d _ => isSome_decimalValue d

theorem digitCount_minus (s : PyStr) : digitCount (ch '-' :: s) = digitCount s := by
  rw [digitCount, List.countP_cons_of_neg (by decide)]
  rfl

@[simp] theorem digitCount_strInt (n : Int) :
    digitCount (strInt n) = (digitsOf n.natAbs).length := by
  rw [strInt, strNat]
  split
  · rw [digitCount_minus, digitCount_digits]
  · exact digitCount_digits _

theorem parseInt_of_few {s : PyStr} (h : digitCount s ≤ intMaxStrDigits) : parseInt s = readInt s :=
  if_neg (not_lt.mpr h)

theorem readInt_of_parseInt {s : PyStr} {n : Int} (h : parseInt s = some n) : readInt s = some n := by
  rw [parseInt] at h
  split at h
  · cases h
  · exact h

/-- A number below a power of ten has no more digits than the power. -/
theorem length_digitsOf_le {n k : Nat} (hk : 0 < k) (h : n < 10 ^ k) : (digitsOf n).length ≤ k := by
  rw [digitsOf]
  split
  · exact hk
  · rw [List.length_reverse]
    exact (Nat.digits_length_le_iff (by decide) n).mpr h

theorem fewDigits_of_lt {n : Int} (h : n.natAbs < 10 ^ 40) : FewDigits n :=
  (length_digitsOf_le (by decide) h).trans (by decide)

theorem digitRun_digits : ∀ {ds : List Nat}, (∀ d ∈ ds, d < 10) → ∀ (acc : Nat) (seen : Bool),
    (ds = [] → seen = true) →
      digitRun acc seen (ds.map digitChar) = some (ds.foldl (fun a d => a * 10 + d) acc) := by
  intro ds
  induction ds with
  | nil => intro _ acc seen h; simp [digitRun, h rfl]
  | cons d ds ih =>
    intro h acc seen _
    rw [List.map_cons, digitRun, decimalValue_digitChar (h d (by simp))]
    exact ih (fun e he => h e (by simp [he])) _ true (fun _ => rfl)

theorem isIntSpace_digitChar (d : Nat) : isIntSpace (digitChar d) = false := by
  rw [isIntSpace, isSpace_digitChar]
  rfl

theorem stripInt_digits (ds : List Nat) :
    stripBy isIntSpace (ds.map digitChar) = ds.map digitChar := by
  refine stripBy_of_all_not fun c hc => ?_
  obtain ⟨d, _, rfl⟩ := List.mem_map.mp hc
  exact isIntSpace_digitChar d

/-- **Digits are read as the number they write.** -/
theorem readInt_digits {ds : List Nat} (h : ∀ d ∈ ds, d < 10) (hne : ds ≠ []) :
    readInt (ds.map digitChar) = some (ofDigitList ds : Int) := by
  cases ds with
  | nil => exact absurd rfl hne
  | cons d ds =>
    have hrun := digitRun_digits h 0 false (by simp)
    rw [List.map_cons] at hrun
    rw [readInt, stripInt_digits, List.map_cons]
    dsimp only
    rw [if_neg (digitChar_ne (by decide) d), if_neg (digitChar_ne (by decide) d), hrun]
    rfl

theorem readInt_neg_digits {ds : List Nat} (h : ∀ d ∈ ds, d < 10) (hne : ds ≠ []) :
    readInt (ch '-' :: ds.map digitChar) = some (-(ofDigitList ds : Int)) := by
  have hstrip : stripBy isIntSpace (ch '-' :: ds.map digitChar) = ch '-' :: ds.map digitChar := by
    refine stripBy_of_all_not fun c hc => ?_
    rcases List.mem_cons.mp hc with rfl | hc
    · decide
    · obtain ⟨d, _, rfl⟩ := List.mem_map.mp hc
      exact isIntSpace_digitChar d
  rw [readInt, hstrip]
  dsimp only
  rw [if_pos rfl, digitRun_digits h 0 false (fun he => absurd he hne)]
  rfl

theorem parseInt_digits {ds : List Nat} (h : ∀ d ∈ ds, d < 10) (hne : ds ≠ [])
    (hfew : ds.length ≤ intMaxStrDigits) :
    parseInt (ds.map digitChar) = some (ofDigitList ds : Int) := by
  rw [parseInt_of_few (by rw [digitCount_digits]; exact hfew), readInt_digits h hne]

theorem parseInt_neg_digits {ds : List Nat} (h : ∀ d ∈ ds, d < 10) (hne : ds ≠ [])
    (hfew : ds.length ≤ intMaxStrDigits) :
    parseInt (ch '-' :: ds.map digitChar) = some (-(ofDigitList ds : Int)) := by
  rw [parseInt_of_few (by rw [digitCount_minus, digitCount_digits]; exact hfew),
    readInt_neg_digits h hne]

theorem readInt_strNat (n : Nat) : readInt (strNat n) = some (n : Int) := by
  rw [strNat, readInt_digits (fun _ => digitsOf_lt) (digitsOf_ne_nil n), ofDigitList_digitsOf]

/-! ### The size of what is read -/

theorem digitRun_lt {s : PyStr} {acc n : Nat} {seen : Bool} (h : digitRun acc seen s = some n) :
    n < (acc + 1) * 10 ^ digitCount s := by
  induction s generalizing acc seen with
  | nil =>
    rw [digitRun] at h
    split at h
    · cases h
      simp [digitCount]
    · cases h
  | cons c cs ih =>
    rw [digitRun] at h
    cases hdigit : decimalValue c with
    | none =>
      have hcount : digitCount (c :: cs) = digitCount cs := List.countP_cons_of_neg (by simp [hdigit])
      rw [hdigit] at h
      dsimp only at h
      split at h
      · rw [hcount]
        exact ih h
      · cases h
    | some d =>
      have hcount : digitCount (c :: cs) = digitCount cs + 1 :=
        List.countP_cons_of_pos (by simp [hdigit])
      have hd := decimalValue_lt hdigit
      rw [hdigit] at h
      calc n < (acc * 10 + d + 1) * 10 ^ digitCount cs := ih h
        _ ≤ ((acc + 1) * 10) * 10 ^ digitCount cs := Nat.mul_le_mul_right _ (by omega)
        _ = (acc + 1) * 10 ^ digitCount (c :: cs) := by rw [hcount, Nat.mul_assoc, pow_succ']

theorem stripBy_sublist (p : PyChar → Bool) (s : PyStr) : (stripBy p s).Sublist s := by
  have hleft : (s.dropWhile p).Sublist s := (List.dropWhile_suffix p).sublist
  have hright : ((s.dropWhile p).reverse.dropWhile p).Sublist (s.dropWhile p).reverse :=
    (List.dropWhile_suffix p).sublist
  rw [stripBy]
  exact (by simpa using hright.reverse : List.Sublist _ _).trans hleft

/-- A text reads as no more than its digits allow. -/
theorem natAbs_lt_of_readInt {s : PyStr} {n : Int} (h : readInt s = some n) :
    n.natAbs < 10 ^ digitCount s := by
  have hcount : digitCount (stripBy isIntSpace s) ≤ digitCount s :=
    (stripBy_sublist _ s).countP_le
  rw [readInt] at h
  split at h
  · cases h
  · next c cs hstrip =>
    have hdigits : ∀ {run : PyStr} {m : Nat}, digitRun 0 false run = some m →
        digitCount run ≤ digitCount s → m < 10 ^ digitCount s := by
      intro run m hrun hle
      have hlt := digitRun_lt hrun
      rw [Nat.zero_add, Nat.one_mul] at hlt
      exact hlt.trans_le (Nat.pow_le_pow_right (by decide) hle)
    have htail : digitCount cs ≤ digitCount (c :: cs) :=
      (List.sublist_cons_self c cs).countP_le
    rw [hstrip] at hcount
    split_ifs at h
    · obtain ⟨m, hm, rfl⟩ := Option.map_eq_some_iff.mp h
      rw [Int.natAbs_neg]
      exact hdigits hm (htail.trans hcount)
    · obtain ⟨m, hm, rfl⟩ := Option.map_eq_some_iff.mp h
      exact hdigits hm (htail.trans hcount)
    · obtain ⟨m, hm, rfl⟩ := Option.map_eq_some_iff.mp h
      exact hdigits hm hcount

/-- What `int` reads, `str` writes. -/
theorem fewDigits_of_parseInt {s : PyStr} {n : Int} (h : parseInt s = some n) : FewDigits n := by
  have hfew : digitCount s ≤ intMaxStrDigits := by
    by_contra hmany
    rw [parseInt, if_pos (not_le.mp hmany)] at h
    cases h
  have hlt := natAbs_lt_of_readInt (readInt_of_parseInt h)
  refine (length_digitsOf_le (k := intMaxStrDigits) (by decide) ?_)
  exact hlt.trans_le (Nat.pow_le_pow_right (by decide) hfew)

/-! ### Integers and their texts -/

/-- **`int` inverts `str`**, whatever the number of digits. -/
@[simp] theorem readInt_strInt (n : Int) : readInt (strInt n) = some n := by
  rw [strInt]
  split
  · rw [strNat, readInt_neg_digits (fun _ => digitsOf_lt) (digitsOf_ne_nil _),
      ofDigitList_digitsOf]
    congr 1
    omega
  · rw [readInt_strNat]
    congr 1
    omega

/-- **`int` reads back what `str` writes** within the limit, and nothing beyond it. -/
theorem parseInt_strInt_iff {n : Int} : parseInt (strInt n) = some n ↔ FewDigits n := by
  rw [parseInt, digitCount_strInt, FewDigits, readInt_strInt]
  split
  · next h => exact ⟨(fun hnone => by cases hnone), fun hfew => absurd h (not_lt.mpr hfew)⟩
  · next h => exact ⟨fun _ => not_lt.mp h, fun _ => rfl⟩

theorem parseInt_strInt {n : Int} (h : FewDigits n) : parseInt (strInt n) = some n :=
  parseInt_strInt_iff.mpr h

theorem parseInt_strNat {n : Nat} (h : FewDigits n) : parseInt (strNat n) = some (n : Int) := by
  rw [parseInt_of_few (by rw [strNat, digitCount_digits]; exact h), readInt_strNat]

theorem strInt_injective {m n : Int} (h : strInt m = strInt n) : m = n := by
  have hread := congrArg readInt h
  rw [readInt_strInt, readInt_strInt] at hread
  exact Option.some.inj hread

theorem strNat_injective {m n : Nat} (h : strNat m = strNat n) : m = n := by
  have hread := congrArg readInt h
  rw [readInt_strNat, readInt_strNat, Option.some_inj] at hread
  exact Int.ofNat.inj hread

theorem readInt_fixedDigits {k n : Nat} (hk : 0 < k) (h : n < 10 ^ k) :
    readInt ((fixedDigits k n).map digitChar) = some (n : Int) := by
  rw [readInt_digits (fun _ => fixedDigits_lt), ofDigitList_fixedDigits h]
  intro he
  have := fixedDigits_length k n
  rw [he] at this
  simp at this
  omega

theorem parseInt_fixedDigits {k n : Nat} (hk : 0 < k) (h : n < 10 ^ k)
    (hfew : k ≤ intMaxStrDigits) : parseInt ((fixedDigits k n).map digitChar) = some (n : Int) := by
  rw [parseInt_of_few (by rw [digitCount_digits, fixedDigits_length]; exact hfew),
    readInt_fixedDigits hk h]

theorem mem_strNat_digit {n : Nat} {c : PyChar} (h : c ∈ strNat n) : 48 ≤ c.val ∧ c.val ≤ 57 := by
  obtain ⟨d, _, rfl⟩ := List.mem_map.mp h
  rw [digitChar_val]
  omega

theorem strNat_ne_nil (n : Nat) : strNat n ≠ [] := by
  rw [strNat, ne_eq, List.map_eq_nil_iff]
  exact digitsOf_ne_nil n

/-! ### UTF-8 -/

/-- The UTF-8 bytes of a code point; a surrogate has none. -/
def utf8Char (c : PyChar) : Option Bytes :=
  if c.val < 0x80 then some [c.val.toUInt8]
  else if c.val < 0x800 then
    some [(0xC0 + c.val / 64).toUInt8, (0x80 + c.val % 64).toUInt8]
  else if 0xD800 ≤ c.val ∧ c.val < 0xE000 then none
  else if c.val < 0x10000 then
    some [(0xE0 + c.val / 4096).toUInt8, (0x80 + c.val / 64 % 64).toUInt8,
      (0x80 + c.val % 64).toUInt8]
  else
    some [(0xF0 + c.val / 262144).toUInt8, (0x80 + c.val / 4096 % 64).toUInt8,
      (0x80 + c.val / 64 % 64).toUInt8, (0x80 + c.val % 64).toUInt8]

/-- `s.encode("utf-8")`; `none` is `UnicodeEncodeError`. -/
def utf8 : PyStr → Option Bytes
  | [] => some []
  | c :: cs => do
    let b ← utf8Char c
    let bs ← utf8 cs
    pure (b ++ bs)

theorem utf8_append (s t : PyStr) :
    utf8 (s ++ t) = (utf8 s).bind fun a => (utf8 t).map fun b => a ++ b := by
  induction s with
  | nil => cases h : utf8 t <;> simp [utf8, h]
  | cons c cs ih =>
    rw [List.cons_append, utf8, utf8, ih]
    cases utf8Char c <;> cases utf8 cs <;> cases utf8 t <;> simp

theorem utf8_append_of {s t : PyStr} {a b : Bytes} (hs : utf8 s = some a) (ht : utf8 t = some b) :
    utf8 (s ++ t) = some (a ++ b) := by
  rw [utf8_append, hs, ht]
  rfl

theorem utf8_append_inv {s t : PyStr} {ab : Bytes} (h : utf8 (s ++ t) = some ab) :
    ∃ a b, utf8 s = some a ∧ utf8 t = some b ∧ ab = a ++ b := by
  rw [utf8_append, Option.bind_eq_some_iff] at h
  obtain ⟨a, hs, h⟩ := h
  obtain ⟨b, ht, rfl⟩ := Option.map_eq_some_iff.mp h
  exact ⟨a, b, hs, ht, rfl⟩

/-- The encoding of two texts and a separator between them. -/
theorem utf8_separated {sep : PyStr} {c : Bytes} (hsep : utf8 sep = some c) {s t : PyStr}
    {b : Bytes} : utf8 (s ++ (sep ++ t)) = some b ↔
      ∃ x y, utf8 s = some x ∧ utf8 t = some y ∧ b = x ++ (c ++ y) := by
  constructor
  · intro h
    obtain ⟨x, y, hs, hy, rfl⟩ := utf8_append_inv h
    obtain ⟨c', z, hc, ht, rfl⟩ := utf8_append_inv hy
    rw [hsep] at hc
    cases hc
    exact ⟨x, z, hs, ht, rfl⟩
  · rintro ⟨x, y, hs, ht, rfl⟩
    exact utf8_append_of hs (utf8_append_of hsep ht)

/-- The byte of an ASCII character. -/
def asciiByte (c : PyChar) : UInt8 := c.val.toUInt8

theorem utf8_ascii : ∀ {s : PyStr}, (∀ c ∈ s, c.val < 0x80) → utf8 s = some (s.map asciiByte) := by
  intro s
  induction s with
  | nil => intro _; rfl
  | cons c cs ih =>
    intro h
    have hc : utf8Char c = some [asciiByte c] := by rw [utf8Char, if_pos (h c (by simp)), asciiByte]
    rw [utf8, hc, ih (fun d hd => h d (by simp [hd]))]
    rfl

end SnowflakeSqlApi
