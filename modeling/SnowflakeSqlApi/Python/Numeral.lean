import Mathlib.Algebra.Order.Floor.Ring
import Mathlib.Data.Rat.Floor
import Mathlib.Tactic.FieldSimp
import Mathlib.Tactic.Linarith
import Mathlib.Tactic.Positivity
import SnowflakeSqlApi.Python.Text

/-!
# Decimal numerals

A `Numeral` is an optional minus sign, digits, and if it has a point any number of digits after
it.  Its `text` is what is written, its `value` the rational number it stands for.

`truncate` drops the fraction of a number, towards zero.  `truncate_scaled` reads a
value truncated at some digit off the digits: the ones after it are cut off, on either side of
zero.
-/

namespace SnowflakeSqlApi

/-! ### Truncation -/

/-- The integer part of `q`, towards zero. -/
def truncate (q : ℚ) : Int := if 0 ≤ q then ⌊q⌋ else ⌈q⌉

theorem truncate_of_nonneg {q : ℚ} (h : 0 ≤ q) : truncate q = ⌊q⌋ := if_pos h

theorem truncate_neg (q : ℚ) : truncate (-q) = -truncate q := by
  rcases lt_trichotomy q 0 with h | rfl | h
  · rw [truncate, if_pos (by linarith), truncate, if_neg (by linarith), Int.floor_neg]
  · simp [truncate]
  · rw [truncate, if_neg (by linarith), truncate, if_pos h.le, Int.ceil_neg]

theorem truncate_mono {p q : ℚ} (h : p ≤ q) : truncate p ≤ truncate q := by
  rw [truncate, truncate]
  by_cases hp : 0 ≤ p
  · rw [if_pos hp, if_pos (hp.trans h)]
    exact Int.floor_mono h
  · rw [if_neg hp]
    by_cases hq : 0 ≤ q
    · rw [if_pos hq]
      have hceil : ⌈p⌉ ≤ 0 := Int.ceil_le.mpr (by push_cast; linarith)
      exact hceil.trans (Int.floor_nonneg.mpr hq)
    · rw [if_neg hq]
      exact Int.ceil_mono h

/-! ### Digits -/

theorem ofDigitList_replicate_zero (k : Nat) : ofDigitList (List.replicate k 0) = 0 := by
  induction k with
  | zero => rfl
  | succ k ih =>
    rw [List.replicate_succ', ofDigitList_append, ih]
    rfl

theorem ofDigitList_lt {ds : List Nat} (h : ∀ d ∈ ds, d < 10) : ofDigitList ds < 10 ^ ds.length := by
  induction ds using List.reverseRecOn with
  | nil => simp [ofDigitList]
  | append_singleton ds d ih =>
    have hd := h d (by simp)
    have hds := ih fun e he => h e (by simp [he])
    have hlast : ofDigitList [d] = d := by simp [ofDigitList]
    rw [ofDigitList_append, hlast, List.length_append, List.length_singleton, pow_one,
      pow_succ]
    omega

/-- The first `k` digits, where there are not as many zeros are put for the rest. -/
theorem ofDigitList_take {ds : List Nat} (h : ∀ d ∈ ds, d < 10) (k : Nat) :
    ofDigitList ((ds ++ List.replicate k 0).take k) =
      ofDigitList ds * 10 ^ k / 10 ^ ds.length := by
  have hsplit := ofDigitList_append ((ds ++ List.replicate k 0).take k)
    ((ds ++ List.replicate k 0).drop k)
  have hlen : ((ds ++ List.replicate k 0).drop k).length = ds.length := by
    rw [List.length_drop, List.length_append, List.length_replicate]
    omega
  have hlt : ofDigitList ((ds ++ List.replicate k 0).drop k) < 10 ^ ds.length := by
    rw [← hlen]
    apply ofDigitList_lt
    intro d hd
    rcases List.mem_append.mp (List.mem_of_mem_drop hd) with hd | hd
    · exact h d hd
    · rw [List.eq_of_mem_replicate hd]
      decide
  rw [List.take_append_drop, ofDigitList_append, ofDigitList_replicate_zero, List.length_replicate,
    Nat.add_zero, hlen] at hsplit
  rw [hsplit, Nat.add_comm, Nat.add_mul_div_right _ _ (by positivity), Nat.div_eq_of_lt hlt,
    Nat.zero_add]

/-! ### Numerals -/

structure Numeral where
  negative : Bool
  whole : List Nat
  /-- The digits after the point, `none` where there is no point. -/
  frac : Option (List Nat)
  whole_ne : whole ≠ []
  whole_lt : ∀ d ∈ whole, d < 10
  frac_lt : ∀ ds ∈ frac, ∀ d ∈ ds, d < 10

namespace Numeral

variable (n : Numeral)

def signText : PyStr := if n.negative then [ch '-'] else []

def wholeText : PyStr := n.signText ++ n.whole.map digitChar

/-- The digits after the point. -/
def fracDigits : List Nat := n.frac.getD []

def fracText : PyStr := n.frac.elim [] fun ds => ch '.' :: ds.map digitChar

def text : PyStr := n.wholeText ++ n.fracText

/-- All digits, as a number. -/
def coefficient : Nat := ofDigitList (n.whole ++ n.fracDigits)

def value : ℚ :=
  (if n.negative then -1 else 1) * (n.coefficient / 10 ^ n.fracDigits.length)

theorem fracDigits_lt : ∀ d ∈ n.fracDigits, d < 10 := by
  intro d hd
  rw [fracDigits] at hd
  cases hfrac : n.frac with
  | none =>
    rw [hfrac] at hd
    cases hd
  | some ds =>
    rw [hfrac] at hd
    exact n.frac_lt ds hfrac d hd

/-- **Truncation cuts digits off.** -/
theorem truncate_scaled (k : Nat) : truncate (n.value * 10 ^ k) =
    (if n.negative then -1 else 1) *
      (ofDigitList n.whole * 10 ^ k + ofDigitList n.fracDigits * 10 ^ k / 10 ^ n.fracDigits.length : Nat) := by
  have hfloor : truncate (n.coefficient / 10 ^ n.fracDigits.length * 10 ^ k) =
      (ofDigitList n.whole * 10 ^ k
        + ofDigitList n.fracDigits * 10 ^ k / 10 ^ n.fracDigits.length : Nat) := by
    have hquotient : (n.coefficient / 10 ^ n.fracDigits.length * 10 ^ k : ℚ) =
        ((n.coefficient * 10 ^ k : Nat) : ℚ) / ((10 ^ n.fracDigits.length : Nat) : ℚ) := by
      push_cast
      ring
    rw [truncate_of_nonneg (by positivity), hquotient, Rat.floor_natCast_div_natCast, coefficient,
      ofDigitList_append]
    have hsum : (ofDigitList n.whole * 10 ^ n.fracDigits.length + ofDigitList n.fracDigits) * 10 ^ k =
        ofDigitList n.fracDigits * 10 ^ k
          + ofDigitList n.whole * 10 ^ k * 10 ^ n.fracDigits.length := by ring
    rw [← Int.natCast_div, hsum, Nat.add_mul_div_right _ _ (by positivity), Nat.add_comm]
  rw [value, mul_assoc]
  cases n.negative with
  | false => simpa using hfloor
  | true =>
    rw [if_pos rfl, if_pos rfl, neg_one_mul, neg_one_mul, truncate_neg, hfloor]

/-! ### Reading a numeral -/

theorem notMem_digits {c : PyChar} (hc : c.val < 48 ∨ 57 < c.val) (ds : List Nat) :
    c ∉ ds.map digitChar := by
  intro h
  obtain ⟨d, _, he⟩ := List.mem_map.mp h
  exact digitChar_ne hc d he

theorem notMem_wholeText {c : PyChar} (hc : c.val < 48 ∨ 57 < c.val) (hminus : c ≠ ch '-') :
    c ∉ n.wholeText := by
  rw [wholeText, List.mem_append, not_or]
  refine ⟨?_, notMem_digits hc _⟩
  rw [signText]
  split
  · rw [List.mem_singleton]
    exact hminus
  · exact List.not_mem_nil

theorem notMem_text {c : PyChar} (hc : c.val < 48 ∨ 57 < c.val) (hminus : c ≠ ch '-')
    (hdot : c ≠ ch '.') : c ∉ n.text := by
  rw [text, List.mem_append, not_or]
  refine ⟨n.notMem_wholeText hc hminus, ?_⟩
  rw [fracText]
  cases n.frac with
  | none => exact List.not_mem_nil
  | some ds =>
    rw [Option.elim_some, List.mem_cons, not_or]
    exact ⟨hdot, notMem_digits hc _⟩

/-- The text around the point. -/
theorem partition_text : partition (ch '.') n.text = (n.wholeText, n.fracDigits.map digitChar) := by
  have hdot : ch '.' ∉ n.wholeText := n.notMem_wholeText (by decide) (by decide)
  rw [text, fracText, fracDigits]
  cases n.frac with
  | none =>
    rw [Option.elim_none, List.append_nil]
    exact partition_of_notMem hdot
  | some ds => exact partition_append _ hdot

theorem digitCount_wholeText : digitCount n.wholeText = n.whole.length := by
  rw [wholeText, signText]
  cases n.negative with
  | false => exact digitCount_digits _
  | true => exact (digitCount_minus _).trans (digitCount_digits _)

theorem readInt_wholeText : readInt n.wholeText =
    some ((if n.negative then -1 else 1) * (ofDigitList n.whole : Int)) := by
  rw [wholeText, signText]
  cases n.negative with
  | false => simpa using readInt_digits n.whole_lt n.whole_ne
  | true => simpa using readInt_neg_digits n.whole_lt n.whole_ne

/-- The whole part is read up to the limit of `int`. -/
theorem parseInt_wholeText : parseInt n.wholeText =
    if n.whole.length ≤ intMaxStrDigits then
      some ((if n.negative then -1 else 1) * (ofDigitList n.whole : Int))
    else none := by
  rw [parseInt, digitCount_wholeText, readInt_wholeText]
  by_cases h : n.whole.length ≤ intMaxStrDigits
  · rw [if_neg (not_lt.mpr h), if_pos h]
  · rw [if_pos (not_le.mp h), if_neg h]

theorem head?_text : n.text.head? = some (ch '-') ↔ n.negative = true := by
  rw [text, wholeText, signText]
  cases n.negative with
  | true => simp
  | false =>
    obtain ⟨d, ds, hwhole⟩ := List.exists_cons_of_ne_nil n.whole_ne
    simp only [Bool.false_eq_true, ↓reduceIte, iff_false, List.nil_append, hwhole, List.map_cons,
      List.cons_append, List.head?_cons, Option.some_inj]
    exact digitChar_ne (by decide) d

end Numeral

end SnowflakeSqlApi
