import Mathlib.Tactic.NormNum
import SnowflakeSqlApi.Testing.Wire

/-!
# Numbers and offsets on the two sides

A `Decimal` is bound as `str(d)` and sent by the fake server as `format(d, "f")`.  The
second is always a plain numeral of the number (`fixed_eq`), which the client reads back
as that number; the first is the same text only where `str` does not go to scientific
notation (`str_eq_fixed`, `str_scientific`).

The offset of an aware `datetime` is rounded on one side and floored on the other.
`numbers_agree_iff` says on which values the two sides agree.
-/

namespace SnowflakeSqlApi

/-! ### Numerals read by `int` and `Decimal` -/

theorem isDigit_digitChar (d : Nat) : isDigit (digitChar d) = true := isSome_decimalValue d

theorem filterMap_decimalValue {ds : List Nat} (h : ∀ d ∈ ds, d < 10) :
    (ds.map digitChar).filterMap decimalValue = ds := by
  induction ds with
  | nil => rfl
  | cons d ds ih =>
    rw [List.map_cons, List.filterMap_cons_some (decimalValue_digitChar (h d (by simp))),
      ih fun e he => h e (by simp [he])]

theorem takeWhile_digits (ds : List Nat) {rest : PyStr} (h : ∀ c ∈ rest.head?, isDigit c = false) :
    (ds.map digitChar ++ rest).takeWhile isDigit = ds.map digitChar ∧
      (ds.map digitChar ++ rest).dropWhile isDigit = rest := by
  induction ds with
  | nil =>
    cases rest with
    | nil => exact ⟨rfl, rfl⟩
    | cons c rest =>
      have hc := h c rfl
      exact ⟨List.takeWhile_cons_of_neg (by simp [hc]), List.dropWhile_cons_of_neg (by simp [hc])⟩
  | cons d ds ih =>
    rw [List.map_cons, List.cons_append, List.takeWhile_cons_of_pos (isDigit_digitChar d),
      List.dropWhile_cons_of_pos (isDigit_digitChar d), ih.1, ih.2]
    exact ⟨rfl, rfl⟩

/-- Digits up to another character are no run. -/
theorem digitRun_stop {c : PyChar} (hdigit : decimalValue c = none) (hc : c ≠ ch '_') (rest : PyStr) :
    ∀ (ds : List Nat), (∀ d ∈ ds, d < 10) → ∀ (acc : Nat) (seen : Bool),
      digitRun acc seen (ds.map digitChar ++ c :: rest) = none := by
  intro ds
  induction ds with
  | nil =>
    intro _ acc seen
    rw [List.map_nil, List.nil_append, digitRun, hdigit]
    dsimp only
    rw [if_neg (fun h => hc h.1)]
  | cons d ds ih =>
    intro h acc seen
    rw [List.map_cons, List.cons_append, digitRun, decimalValue_digitChar (h d (by simp))]
    exact ih (fun e he => h e (by simp [he])) _ true

theorem splitSign_append {s : PyStr} (hs : s ≠ []) (t : PyStr) :
    splitSign (s ++ t) = ((splitSign s).1, (splitSign s).2 ++ t) := by
  cases s with
  | nil => exact absurd rfl hs
  | cons c s =>
    rw [List.cons_append, splitSign, splitSign]
    split_ifs <;> rfl

namespace Numeral

variable (n : Numeral)

theorem text_ne_nil : n.text ≠ [] := by
  obtain ⟨d, ds, hwhole⟩ := List.exists_cons_of_ne_nil n.whole_ne
  intro htext
  rw [text, wholeText, hwhole] at htext
  simp at htext

theorem isSpace_text : ∀ c ∈ n.text, isSpace c = false := by
  intro c hc
  by_contra hspace
  have hval : isSpace c = true := by simpa using hspace
  have hrange : c.val < 48 ∨ 57 < c.val := by
    simp only [isSpace, Bool.or_eq_true, Bool.and_eq_true, decide_eq_true_eq] at hval
    omega
  have hminus : c ≠ ch '-' := by
    rintro rfl
    exact absurd hval (by decide)
  have hdot : c ≠ ch '.' := by
    rintro rfl
    exact absurd hval (by decide)
  exact n.notMem_text hrange hminus hdot hc

theorem stripInt_text : stripBy isIntSpace n.text = n.text :=
  stripBy_of_all_not fun c hc => by rw [isIntSpace, n.isSpace_text c hc, Bool.false_and]

theorem filter_text : n.text.filter (· ≠ ch '_') = n.text := by
  rw [List.filter_eq_self]
  intro c hc
  rw [decide_eq_true_eq]
  rintro rfl
  exact n.notMem_text (by decide) (by decide) (by decide) hc

/-- The text without its sign. -/
def digitsText : PyStr := n.whole.map digitChar ++ n.fracText

theorem splitSign_text : splitSign n.text = (n.negative, n.digitsText) := by
  rw [text, wholeText, signText, digitsText]
  cases n.negative with
  | true => rfl
  | false =>
    obtain ⟨d, ds, hwhole⟩ := List.exists_cons_of_ne_nil n.whole_ne
    rw [hwhole]
    simp only [Bool.false_eq_true, ↓reduceIte, List.nil_append, List.map_cons, List.cons_append,
      splitSign]
    rw [if_neg (digitChar_ne (by decide) d), if_neg (digitChar_ne (by decide) d)]

theorem head?_fracText : ∀ c ∈ n.fracText.head?, isDigit c = false := by
  intro c hc
  rw [fracText] at hc
  cases hfrac : n.frac with
  | none =>
    rw [hfrac] at hc
    cases hc
  | some ds =>
    rw [hfrac] at hc
    cases hc
    decide

/-- A numeral with an exponent after it. -/
theorem parseDecimal_append {exponent : PyStr} {e : Int}
    (hplain : ∀ c ∈ exponent, isSpace c = false ∧ c ≠ ch '_')
    (hhead : ∀ c ∈ exponent.head?, isDigit c = false ∧ c ≠ ch '.')
    (he : parseExponent exponent = .ok e) :
    parseDecimal (n.text ++ exponent) =
      PyDecimal.make n.negative n.coefficient (e - n.fracDigits.length) := by
  have hspace : ∀ c ∈ n.text ++ exponent, isSpace c = false := by
    intro c hc
    rcases List.mem_append.mp hc with hc | hc
    · exact n.isSpace_text c hc
    · exact (hplain c hc).1
  have hstrip : strip (n.text ++ exponent) = n.text ++ exponent := stripBy_of_all_not hspace
  have hexponent : exponent.filter (· ≠ ch '_') = exponent := by
    rw [List.filter_eq_self]
    exact fun c hc => decide_eq_true (hplain c hc).2
  have hsign : splitSign (n.text ++ exponent) = (n.negative, n.digitsText ++ exponent) := by
    rw [splitSign_append n.text_ne_nil, n.splitSign_text]
  have hrest : ∀ c ∈ (n.fracText ++ exponent).head?, isDigit c = false := by
    intro c hc
    cases hfrac : n.fracText with
    | nil =>
      rw [hfrac] at hc
      exact (hhead c hc).1
    | cons d ds =>
      rw [hfrac] at hc
      exact n.head?_fracText c (by rw [hfrac]; exact hc)
  have hsplit := takeWhile_digits n.whole hrest
  have hwhole : n.whole.map digitChar ≠ [] := by simpa using n.whole_ne
  rw [parseDecimal, hstrip, List.filter_append, n.filter_text, hexponent, hsign, digitsText,
    List.append_assoc]
  dsimp only
  rw [hsplit.1, hsplit.2, if_pos (.inl hwhole), coefficient]
  cases hfrac : n.frac with
  | none =>
    have hdigits : n.fracDigits = [] := by rw [fracDigits, hfrac]; rfl
    have htext : n.fracText = [] := by rw [fracText, hfrac]; rfl
    have hpoint : ¬ exponent.head? = some (ch '.') := fun h => (hhead _ h).2 rfl
    rw [htext, hdigits, List.nil_append, if_neg hpoint, if_neg hpoint, List.append_nil, List.append_nil,
      filterMap_decimalValue n.whole_lt, he]
    rfl
  | some ds =>
    have hdigits : n.fracDigits = ds := by rw [fracDigits, hfrac]; rfl
    have htext : n.fracText = ch '.' :: ds.map digitChar := by rw [fracText, hfrac]; rfl
    have hdrop := takeWhile_digits ds fun c hc => (hhead c hc).1
    have hlt : ∀ d ∈ n.whole ++ ds, d < 10 := by
      intro d hd
      rcases List.mem_append.mp hd with hd | hd
      · exact n.whole_lt d hd
      · exact n.frac_lt ds hfrac d hd
    rw [htext, hdigits, List.cons_append]
    simp only [List.head?_cons, ↓reduceIte, List.tail_cons]
    rw [hdrop.1, hdrop.2, ← List.map_append, filterMap_decimalValue hlt, he, List.length_map]
    rfl

/-- **`Decimal` reads a numeral exactly**, to its last digit. -/
theorem parseDecimal_text : parseDecimal n.text =
    PyDecimal.make n.negative n.coefficient (-(n.fracDigits.length : Int)) := by
  have hplain : ∀ c ∈ ([] : PyStr), isSpace c = false ∧ c ≠ ch '_' := by simp
  have hhead : ∀ c ∈ ([] : PyStr).head?, isDigit c = false ∧ c ≠ ch '.' := by simp
  have hparsed := n.parseDecimal_append hplain hhead (e := 0) rfl
  rw [List.append_nil, zero_sub] at hparsed
  exact hparsed

/-- **`int` refuses a point.** -/
theorem readInt_text_of_frac {ds : List Nat} (h : n.frac = some ds) : readInt n.text = none := by
  have hdot : decimalValue (ch '.') = none := by decide
  have htext : n.fracText = ch '.' :: ds.map digitChar := by rw [fracText, h]; rfl
  have hrun : digitRun 0 false (n.whole.map digitChar ++ ch '.' :: ds.map digitChar) = none :=
    digitRun_stop hdot (by decide) _ n.whole n.whole_lt 0 false
  rw [readInt, n.stripInt_text, text, wholeText, signText, htext]
  cases n.negative with
  | true =>
    simp only [↓reduceIte, List.cons_append, List.nil_append]
    rw [hrun]
    rfl
  | false =>
    obtain ⟨d, rest, hwhole⟩ := List.exists_cons_of_ne_nil n.whole_ne
    rw [hwhole, List.map_cons, List.cons_append] at hrun
    simp only [Bool.false_eq_true, ↓reduceIte, List.nil_append, hwhole, List.map_cons,
      List.cons_append]
    rw [if_neg (digitChar_ne (by decide) d), if_neg (digitChar_ne (by decide) d), hrun]
    rfl

theorem parseInt_text_of_frac {ds : List Nat} (h : n.frac = some ds) : parseInt n.text = none := by
  cases hparse : parseInt n.text with
  | none => rfl
  | some m =>
    have hread := readInt_of_parseInt hparse
    rw [n.readInt_text_of_frac h] at hread
    cases hread

end Numeral

namespace PyDecimal

/-- The digits `format(d, "f")` writes, without the point. -/
def fixedDigitList (coefficient : Nat) (exponent : Int) : List Nat :=
  List.replicate ((-exponent).toNat + 1 - (digitsOf coefficient).length) 0 ++ digitsOf coefficient
    ++ List.replicate (if coefficient = 0 then 0 else exponent.toNat) 0

theorem lt_length_fixedDigitList (coefficient : Nat) (exponent : Int) :
    (-exponent).toNat < (fixedDigitList coefficient exponent).length := by
  simp only [fixedDigitList, List.length_append, List.length_replicate]
  omega

theorem fixedDigitList_lt (coefficient : Nat) (exponent : Int) :
    ∀ d ∈ fixedDigitList coefficient exponent, d < 10 := by
  intro d hd
  rw [fixedDigitList, List.mem_append, List.mem_append] at hd
  rcases hd with (hd | hd) | hd
  · rw [List.eq_of_mem_replicate hd]
    decide
  · exact digitsOf_lt hd
  · rw [List.eq_of_mem_replicate hd]
    decide

/-- `format(d, "f")` as a numeral: a point where the exponent is negative. -/
def fixedNumeral (sign : Bool) (coefficient : Nat) (exponent : Int) : Numeral where
  negative := sign
  whole := (fixedDigitList coefficient exponent).take
    ((fixedDigitList coefficient exponent).length - (-exponent).toNat)
  frac :=
    if exponent < 0 then
      some ((fixedDigitList coefficient exponent).drop
        ((fixedDigitList coefficient exponent).length - (-exponent).toNat))
    else none
  whole_ne := by
    have hlength := lt_length_fixedDigitList coefficient exponent
    apply List.ne_nil_of_length_pos
    rw [List.length_take]
    omega
  whole_lt := fun d hd => fixedDigitList_lt _ _ d (List.mem_of_mem_take hd)
  frac_lt := by
    intro ds hds d hd
    split at hds
    · cases hds
      exact fixedDigitList_lt _ _ d (List.mem_of_mem_drop hd)
    · cases hds

variable (sign : Bool) (coefficient : Nat) (exponent : Int) {hrange : InDecimalRange coefficient exponent}

theorem fixedNumeral_fracDigits : (fixedNumeral sign coefficient exponent).fracDigits =
    (fixedDigitList coefficient exponent).drop
      ((fixedDigitList coefficient exponent).length - (-exponent).toNat) := by
  rw [Numeral.fracDigits, fixedNumeral]
  dsimp only
  by_cases hexponent : exponent < 0
  · rw [if_pos hexponent]
    rfl
  · have hnone : (-exponent).toNat = 0 := by omega
    rw [if_neg hexponent, hnone, Nat.sub_zero, List.drop_length]
    rfl

theorem length_fixedNumeral_fracDigits :
    (fixedNumeral sign coefficient exponent).fracDigits.length = (-exponent).toNat := by
  have hlength := lt_length_fixedDigitList coefficient exponent
  rw [fixedNumeral_fracDigits, List.length_drop]
  omega

theorem fixedNumeral_coefficient : (fixedNumeral sign coefficient exponent).coefficient =
    coefficient * 10 ^ exponent.toNat := by
  rw [Numeral.coefficient, fixedNumeral_fracDigits, fixedNumeral]
  dsimp only
  rw [List.take_append_drop, fixedDigitList, ofDigitList_append, ofDigitList_append,
    ofDigitList_replicate_zero, ofDigitList_replicate_zero, ofDigitList_digitsOf, Nat.zero_mul,
    Nat.zero_add, Nat.add_zero, List.length_replicate]
  by_cases hzero : coefficient = 0
  · rw [hzero, Nat.zero_mul, Nat.zero_mul]
  · rw [if_neg hzero]

theorem lt_pow_length_digitsOf (n : Nat) : n < 10 ^ (digitsOf n).length := by
  have hlt := ofDigitList_lt fun d => @digitsOf_lt n d
  rwa [ofDigitList_digitsOf] at hlt

/-- A number in plain digits is in the range of the `decimal` module if the number was. -/
theorem inRange_fixedNumeral (h : InDecimalRange coefficient exponent) :
    InDecimalRange (fixedNumeral sign coefficient exponent).coefficient
      (-((fixedNumeral sign coefficient exponent).fracDigits.length : Int)) := by
  have hpos := List.length_pos_of_ne_nil (digitsOf_ne_nil coefficient)
  have hlength : (digitsOf (coefficient * 10 ^ exponent.toNat)).length ≤
      (digitsOf coefficient).length + exponent.toNat := by
    refine length_digitsOf_le (by omega) ?_
    rw [pow_add]
    exact Nat.mul_lt_mul_of_pos_right (lt_pow_length_digitsOf _) (by positivity)
  obtain ⟨hhigh, hlow⟩ := h
  rw [fixedNumeral_coefficient, length_fixedNumeral_fracDigits]
  constructor <;> omega

/-- The digits of a number without a point. -/
theorem length_fixedNumeral_whole (h : 0 ≤ exponent) :
    (fixedNumeral sign coefficient exponent).whole.length =
      (digitsOf coefficient).length + if coefficient = 0 then 0 else exponent.toNat := by
  have hpos := List.length_pos_of_ne_nil (digitsOf_ne_nil coefficient)
  rw [fixedNumeral]
  dsimp only
  rw [List.length_take, fixedDigitList, List.length_append, List.length_append, List.length_replicate,
    List.length_replicate]
  omega

/-- The text of digits with the point `k` places from the end. -/
theorem fixedNumeral_text : (fixedNumeral sign coefficient exponent).text =
    (if sign then [ch '-'] else []) ++
      (((fixedDigitList coefficient exponent).take
        ((fixedDigitList coefficient exponent).length - (-exponent).toNat)).map digitChar ++
      if exponent < 0 then
        ch '.' :: ((fixedDigitList coefficient exponent).drop
          ((fixedDigitList coefficient exponent).length - (-exponent).toNat)).map digitChar
      else []) := by
  rw [Numeral.text, Numeral.wholeText, Numeral.signText, Numeral.fracText, fixedNumeral]
  dsimp only
  rw [List.append_assoc]
  congr 2
  by_cases hexponent : exponent < 0
  · rw [if_pos hexponent, if_pos hexponent]
    rfl
  · rw [if_neg hexponent, if_neg hexponent]
    rfl

theorem map_digitChar_replicate (k : Nat) :
    (List.replicate k 0).map digitChar = List.replicate k (ch '0') := List.map_replicate

theorem length_strNat (n : Nat) : (strNat n).length = (digitsOf n).length := List.length_map _

/-- The text where no place is cut off: the digits, with zeros for the exponent. -/
theorem fixed_of_nonneg (h : 0 ≤ exponent) :
    (finite sign coefficient exponent hrange).fixed = (fixedNumeral sign coefficient exponent).text := by
  have hpos := List.length_pos_of_ne_nil (digitsOf_ne_nil coefficient)
  have hpoint : (-exponent).toNat = 0 := by omega
  have hpad : 0 + 1 - (digitsOf coefficient).length = 0 := by omega
  rw [fixedNumeral_text, if_neg (not_lt.mpr h), hpoint, Nat.sub_zero, List.take_length, List.append_nil,
    fixedDigitList, hpoint, hpad, List.replicate_zero, List.nil_append, List.map_append,
    map_digitChar_replicate, fixed]
  congr 1
  by_cases hzero : coefficient = 0 ∧ 0 < exponent
  · rw [if_pos hzero, if_pos hzero.1, hzero.1]
    decide
  · rw [if_neg hzero, pointAt, length_strNat, if_neg (by omega)]
    by_cases hexponent : exponent = 0
    · subst hexponent
      have hzeros : (if coefficient = 0 then 0 else (0 : Int).toNat) = 0 := by split <;> rfl
      have hall : (strNat coefficient).length ≤ (0 + ((digitsOf coefficient).length : Int)).toNat := by
        rw [length_strNat]
        omega
      rw [if_neg (by omega), if_neg (by omega), List.take_of_length_le hall,
        List.drop_of_length_le hall, if_pos rfl, hzeros]
      rfl
    · have hcoefficient : coefficient ≠ 0 := fun h => hzero ⟨h, by omega⟩
      have hzeros : (exponent + ((digitsOf coefficient).length : Int)
          - ((digitsOf coefficient).length : Int)).toNat = exponent.toNat := by omega
      rw [if_pos (by omega), if_neg hcoefficient, hzeros]
      rfl

/-- The text with a point: zeros in front where there are too few digits. -/
theorem fixed_of_neg (h : exponent < 0) :
    (finite sign coefficient exponent hrange).fixed = (fixedNumeral sign coefficient exponent).text := by
  have hpos := List.length_pos_of_ne_nil (digitsOf_ne_nil coefficient)
  have hzeros : (if coefficient = 0 then 0 else exponent.toNat) = 0 := by split <;> omega
  rw [fixedNumeral_text, if_pos h, fixedDigitList, hzeros, List.replicate_zero, List.append_nil, fixed,
    if_neg (fun hzero : coefficient = 0 ∧ 0 < exponent => absurd hzero.2 (by omega)), pointAt,
    length_strNat]
  congr 1
  rcases lt_trichotomy (exponent + ((digitsOf coefficient).length : Int)) 0 with hplace | hplace | hplace
  · have hpad : (-exponent).toNat + 1 - (digitsOf coefficient).length =
        (-(exponent + ((digitsOf coefficient).length : Int))).toNat + 1 := by omega
    have hpoint : ((-(exponent + ((digitsOf coefficient).length : Int))).toNat + 1 +
        (digitsOf coefficient).length) - (-exponent).toNat = 1 := by omega
    rw [if_pos hplace, hpad, List.length_append, List.length_replicate, hpoint, List.replicate_succ,
      List.cons_append, List.take_succ_cons, List.take_zero, List.drop_succ_cons, List.drop_zero,
      List.map_append, map_digitChar_replicate]
    rfl
  · have hpad : (-exponent).toNat + 1 - (digitsOf coefficient).length = 1 := by omega
    have hpoint : (1 + (digitsOf coefficient).length) - (-exponent).toNat = 1 := by omega
    rw [hplace, if_neg (by decide), if_neg (by omega), if_pos rfl, Int.toNat_zero, List.drop_zero,
      if_neg (strNat_ne_nil coefficient), hpad, List.length_append, List.length_replicate, hpoint]
    rfl
  · have hpad : (-exponent).toNat + 1 - (digitsOf coefficient).length = 0 := by omega
    have hpoint : (digitsOf coefficient).length - (-exponent).toNat =
        (exponent + ((digitsOf coefficient).length : Int)).toNat := by omega
    have hdrop : (strNat coefficient).drop
        (exponent + ((digitsOf coefficient).length : Int)).toNat ≠ [] := by
      apply List.ne_nil_of_length_pos
      rw [List.length_drop, length_strNat]
      omega
    rw [if_neg (by omega), if_neg (by omega), if_neg (by omega), if_neg hdrop, hpad,
      List.replicate_zero, List.nil_append, hpoint, List.map_take, List.map_drop]
    rfl

/-- **`format(d, "f")` is a numeral.** -/
theorem fixed_eq :
    (finite sign coefficient exponent hrange).fixed = (fixedNumeral sign coefficient exponent).text := by
  rcases lt_or_ge exponent 0 with h | h
  · exact fixed_of_neg sign coefficient exponent h
  · exact fixed_of_nonneg sign coefficient exponent h

/-! ### Scientific notation -/

/-- `str(d)` writes no exponent. -/
def Positional : Prop := exponent ≤ 0 ∧ -6 < exponent + (strNat coefficient).length

instance : Decidable (Positional coefficient exponent) := inferInstanceAs (Decidable (_ ∧ _))

variable {sign coefficient exponent}

theorem str_eq_fixed (h : Positional coefficient exponent) :
    (finite sign coefficient exponent hrange).str = (finite sign coefficient exponent hrange).fixed := by
  have hpos := List.length_pos_of_ne_nil (strNat_ne_nil coefficient)
  have hplain : exponent ≤ 0 ∧ -6 < exponent + ((strNat coefficient).length : Int) := h
  obtain ⟨hexponent, hleft⟩ := h
  rw [str, fixed, if_pos hplain, if_pos rfl, List.append_nil,
    if_neg (fun hzero : coefficient = 0 ∧ 0 < exponent => absurd hzero.2 (by omega)), pointAt]
  congr 1
  rcases lt_trichotomy (exponent + ((strNat coefficient).length : Int)) 0 with hplace | hplace | hplace
  · rw [if_pos hplace.le, if_pos hplace]
  · rw [hplace, if_pos le_rfl, if_neg (by decide), if_neg (by omega), if_pos rfl, Int.toNat_zero,
      List.drop_zero, if_neg (strNat_ne_nil coefficient)]
    rfl
  · have hlen : ¬ ((strNat coefficient).length : Int) <
        exponent + ((strNat coefficient).length : Int) := by omega
    rw [if_neg (not_le.mpr hplace), if_neg hplace.not_gt, if_neg hlen, if_neg hplace.ne']
    by_cases hzero : exponent = 0
    · have hall : (strNat coefficient).length ≤
          (exponent + ((strNat coefficient).length : Int)).toNat := by omega
      have hle : ((strNat coefficient).length : Int) ≤
          exponent + ((strNat coefficient).length : Int) := by omega
      rw [if_pos hle, List.take_of_length_le hall, List.drop_of_length_le hall, if_pos rfl,
        hzero, Int.zero_add, Int.sub_self]
      rfl
    · have hgt : ¬ ((strNat coefficient).length : Int) ≤
          exponent + ((strNat coefficient).length : Int) := by omega
      have hdrop : (strNat coefficient).drop
          (exponent + ((strNat coefficient).length : Int)).toNat ≠ [] := by
        apply List.ne_nil_of_length_pos
        rw [List.length_drop]
        omega
      rw [if_neg hgt, if_neg hdrop, List.append_assoc]
      rfl

/-- Elsewhere there is an exponent. -/
theorem str_scientific (h : ¬ Positional coefficient exponent) :
    ch 'E' ∈ (finite sign coefficient exponent hrange).str := by
  have hpos := List.length_pos_of_ne_nil (strNat_ne_nil coefficient)
  have hne : exponent + ((strNat coefficient).length : Int) ≠ 1 := by
    intro hone
    exact h ⟨by omega, by omega⟩
  have hplain : ¬ (exponent ≤ 0 ∧ -6 < exponent + ((strNat coefficient).length : Int)) := h
  rw [str, if_neg hplain, if_neg hne]
  simp

/-! ### The number a text stands for -/

variable (sign coefficient exponent)

/-- The number of a finite `Decimal`. -/
def toRat : ℚ := (if sign then -1 else 1) * coefficient * 10 ^ exponent

/-- The numeral has the same number, with its places counted by its own digits. -/
theorem toRat_fixedNumeral : toRat sign (fixedNumeral sign coefficient exponent).coefficient
    (-((fixedNumeral sign coefficient exponent).fracDigits.length : Int)) =
      toRat sign coefficient exponent := by
  rw [toRat, toRat, fixedNumeral_coefficient, length_fixedNumeral_fracDigits]
  rcases le_or_gt 0 exponent with h | h
  · obtain ⟨k, rfl⟩ := Int.eq_ofNat_of_zero_le h
    have hnone : (-(k : Int)).toNat = 0 := by omega
    rw [hnone, Int.toNat_natCast]
    push_cast
    rw [zpow_natCast]
    ring
  · have hzero : exponent.toNat = 0 := by omega
    have hback : -(((-exponent).toNat : Nat) : Int) = exponent := by omega
    rw [hzero, hback, pow_zero, Nat.mul_one]

end PyDecimal

/-- The number of an `int` or a finite `Decimal`. -/
def Value.number : Value → Option ℚ
  | .int n => some n
  | .decimal (.finite sign coefficient exponent _) => some (PyDecimal.toRat sign coefficient exponent)
  | _ => Option.none

namespace Testing

variable (lib : Builtins) (sign : Bool) (coefficient : Nat) (exponent : Int)
  {hrange : InDecimalRange coefficient exponent}

open PyDecimal

/-- A column with a scale reads a fixed text as a `Decimal` of the same number. -/
theorem decodeFixed_scaled {scale : Int} (h : scale ≠ 0) : ∃ w,
    decodeFixed lib (.str (finite sign coefficient exponent hrange).fixed) (.int scale) = .ok w ∧
      w.number = some (toRat sign coefficient exponent) := by
  refine ⟨.decimal (.finite sign _ _ (inRange_fixedNumeral sign coefficient exponent hrange)), ?_, ?_⟩
  · rw [decodeFixed, if_neg (by simpa [isNoneOrZero] using h), decimalOf, fixed_eq,
      Numeral.parseDecimal_text, make_eq]
    rfl
  · exact congrArg some (toRat_fixedNumeral sign coefficient exponent)

/-- The text of a number without a point. -/
theorem fixed_eq_wholeText (h : 0 ≤ exponent) : (finite sign coefficient exponent hrange).fixed =
    (fixedNumeral sign coefficient exponent).wholeText := by
  have hfrac : (fixedNumeral sign coefficient exponent).frac = none := if_neg (not_lt.mpr h)
  rw [fixed_eq, Numeral.text, Numeral.fracText, hfrac]
  exact List.append_nil _

theorem short_fixedNumeral_iff (h : 0 ≤ exponent) : (fixedNumeral sign coefficient exponent).Short ↔
    digitCount (finite sign coefficient exponent hrange).fixed ≤ intMaxStrDigits := by
  rw [fixed_eq_wholeText _ _ _ h, Numeral.digitCount_wholeText, Numeral.Short]

/-- A column of scale 0 reads it as an `int`, where it has no point and not too many digits. -/
theorem decodeFixed_whole (h : 0 ≤ exponent) (hshort : (fixedNumeral sign coefficient exponent).Short) :
    ∃ w, decodeFixed lib (.str (finite sign coefficient exponent hrange).fixed) (.int 0) = .ok w ∧
      w.number = some (toRat sign coefficient exponent) := by
  have hfrac : (fixedNumeral sign coefficient exponent).frac = none := if_neg (not_lt.mpr h)
  have hdigits : (fixedNumeral sign coefficient exponent).fracDigits = [] := by
    rw [Numeral.fracDigits, hfrac]
    rfl
  have hwhole : ofDigitList (fixedNumeral sign coefficient exponent).whole =
      (fixedNumeral sign coefficient exponent).coefficient := by
    rw [Numeral.coefficient, hdigits, List.append_nil]
  refine ⟨.int ((if sign then -1 else 1) *
    ((fixedNumeral sign coefficient exponent).coefficient : Int)), ?_, ?_⟩
  · rw [decodeFixed, if_pos (by decide), fixed_eq_wholeText _ _ _ h, intOf,
      Numeral.parseInt_wholeText_of_short _ hshort, hwhole]
    rfl
  · have hnumber := toRat_fixedNumeral sign coefficient exponent
    rw [hdigits, List.length_nil, Nat.cast_zero, neg_zero, toRat, zpow_zero, mul_one] at hnumber
    rw [← hnumber]
    simp only [Value.number, Option.some_inj]
    push_cast
    cases sign <;> simp

/-- Too many digits are refused. -/
theorem decodeFixed_long (h : 0 ≤ exponent) (hlong : ¬ (fixedNumeral sign coefficient exponent).Short) :
    ∃ e, decodeFixed lib (.str (finite sign coefficient exponent hrange).fixed) (.int 0) = .error e := by
  rw [decodeFixed, if_pos (by decide), fixed_eq_wholeText _ _ _ h]
  exact ⟨_, congrArg (Except.map Value.int) (Numeral.intOfText_wholeText_long _ hlong)⟩

/-- It cannot read a point. -/
theorem decodeFixed_point (h : exponent < 0) :
    ∃ e, decodeFixed lib (.str (finite sign coefficient exponent hrange).fixed) (.int 0) = .error e := by
  have hfrac : (fixedNumeral sign coefficient exponent).frac = some _ := if_pos h
  rw [decodeFixed, if_pos (by decide), fixed_eq, intOf, Numeral.parseInt_text_of_frac _ hfrac]
  exact ⟨_, rfl⟩

/-! ### Where the two sides agree -/

/-- A plain decimal text. -/
def IsPlain (text : PyStr) : Prop := ∃ n : Numeral, n.frac ≠ some [] ∧ n.text = text

/-- The binding text is plain, is the fake server's text, and is read back as the number. -/
def NumberAgrees (conv : Conversions) (lib : Builtins) (value : Value) : Prop :=
  ∃ text, bindOne value = .ok ⟨py "FIXED", some text⟩ ∧ IsPlain text ∧
    encodeCell conv value (py "fixed") = .ok (some text) ∧
    ∃ w, decodeFixed lib (.str text) ((inferType value).2.elim .null .int) = .ok w ∧
      w.number = value.number

/-- The two texts of an aware value have one offset field. -/
def OffsetAgrees (conv : Conversions) (d : Aware) : Prop :=
  ∃ bound cell, bindOne (.aware d) = .ok ⟨py "TIMESTAMP_TZ", some bound⟩ ∧
    encodeCell conv (.aware d) (py "timestamp_tz") = .ok (some cell) ∧
    (partition (ch ' ') bound).2 = (partition (ch ' ') cell).2

/-- The offset rounds to the minute it is floored to. -/
def RoundsDown (d : Aware) : Prop :=
  d.utcoffset % 60000000 < 30000000 ∨
    d.utcoffset % 60000000 = 30000000 ∧ d.utcoffset / 60000000 % 2 = 0

theorem roundsDown_iff (d : Aware) : RoundsDown d ↔ offsetMinutes d = d.utcoffset / 60000000 := by
  rw [RoundsDown, offsetMinutes, roundDiv]
  split
  · omega
  split
  · omega
  · split <;> omega

theorem isPlain_strInt (n : Int) : IsPlain (strInt n) := by
  refine ⟨⟨decide (n < 0), digitsOf n.natAbs, none, digitsOf_ne_nil _, fun _ => digitsOf_lt, by simp⟩,
    by simp, ?_⟩
  simp only [Numeral.text, Numeral.wholeText, Numeral.signText, Numeral.fracText, Option.elim_none,
    List.append_nil, decide_eq_true_eq, strInt, strNat]
  split <;> rfl

theorem isPlain_fixed : IsPlain (finite sign coefficient exponent hrange).fixed := by
  refine ⟨fixedNumeral sign coefficient exponent, ?_, (fixed_eq sign coefficient exponent).symm⟩
  intro hfrac
  have hlength := length_fixedNumeral_fracDigits sign coefficient exponent
  rw [Numeral.fracDigits, hfrac, Option.getD_some, List.length_nil] at hlength
  rw [fixedNumeral] at hfrac
  split at hfrac
  · omega
  · cases hfrac

theorem not_isPlain {text : PyStr} (h : ch 'E' ∈ text) : ¬ IsPlain text := by
  rintro ⟨n, -, rfl⟩
  exact n.notMem_text (by decide) (by decide) (by decide) h

theorem encodeCell_fixed (conv : Conversions) (d : PyDecimal) :
    encodeCell conv (.decimal d) (py "fixed") = .ok (some d.fixed) :=
  encodeCell_eq (by simp) rfl

theorem encodeCell_fixed_int (conv : Conversions) {n : Int} (h : FewDigits n) :
    encodeCell conv (.int n) (py "fixed") = .ok (some (strInt n)) :=
  encodeCell_eq (by simp) (intStr_of_few h)

theorem encodeCell_timestampTz (conv : Conversions) (d : Aware) :
    encodeCell conv (.aware d) (py "timestamp_tz") = (encodeTimestampTz (.aware d)).map some := by
  rw [encodeCell]
  · rfl
  · simp

/-- The text of a finite `Decimal` is read back at its own scale. -/
theorem decodeFixed_inferred
    (hshort : 0 ≤ exponent → (fixedNumeral sign coefficient exponent).Short) :
    ∃ w, decodeFixed lib (.str (finite sign coefficient exponent hrange).fixed)
        ((inferType (.decimal (.finite sign coefficient exponent hrange))).2.elim .null .int) = .ok w ∧
      w.number = some (toRat sign coefficient exponent) := by
  rw [inferType, Option.elim_some]
  by_cases h : exponent < 0
  · rw [if_pos h]
    exact decodeFixed_scaled lib sign coefficient exponent (by omega)
  · rw [if_neg h]
    exact decodeFixed_whole lib sign coefficient exponent (not_lt.mp h) (hshort (not_lt.mp h))

theorem numberAgrees_int_iff (conv : Conversions) (n : Int) :
    NumberAgrees conv lib (.int n) ↔ FewDigits n := by
  constructor
  · rintro ⟨text, hbind, -⟩
    obtain ⟨text, htext, -⟩ := bind_eq_ok.mp hbind
    exact (intStr_eq_ok.mp htext).1
  · intro hfew
    refine ⟨strInt n, ?_, isPlain_strInt n, encodeCell_fixed_int conv hfew, .int n, ?_, rfl⟩
    · rw [bindOne, intStr_of_few hfew]
      rfl
    · rw [inferType, Option.elim_some, decodeFixed, if_pos (by decide), intOf, parseInt_strInt hfew]
      rfl

/-- A number written without an exponent has its digits before the point, if it has no point. -/
theorem short_iff_fewDigits (h : Positional coefficient exponent) :
    (0 ≤ exponent → (fixedNumeral sign coefficient exponent).Short) ↔
      (exponent = 0 → FewDigits coefficient) := by
  have hlength : exponent = 0 →
      (fixedNumeral sign coefficient exponent).whole.length = (digitsOf coefficient).length := by
    rintro rfl
    rw [length_fixedNumeral_whole _ _ _ le_rfl]
    simp
  constructor
  · intro hshort hzero
    have hwhole := hshort hzero.ge
    rwa [Numeral.Short, hlength hzero] at hwhole
  · intro hfew hnonneg
    have hzero : exponent = 0 := le_antisymm h.1 hnonneg
    rw [Numeral.Short, hlength hzero]
    exact hfew hzero

theorem numberAgrees_decimal_iff (conv : Conversions) :
    NumberAgrees conv lib (.decimal (.finite sign coefficient exponent hrange)) ↔
      Positional coefficient exponent ∧ (exponent = 0 → FewDigits coefficient) := by
  constructor
  · rintro ⟨text, hbind, hplain, -, w, hdecode, -⟩
    cases hbind
    have hpositional : Positional coefficient exponent := by
      by_contra h
      exact not_isPlain (str_scientific h) hplain
    refine ⟨hpositional, (short_iff_fewDigits sign coefficient exponent hpositional).mp fun hnonneg => ?_⟩
    by_contra hlong
    obtain ⟨e, he⟩ := @decodeFixed_long lib sign coefficient exponent hrange hnonneg hlong
    rw [inferType, Option.elim_some, if_neg (not_lt.mpr hnonneg), str_eq_fixed hpositional, he] at hdecode
    cases hdecode
  · rintro ⟨hpositional, hfew⟩
    have hbind : (finite sign coefficient exponent hrange).str =
        (finite sign coefficient exponent hrange).fixed := str_eq_fixed hpositional
    refine ⟨(finite sign coefficient exponent hrange).fixed, ?_, isPlain_fixed sign coefficient exponent,
      encodeCell_fixed conv _, decodeFixed_inferred lib sign coefficient exponent
        ((short_iff_fewDigits sign coefficient exponent hpositional).mpr hfew)⟩
    rw [bindOne, hbind]

theorem offsetAgrees_iff (conv : Conversions) (d : Aware) :
    OffsetAgrees conv d ↔ d.InstantInRange ∧ RoundsDown d := by
  have hspace : ch ' ' ∉ strInt (epochNanos (d.sub .epoch)) := notMem_strInt (by decide) (by decide) _
  have hcell : ch ' ' ∉ (epochNumeral (d.utc - Naive.epoch.micros)).text :=
    Numeral.notMem_text _ (by decide) (by decide) (by decide)
  have hbound : (partition (ch ' ') (strInt (epochNanos (d.sub .epoch)) ++ [ch ' '] ++
      strInt (offsetMinutes d + 1440))).2 = strInt (offsetMinutes d + 1440) := by
    rw [List.append_assoc]
    exact congrArg Prod.snd (partition_append _ hspace)
  rw [roundsDown_iff]
  constructor
  · rintro ⟨bound, cell, hbind, hencode, hfields⟩
    cases hbind
    rw [encodeCell_timestampTz] at hencode
    have hrange : d.InstantInRange := by
      by_contra h
      obtain ⟨e, he⟩ := epochDelta_error h
      rw [encodeTimestampTz, instant] at hencode
      dsimp only [bind, Except.bind] at hencode
      rw [he] at hencode
      cases hencode
    rw [encodeTimestampTz_eq hrange] at hencode
    cases hencode
    rw [hbound, partition_append _ hcell] at hfields
    have hminutes := strInt_injective hfields
    rw [offsetField] at hminutes
    exact ⟨hrange, by omega⟩
  · rintro ⟨hrange, hrounds⟩
    refine ⟨_, (epochNumeral (d.utc - Naive.epoch.micros)).text ++ ch ' ' :: strInt (offsetField d),
      rfl, ?_, ?_⟩
    · rw [encodeCell_timestampTz, encodeTimestampTz_eq hrange]
      rfl
    · rw [hbound, partition_append _ hcell, hrounds, offsetField]

/-- **The two sides agree** on every `int` that `str` writes, on the finite `Decimal`s that `str`
writes without an exponent and `int` reads back where they have no point, and on the offsets that
round down. -/
theorem numbers_agree_iff (conv : Conversions) (lib : Builtins) :
    (∀ n : Int, NumberAgrees conv lib (.int n) ↔ FewDigits n) ∧
    (∀ sign coefficient exponent hrange,
      NumberAgrees conv lib (.decimal (.finite sign coefficient exponent hrange)) ↔
        Positional coefficient exponent ∧ (exponent = 0 → FewDigits coefficient)) ∧
    ∀ d : Aware, OffsetAgrees conv d ↔ d.InstantInRange ∧ RoundsDown d :=
  ⟨numberAgrees_int_iff lib conv, fun sign coefficient exponent _ =>
    numberAgrees_decimal_iff lib sign coefficient exponent conv, offsetAgrees_iff conv⟩

/-- `Decimal("1.5")`. -/
def oneAndHalf : PyDecimal := .finite false 15 (-1) (by decide)

theorem numbers_agree_iff_oneAndHalf :
    NumberAgrees refusingConversions refusingBuiltins (.decimal oneAndHalf) :=
  ((numbers_agree_iff refusingConversions refusingBuiltins).2.1 false 15 (-1) (by decide)).mpr
    ⟨by decide, by decide⟩

/-- The epoch on a clock 45 seconds ahead of UTC. -/
def oddOffset : Aware where
  wall := ⟨62135596845000000, by decide⟩
  utcoffset := 45000000
  valid := by decide

/-- `Decimal("1E+2")`. -/
def hundred : PyDecimal := .finite false 1 2 (by decide)

/-- **Neither holds of all values**: not of `Decimal("1E+2")`, not of an offset of 45 seconds. -/
theorem numbers_disagree :
    ¬ NumberAgrees refusingConversions refusingBuiltins (.decimal hundred) ∧
      ¬ OffsetAgrees refusingConversions oddOffset := by
  constructor
  · rw [hundred, numberAgrees_decimal_iff]
    decide
  · rw [offsetAgrees_iff, roundsDown_iff]
    decide

end Testing

end SnowflakeSqlApi
