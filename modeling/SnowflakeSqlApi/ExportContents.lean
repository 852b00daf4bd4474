import Mathlib.Data.List.DropRight
import SnowflakeSqlApi.ExportReaders
import SnowflakeSqlApi.Python.Calendar
import SnowflakeSqlApi.Testing.Lossless

/-!
# What an export keeps

A JSON Lines export writes a `Decimal`, a date, a time, a datetime and bytes as text.  Under the
types of the columns that text tells the value: `Decimal` reads back what `str` writes
(`parseDecimal_str`), an `isoformat` has one value, and a hexadecimal text one sequence of bytes.

So a finished export has everything that the query has.  `exportJsonl_determines` says it of two
exports: where the columns are the same and the files are the same, so are the rows.
-/

namespace SnowflakeSqlApi

/-! ### Decimals -/

namespace PyDecimal

/-- The exponent that `str` writes. -/
def exponentText (e : Int) : PyStr := [ch 'E'] ++ (if e < 0 then [] else [ch '+']) ++ strInt e

theorem exponentText_plain (e : Int) :
    ∀ c ∈ exponentText e, isSpace c = false ∧ c ≠ ch '_' := by
  have hletter : ∀ c, c = ch 'E' ∨ c = ch '+' ∨ c = ch '-' → isSpace c = false ∧ c ≠ ch '_' := by
    rintro c (rfl | rfl | rfl) <;> exact ⟨rfl, by decide⟩
  have hdigits : ∀ n, ∀ c ∈ strNat n, isSpace c = false ∧ c ≠ ch '_' := by
    intro n c hc
    obtain ⟨d, -, rfl⟩ := List.mem_map.mp hc
    exact ⟨isSpace_digitChar d, digitChar_ne (by decide) d⟩
  intro c hc
  rw [exponentText, strInt] at hc
  simp only [List.mem_append] at hc
  rcases hc with (hc | hc) | hc
  · exact hletter c (.inl (List.mem_singleton.mp hc))
  · split_ifs at hc
    · exact absurd hc List.not_mem_nil
    · exact hletter c (.inr (.inl (List.mem_singleton.mp hc)))
  · split_ifs at hc
    · rcases List.mem_cons.mp hc with rfl | hc
      · exact hletter _ (.inr (.inr rfl))
      · exact hdigits _ c hc
    · exact hdigits _ c hc

theorem parseExponent_exponentText (e : Int) : parseExponent (exponentText e) = .ok e := by
  have hdigits : ∀ n, (strNat n).all isDigit = true ∧
      ofDigitList ((strNat n).filterMap decimalValue) = n := by
    intro n
    constructor
    · rw [List.all_eq_true]
      intro c hc
      obtain ⟨d, -, rfl⟩ := List.mem_map.mp hc
      exact isDigit_digitChar d
    · rw [strNat, filterMap_decimalValue fun _ => digitsOf_lt, ofDigitList_digitsOf]
  have hread : ∀ (b : Bool) (n : Nat) (c : PyChar), c = ch '-' ∧ b = true ∨ c = ch '+' ∧ b = false →
      parseExponent (ch 'E' :: c :: strNat n) = .ok (if b then -(n : Int) else n) := by
    intro b n c hc
    have hsign : splitSign (c :: strNat n) = (b, strNat n) := by
      rcases hc with ⟨rfl, rfl⟩ | ⟨rfl, rfl⟩ <;> rfl
    rw [parseExponent, hsign]
    dsimp only
    rw [if_pos ⟨.inr rfl, strNat_ne_nil n, (hdigits n).1⟩, (hdigits n).2]
  rw [exponentText, strInt]
  by_cases hneg : e < 0
  · rw [if_pos hneg, if_pos hneg]
    refine (hread true e.natAbs (ch '-') (.inl ⟨rfl, rfl⟩)).trans ?_
    rw [if_pos rfl]
    congr 1
    omega
  · rw [if_neg hneg, if_neg hneg]
    refine (hread false e.natAbs (ch '+') (.inr ⟨rfl, rfl⟩)).trans ?_
    rw [if_neg Bool.false_ne_true]
    congr 1
    omega

variable (sign : Bool) (coefficient : Nat) (exponent : Int) {hrange : InDecimalRange coefficient exponent}

/-- In scientific notation `str` writes the first digit, the others after a point, and an exponent. -/
theorem str_eq_mantissa (h : ¬ Positional coefficient exponent) :
    (finite sign coefficient exponent hrange).str =
      (fixedNumeral sign coefficient (1 - (digitsOf coefficient).length)).text ++
        exponentText (exponent + (digitsOf coefficient).length - 1) := by
  have hplain : ¬ (exponent ≤ 0 ∧ -6 < exponent + ((strNat coefficient).length : Int)) := h
  have hpos := List.length_pos_of_ne_nil (digitsOf_ne_nil coefficient)
  have hne : exponent + ((strNat coefficient).length : Int) ≠ 1 := by
    intro hone
    have := List.length_pos_of_ne_nil (strNat_ne_nil coefficient)
    exact h ⟨by omega, by omega⟩
  rw [length_strNat] at hne
  have hpad : (-(1 - ((digitsOf coefficient).length : Int))).toNat + 1 -
      (digitsOf coefficient).length = 0 := by omega
  have hzeros : (if coefficient = 0 then 0 else
      (1 - ((digitsOf coefficient).length : Int)).toNat) = 0 := by split <;> omega
  have hfirst : (digitsOf coefficient).length -
      (-(1 - ((digitsOf coefficient).length : Int))).toNat = 1 := by omega
  have hplace : ¬ (1 : Int) ≤ 0 := by decide
  have hexponentText : (exponent + (digitsOf coefficient).length < 1) ↔
      exponent + (digitsOf coefficient).length - 1 < 0 := by omega
  rw [str, if_neg hplain, fixedNumeral_text, fixedDigitList, hpad, hzeros, List.replicate_zero,
    List.nil_append, List.append_nil, hfirst, exponentText, length_strNat, if_neg hplace, if_neg hne]
  simp only [hexponentText]
  congr 2
  by_cases hone : (digitsOf coefficient).length = 1
  · have hall : ((digitsOf coefficient).take 1) = digitsOf coefficient :=
      List.take_of_length_le hone.le
    have hnone : ¬ 1 - ((digitsOf coefficient).length : Int) < 0 := by omega
    have hshort : ((digitsOf coefficient).length : Int) ≤ 1 := by omega
    rw [if_pos hshort, if_neg hnone, hall, List.append_nil, hone]
    exact List.append_nil _
  · have hsome : 1 - ((digitsOf coefficient).length : Int) < 0 := by omega
    have hlong : ¬ ((digitsOf coefficient).length : Int) ≤ 1 := by omega
    rw [if_neg hlong, if_pos hsome, List.append_assoc, List.map_take, List.map_drop]
    rfl

/-- **`Decimal` reads what `str` writes**, digit for digit. -/
theorem parseDecimal_str : parseDecimal (finite sign coefficient exponent hrange).str =
    .ok (.finite sign coefficient exponent hrange) := by
  by_cases hpositional : Positional coefficient exponent
  · have hexponent : exponent.toNat = 0 := by
      have := hpositional.1
      omega
    have hback : -(((-exponent).toNat : Nat) : Int) = exponent := by
      have := hpositional.1
      omega
    rw [str_eq_fixed hpositional, fixed_eq, Numeral.parseDecimal_text, fixedNumeral_coefficient,
      length_fixedNumeral_fracDigits, hexponent, hback, pow_zero, Nat.mul_one]
    exact make_eq sign hrange
  · have hpos := List.length_pos_of_ne_nil (digitsOf_ne_nil coefficient)
    have hhead : ∀ e, ∀ c ∈ (exponentText e).head?, isDigit c = false ∧ c ≠ ch '.' := by
      intro e c hc
      cases hc
      exact ⟨rfl, by decide⟩
    have hzero : (1 - ((digitsOf coefficient).length : Int)).toNat = 0 := by omega
    have hback : exponent + ((digitsOf coefficient).length : Int) - 1 -
        (((-(1 - ((digitsOf coefficient).length : Int))).toNat : Nat) : Int) = exponent := by omega
    rw [str_eq_mantissa _ _ _ hpositional, Numeral.parseDecimal_append _ (exponentText_plain _)
      (hhead _) (parseExponent_exponentText _), fixedNumeral_coefficient,
      length_fixedNumeral_fracDigits, hzero, hback, pow_zero, Nat.mul_one]
    exact make_eq sign hrange

/-- `Decimal` on a sign and a name. -/
theorem parseDecimal_name (sign : Bool) {c : PyChar} {cs : PyStr}
    (hplain : ∀ d ∈ c :: cs, isSpace d = false ∧ d ≠ ch '_')
    (hc : isDigit c = false ∧ c ≠ ch '.' ∧ c ≠ ch '-' ∧ c ≠ ch '+') :
    parseDecimal ((if sign then [ch '-'] else []) ++ c :: cs) =
      (let name := asciiLower (c :: cs)
       let mark := if sign then [ch '-'] else []
       if name = py "inf" ∨ name = py "infinity" then .ok (.special (mark ++ py "Infinity"))
       else if name.take 3 = py "nan" ∧ (name.drop 3).all isDigit then
         .ok (.special (mark ++ py "NaN" ++ payload (name.drop 3)))
       else if name.take 4 = py "snan" ∧ (name.drop 4).all isDigit then
         .ok (.special (mark ++ py "sNaN" ++ payload (name.drop 4)))
       else .error (.invalidOperation "ConversionSyntax")) := by
  have hall : ∀ d ∈ (if sign then [ch '-'] else []) ++ c :: cs, isSpace d = false ∧ d ≠ ch '_' := by
    intro d hd
    rcases List.mem_append.mp hd with hd | hd
    · cases sign with
      | true =>
        rw [List.mem_singleton.mp hd]
        exact ⟨rfl, by decide⟩
      | false => exact absurd hd List.not_mem_nil
    · exact hplain d hd
  have hstrip : strip ((if sign then [ch '-'] else []) ++ c :: cs) =
      (if sign then [ch '-'] else []) ++ c :: cs := stripBy_of_all_not fun d hd => (hall d hd).1
  have hfilter : ((if sign then [ch '-'] else []) ++ c :: cs).filter (· ≠ ch '_') =
      (if sign then [ch '-'] else []) ++ c :: cs := by
    rw [List.filter_eq_self]
    exact fun d hd => decide_eq_true (hall d hd).2
  have hsign : splitSign ((if sign then [ch '-'] else []) ++ c :: cs) = (sign, c :: cs) := by
    cases sign with
    | true => rfl
    | false =>
      show splitSign (c :: cs) = _
      rw [splitSign, if_neg hc.2.2.1, if_neg hc.2.2.2]
  have htake : (c :: cs).takeWhile isDigit = [] := List.takeWhile_cons_of_neg (by simp [hc.1])
  have hdrop : (c :: cs).dropWhile isDigit = c :: cs := List.dropWhile_cons_of_neg (by simp [hc.1])
  have hpoint : ¬ (c :: cs).head? = some (ch '.') := fun h => hc.2.1 (Option.some.inj h)
  rw [parseDecimal, hstrip, hfilter, hsign]
  dsimp only
  rw [htake, hdrop, if_neg hpoint, if_neg (by simp)]

/-- Digits as `str` writes the payload of a NaN. -/
def IsPayload (ds : List Nat) : Prop := (∀ d ∈ ds, d < 10) ∧ ds.dropWhile (· = 0) = ds

theorem exists_payload (digits : PyStr) : ∃ ds, IsPayload ds ∧ payload digits = ds.map digitChar := by
  refine ⟨_, ⟨fun d hd => ?_, List.dropWhile_idempotent _ _⟩, rfl⟩
  obtain ⟨c, -, hc⟩ := List.mem_filterMap.mp ((List.dropWhile_suffix _).subset hd)
  exact decimalValue_lt hc

section Payload

variable {ds : List Nat}

theorem IsPayload.payload_eq (h : IsPayload ds) : payload (ds.map digitChar) = ds.map digitChar := by
  rw [payload, filterMap_decimalValue h.1, h.2]

theorem all_isDigit (ds : List Nat) : (ds.map digitChar).all isDigit = true := by
  rw [List.all_eq_true]
  intro c hc
  obtain ⟨d, -, rfl⟩ := List.mem_map.mp hc
  exact isDigit_digitChar d

theorem asciiLower_digits (ds : List Nat) : asciiLower (ds.map digitChar) = ds.map digitChar := by
  rw [asciiLower]
  conv_rhs => rw [← List.map_id (ds.map digitChar)]
  refine List.map_congr_left fun c hc => ?_
  obtain ⟨d, -, rfl⟩ := List.mem_map.mp hc
  have hval := digitChar_val d
  exact dif_neg (by omega)

theorem plain_digits (ds : List Nat) : ∀ c ∈ ds.map digitChar, isSpace c = false ∧ c ≠ ch '_' := by
  intro c hc
  obtain ⟨d, -, rfl⟩ := List.mem_map.mp hc
  exact ⟨isSpace_digitChar d, digitChar_ne (by decide) d⟩

end Payload

theorem plain_append {s t : PyStr} (hs : ∀ c ∈ s, isSpace c = false ∧ c ≠ ch '_')
    (ht : ∀ c ∈ t, isSpace c = false ∧ c ≠ ch '_') : ∀ c ∈ s ++ t, isSpace c = false ∧ c ≠ ch '_' :=
  List.forall_mem_append.mpr ⟨hs, ht⟩

def isLetter (c : PyChar) : Bool := 65 ≤ c.val && c.val ≤ 90 || 97 ≤ c.val && c.val ≤ 122

theorem plain_letters {s : PyStr} (h : s.all isLetter = true) :
    ∀ c ∈ s, isSpace c = false ∧ c ≠ ch '_' := by
  intro c hc
  have hletter := List.all_eq_true.mp h c hc
  have hval : 65 ≤ c.val ∧ c.val ≤ 90 ∨ 97 ≤ c.val ∧ c.val ≤ 122 := by
    simpa [isLetter] using hletter
  constructor
  · simp only [isSpace, Bool.or_eq_false_iff, Bool.and_eq_false_iff, decide_eq_false_iff_not]
    omega
  · rintro rfl
    exact absurd hval (by decide)

theorem asciiLower_append (s t : PyStr) : asciiLower (s ++ t) = asciiLower s ++ asciiLower t :=
  List.map_append

theorem parseDecimal_nan (sign : Bool) {ds : List Nat} (h : IsPayload ds) :
    parseDecimal ((if sign then [ch '-'] else []) ++ py "NaN" ++ ds.map digitChar) =
      .ok (.special ((if sign then [ch '-'] else []) ++ py "NaN" ++ ds.map digitChar)) := by
  have hlower : asciiLower (ch 'N' :: (py "aN" ++ ds.map digitChar)) = py "nan" ++ ds.map digitChar := by
    have happend := asciiLower_append (py "NaN") (ds.map digitChar)
    rw [asciiLower_digits] at happend
    exact happend
  have hnone : ¬ (py "nan" ++ ds.map digitChar = py "inf" ∨
      py "nan" ++ ds.map digitChar = py "infinity") := by
    rintro (h | h) <;> cases h
  have hname := @parseDecimal_name sign (ch 'N') (py "aN" ++ ds.map digitChar)
    (plain_append (s := py "NaN") (plain_letters rfl) (plain_digits ds)) (by decide)
  have hnan : (py "nan" ++ ds.map digitChar).take 3 = py "nan" ∧
      ((py "nan" ++ ds.map digitChar).drop 3).all isDigit = true := ⟨rfl, all_isDigit ds⟩
  have hdrop : (py "nan" ++ ds.map digitChar).drop 3 = ds.map digitChar := rfl
  rw [hlower] at hname
  dsimp only at hname
  rw [if_neg hnone, if_pos hnan, hdrop, h.payload_eq] at hname
  rw [List.append_assoc] at hname ⊢
  exact hname

theorem parseDecimal_snan (sign : Bool) {ds : List Nat} (h : IsPayload ds) :
    parseDecimal ((if sign then [ch '-'] else []) ++ py "sNaN" ++ ds.map digitChar) =
      .ok (.special ((if sign then [ch '-'] else []) ++ py "sNaN" ++ ds.map digitChar)) := by
  have hlower : asciiLower (ch 's' :: (py "NaN" ++ ds.map digitChar)) =
      py "snan" ++ ds.map digitChar := by
    have happend := asciiLower_append (py "sNaN") (ds.map digitChar)
    rw [asciiLower_digits] at happend
    exact happend
  have hnone : ¬ (py "snan" ++ ds.map digitChar = py "inf" ∨
      py "snan" ++ ds.map digitChar = py "infinity") := by
    rintro (h | h) <;> cases h
  have hnan : ¬ ((py "snan" ++ ds.map digitChar).take 3 = py "nan" ∧
      ((py "snan" ++ ds.map digitChar).drop 3).all isDigit = true) := by
    rintro ⟨h, -⟩
    cases h
  have hname := @parseDecimal_name sign (ch 's') (py "NaN" ++ ds.map digitChar)
    (plain_append (s := py "sNaN") (plain_letters rfl) (plain_digits ds)) (by decide)
  have hsnan : (py "snan" ++ ds.map digitChar).take 4 = py "snan" ∧
      ((py "snan" ++ ds.map digitChar).drop 4).all isDigit = true := ⟨rfl, all_isDigit ds⟩
  have hdrop : (py "snan" ++ ds.map digitChar).drop 4 = ds.map digitChar := rfl
  rw [hlower] at hname
  dsimp only at hname
  rw [if_neg hnone, if_neg hnan, if_pos hsnan, hdrop, h.payload_eq] at hname
  rw [List.append_assoc] at hname ⊢
  exact hname

/-- **An infinity or a NaN is read as itself.** -/
theorem parseDecimal_special {s text : PyStr} (h : parseDecimal s = .ok (.special text)) :
    parseDecimal text = .ok (.special text) := by
  unfold parseDecimal at h
  extract_lets signed whole rest point frac exponent name mark at h
  by_cases hdigits : whole ≠ [] ∨ frac ≠ []
  · rw [if_pos hdigits] at h
    obtain ⟨e, -, he⟩ := bind_eq_ok.mp h
    rw [make] at he
    split at he <;> cases he
  · rw [if_neg hdigits] at h
    by_cases hinf : name = py "inf" ∨ name = py "infinity"
    · rw [if_pos hinf] at h
      cases h
      exact @parseDecimal_name signed.1 (ch 'I') (py "nfinity") (plain_letters rfl) (by decide)
    · rw [if_neg hinf] at h
      by_cases hnan : name.take 3 = py "nan" ∧ (name.drop 3).all isDigit = true
      · rw [if_pos hnan] at h
        obtain ⟨ds, hds, hpayload⟩ := exists_payload (name.drop 3)
        rw [hpayload] at h
        cases h
        exact parseDecimal_nan signed.1 hds
      · rw [if_neg hnan] at h
        by_cases hsnan : name.take 4 = py "snan" ∧ (name.drop 4).all isDigit = true
        · rw [if_pos hsnan] at h
          obtain ⟨ds, hds, hpayload⟩ := exists_payload (name.drop 4)
          rw [hpayload] at h
          cases h
          exact parseDecimal_snan signed.1 hds
        · rw [if_neg hsnan] at h
          cases h

/-- A `Decimal` that `Decimal` reads from its text; the finite ones are. -/
def Named (d : PyDecimal) : Prop := ∀ text, d = .special text → parseDecimal text = .ok d

theorem Named.parse {d : PyDecimal} (hd : d.Named) : parseDecimal d.str = .ok d := by
  cases d with
  | finite sign coefficient exponent hrange => exact parseDecimal_str sign coefficient exponent
  | special text => exact hd text rfl

/-- **Decimals that are read have a text each.** -/
theorem Named.str_inj {d e : PyDecimal} (hd : d.Named) (he : e.Named) (h : d.str = e.str) : d = e := by
  have hparsed := hd.parse
  rw [h, he.parse] at hparsed
  exact (Except.ok.inj hparsed).symm

theorem Named.str_ne_nil {d : PyDecimal} (hd : d.Named) : d.str ≠ [] := by
  intro hnil
  have hparsed := hd.parse
  rw [hnil] at hparsed
  cases hparsed

end PyDecimal

/-! ### Cells -/

/-- The infinities and NaNs that `Decimal` makes of other arguments have the names it reads. -/
def Builtins.NamesSpecials (lib : Builtins) : Prop :=
  ∀ raw d, lib.decimal raw = .ok d → d.Named

theorem named_decimalOf {lib : Builtins} (hlib : lib.NamesSpecials) {raw : Json} {d : PyDecimal}
    (h : decimalOf lib raw = .ok d) : d.Named := by
  cases raw with
  | str s =>
    rintro text rfl
    exact PyDecimal.parseDecimal_special h
  | _ => exact hlib _ d h

namespace ColumnMeta

/-- The values that a column has, `None` apart. -/
def Has (column : ColumnMeta) (value : Value) : Prop :=
  match column.kind with
  | .fixed => (isNoneOrZero column.scale = true ∧ ∃ n, value = .int n) ∨
      (isNoneOrZero column.scale = false ∧ ∃ d : PyDecimal, d.Named ∧ value = .decimal d)
  | .real => ∃ x, value = .float x
  | .boolean => ∃ b, value = .bool b
  | .binary => ∃ b, value = .bytes b
  | .date => ∃ d, value = .date d
  | .time => ∃ t, value = .time t
  | .timestampNtz => ∃ d, value = .naive d
  | .timestampLtz | .timestampTz => ∃ d, value = .aware d
  | .text | .variant | .unknown => ∃ j, value = .ofJson j

variable {column : ColumnMeta}

theorem has_of_coerceValue {lib : Builtins} (hlib : lib.NamesSpecials) {raw : Json} {value : Value}
    (h : coerceValue lib raw column = .ok value) : value = .none ∨ column.Has value := by
  by_cases hnull : raw = .null
  · subst hnull
    cases h
    exact .inl rfl
  · right
    rw [coerceValue.eq_2 lib raw column hnull] at h
    rw [Has]
    cases hkind : column.kind <;> rw [hkind] at h <;> dsimp only
    case fixed =>
      change decodeFixed lib raw column.scale = .ok value at h
      rw [decodeFixed] at h
      by_cases hscale : isNoneOrZero column.scale = true
      · rw [if_pos hscale] at h
        obtain ⟨n, -, rfl⟩ := map_eq_ok.mp h
        exact .inl ⟨hscale, n, rfl⟩
      · rw [if_neg hscale] at h
        obtain ⟨d, hd, rfl⟩ := map_eq_ok.mp h
        exact .inr ⟨Bool.not_eq_true _ ▸ hscale, d, named_decimalOf hlib hd, rfl⟩
    case real | binary | date | variant =>
      obtain ⟨x, -, rfl⟩ := map_eq_ok.mp h
      exact ⟨x, rfl⟩
    case text | unknown =>
      cases h
      exact ⟨raw, rfl⟩
    case boolean =>
      cases h
      exact ⟨_, rfl⟩
    case time | timestampNtz | timestampLtz | timestampTz =>
      obtain ⟨s, -, h⟩ := bind_eq_ok.mp h
      obtain ⟨d, -, h⟩ := bind_eq_ok.mp h
      cases h
      exact ⟨d, rfl⟩

end ColumnMeta

theorem exportImage_ofJson {j image : Json} (h : exportImage (.ofJson j) = .ok image) : image = j := by
  cases j <;> cases h <;> rfl

theorem hexText_injective : Function.Injective hexText := by
  intro b c h
  have hread := congrArg fromHex h
  rw [Testing.fromHex_hexText, Testing.fromHex_hexText] at hread
  exact Option.some.inj hread

namespace ColumnMeta

variable {column : ColumnMeta} {v w : Value} {image : Json}

/-- Only `None` is written as `null`. -/
theorem Has.none_of_null (h : column.Has v) (himage : exportImage v = .ok .null) : v = .none := by
  rw [Has] at h
  cases hkind : column.kind <;> rw [hkind] at h <;> dsimp only at h
  case fixed => rcases h with ⟨-, n, rfl⟩ | ⟨-, d, -, rfl⟩ <;> cases himage
  case text | variant | unknown =>
    obtain ⟨j, rfl⟩ := h
    rw [← exportImage_ofJson himage]
    rfl
  all_goals
    obtain ⟨x, rfl⟩ := h
    cases himage

/-- **Under its column a value has a JSON form of its own.** -/
theorem Has.inj (hv : column.Has v) (hw : column.Has w) (hvi : exportImage v = .ok image)
    (hwi : exportImage w = .ok image) : v = w := by
  have himage := hvi.trans hwi.symm
  rw [Has] at hv hw
  cases hkind : column.kind <;> rw [hkind] at hv hw <;> dsimp only at hv hw
  case fixed =>
    rcases hv with ⟨hscale, m, rfl⟩ | ⟨hscale, d, hd, rfl⟩ <;>
      rcases hw with ⟨hscale', n, rfl⟩ | ⟨hscale', e, he, rfl⟩
    · cases himage
      rfl
    · rw [hscale] at hscale'
      cases hscale'
    · rw [hscale] at hscale'
      cases hscale'
    · rw [hd.str_inj he (Json.str.inj (Except.ok.inj himage))]
  case text | variant | unknown =>
    obtain ⟨j, rfl⟩ := hv
    obtain ⟨k, rfl⟩ := hw
    rw [← exportImage_ofJson hvi, ← exportImage_ofJson hwi]
  all_goals
    obtain ⟨x, rfl⟩ := hv
    obtain ⟨y, rfl⟩ := hw
  case real | boolean =>
    cases himage
    rfl
  case binary => rw [hexText_injective (Json.str.inj (Except.ok.inj himage))]
  case date => rw [PyDate.isoformat_injective (Json.str.inj (Except.ok.inj himage))]
  case time => rw [PyTime.isoformat_injective (Json.str.inj (Except.ok.inj himage))]
  case timestampNtz => rw [Naive.isoformat_injective (Json.str.inj (Except.ok.inj himage))]
  case timestampLtz | timestampTz =>
    rw [Aware.isoformat_injective (Json.str.inj (Except.ok.inj himage))]

/-- With `None`. -/
theorem eq_of_image (hv : v = .none ∨ column.Has v) (hw : w = .none ∨ column.Has w)
    (hvi : exportImage v = .ok image) (hwi : exportImage w = .ok image) : v = w := by
  rcases hv with rfl | hv <;> rcases hw with rfl | hw
  · rfl
  · cases hvi
    exact (hw.none_of_null hwi).symm
  · cases hwi
    exact hv.none_of_null hvi
  · exact hv.inj hw hvi hwi

end ColumnMeta

/-! ### Fields -/

theorem PyFloat.Reads.inj {float : PyStr → PyFloat} {x y : PyFloat} (hx : x.Reads float)
    (hy : y.Reads float) (h : x.repr = y.repr) : x = y := by
  have hword : ∀ z ∈ [nan, infinity, negInfinity], ¬ IsFloatText z.repr := by
    intro z hz hfloat
    have hscan := @scanNumber_float float _ hfloat [] delimited_nil
    rw [List.append_nil] at hscan
    simp only [List.mem_cons, List.not_mem_nil, or_false] at hz
    rcases hz with rfl | rfl | rfl <;> cases hscan
  rw [Reads] at hx hy
  by_cases hfinite : x.isFinite = true
  · rw [if_pos hfinite] at hx
    by_cases hfinite' : y.isFinite = true
    · rw [if_pos hfinite'] at hy
      rw [← hx.2, ← hy.2, h]
    · rw [if_neg hfinite'] at hy
      exact absurd (h ▸ hx.1) (hword y hy)
  · rw [if_neg hfinite] at hx
    by_cases hfinite' : y.isFinite = true
    · rw [if_pos hfinite'] at hy
      exact absurd (h ▸ hy.1) (hword x hx)
    · rw [if_neg hfinite'] at hy
      simp only [List.mem_cons, List.not_mem_nil, or_false] at hx hy
      rcases hx with rfl | rfl | rfl <;> rcases hy with rfl | rfl | rfl <;> first | rfl | cases h

/-- A cell that is written as nothing: `None`, the empty text and no bytes. -/
def Value.Blank (v : Value) : Prop := v = .none ∨ v = .str [] ∨ v = .bytes []

/-- The field that a value is written as. -/
def csvText (str : Value → Except Exc PyStr) (v : Value) : Except Exc PyStr := csvValue v >>= csvField str

section Fields

variable {str : Value → Except Exc PyStr} {float : PyStr → PyFloat} {column : ColumnMeta}
  {v w : Value} {field : PyStr}

/-- A value of a column that CSV tells from the others: in a text column a text, in no column a
container. -/
structure ColumnMeta.Writes (float : PyStr → PyFloat) (column : ColumnMeta) (v : Value) : Prop where
  has : column.Has v
  typed : column.kind ≠ .variant
  text : column.kind = .text ∨ column.kind = .unknown → ∃ s, v = .str s
  float : ∀ x, v = .float x → x.Reads float

theorem isoformat_ne_nil (d : PyDate) (rest : PyStr) : d.isoformat ++ rest ≠ [] := by
  intro hnil
  rw [PyDate.isoformat, List.append_assoc, List.append_assoc, List.append_assoc] at hnil
  exact absurd (List.append_eq_nil_iff.mp (List.append_eq_nil_iff.mp hnil).2).1 (List.cons_ne_nil _ _)

theorem PyFloat.Reads.repr_ne_nil {x : PyFloat} (h : x.Reads float) : x.repr ≠ [] := by
  intro hnil
  rw [Reads] at h
  by_cases hfinite : x.isFinite = true
  · rw [if_pos hfinite, hnil] at h
    have hscan := @scanNumber_float float _ h.1 [] delimited_nil
    cases hscan
  · rw [if_neg hfinite] at h
    simp only [List.mem_cons, List.not_mem_nil, or_false] at h
    rcases h with rfl | rfl | rfl <;> cases hnil

/-- **Only a blank value is written as nothing.** -/
theorem ColumnMeta.Writes.blank (h : column.Writes float v) (htext : csvText str v = .ok []) :
    v.Blank := by
  have hhas := h.has
  rw [Has] at hhas
  cases hkind : column.kind <;> rw [hkind] at hhas <;> dsimp only at hhas
  case variant => exact absurd hkind h.typed
  case text =>
    obtain ⟨s, rfl⟩ := h.text (.inl hkind)
    cases htext
    exact .inr (.inl rfl)
  case unknown =>
    obtain ⟨s, rfl⟩ := h.text (.inr hkind)
    cases htext
    exact .inr (.inl rfl)
  case fixed =>
    rcases hhas with ⟨-, n, rfl⟩ | ⟨-, d, hd, rfl⟩
    · obtain ⟨-, hnil⟩ := intStr_eq_ok.mp htext
      exact absurd hnil.symm (strInt_ne_nil n)
    · exact absurd (Except.ok.inj htext) hd.str_ne_nil
  case boolean =>
    obtain ⟨b, rfl⟩ := hhas
    cases b <;> cases htext
  case real =>
    obtain ⟨x, rfl⟩ := hhas
    exact absurd (Except.ok.inj htext) (h.float x rfl).repr_ne_nil
  case binary =>
    obtain ⟨b, rfl⟩ := hhas
    have hnil : hexText b = hexText [] := Except.ok.inj htext
    rw [hexText_injective hnil]
    exact .inr (.inr rfl)
  case date =>
    obtain ⟨d, rfl⟩ := hhas
    have hnil : d.isoformat = [] := Except.ok.inj htext
    exact absurd (by rw [hnil, List.append_nil]) (isoformat_ne_nil d [])
  case time =>
    obtain ⟨t, rfl⟩ := hhas
    have hnil : t.isoformat = [] := Except.ok.inj htext
    have hcolon : ch ':' ∈ t.isoformat := by simp [PyTime.isoformat, clockText]
    rw [hnil] at hcolon
    cases hcolon
  case timestampNtz =>
    obtain ⟨d, rfl⟩ := hhas
    have hnil : d.isoformat = [] := Except.ok.inj htext
    rw [Naive.isoformat, List.append_assoc] at hnil
    exact absurd hnil (isoformat_ne_nil _ _)
  case timestampLtz | timestampTz =>
    obtain ⟨d, rfl⟩ := hhas
    have hnil : d.isoformat = [] := Except.ok.inj htext
    rw [Aware.isoformat, Naive.isoformat, List.append_assoc, List.append_assoc] at hnil
    exact absurd hnil (isoformat_ne_nil _ _)

/-- **Under its column a value has a field of its own.** -/
theorem ColumnMeta.Writes.inj (hv : column.Writes float v) (hw : column.Writes float w)
    (hvt : csvText str v = .ok field) (hwt : csvText str w = .ok field) : v = w := by
  have htext := hvt.trans hwt.symm
  have hvHas := hv.has
  have hwHas := hw.has
  rw [Has] at hvHas hwHas
  cases hkind : column.kind <;> rw [hkind] at hvHas hwHas <;> dsimp only at hvHas hwHas
  case variant => exact absurd hkind hv.typed
  case text =>
    obtain ⟨s, rfl⟩ := hv.text (.inl hkind)
    obtain ⟨t, rfl⟩ := hw.text (.inl hkind)
    cases htext
    rfl
  case unknown =>
    obtain ⟨s, rfl⟩ := hv.text (.inr hkind)
    obtain ⟨t, rfl⟩ := hw.text (.inr hkind)
    cases htext
    rfl
  case fixed =>
    rcases hvHas with ⟨hscale, m, rfl⟩ | ⟨hscale, d, hd, rfl⟩ <;>
      rcases hwHas with ⟨hscale', n, rfl⟩ | ⟨hscale', e, he, rfl⟩
    · obtain ⟨-, hm⟩ := intStr_eq_ok.mp hvt
      obtain ⟨-, hn⟩ := intStr_eq_ok.mp hwt
      rw [strInt_injective (hm.symm.trans hn)]
    · rw [hscale] at hscale'
      cases hscale'
    · rw [hscale] at hscale'
      cases hscale'
    · rw [hd.str_inj he (Except.ok.inj htext)]
  case boolean =>
    obtain ⟨b, rfl⟩ := hvHas
    obtain ⟨c, rfl⟩ := hwHas
    cases b <;> cases c <;> first | rfl | cases htext
  case real =>
    obtain ⟨x, rfl⟩ := hvHas
    obtain ⟨y, rfl⟩ := hwHas
    rw [(hv.float x rfl).inj (hw.float y rfl) (Except.ok.inj htext)]
  all_goals
    obtain ⟨x, rfl⟩ := hvHas
    obtain ⟨y, rfl⟩ := hwHas
  case binary => rw [hexText_injective (Except.ok.inj htext)]
  case date => rw [PyDate.isoformat_injective (Except.ok.inj htext)]
  case time => rw [PyTime.isoformat_injective (Except.ok.inj htext)]
  case timestampNtz => rw [Naive.isoformat_injective (Except.ok.inj htext)]
  case timestampLtz | timestampTz => rw [Aware.isoformat_injective (Except.ok.inj htext)]

/-- With `None`. -/
theorem ColumnMeta.same_of_text (hv : v = .none ∨ column.Writes float v)
    (hw : w = .none ∨ column.Writes float w) (hvt : csvText str v = .ok field)
    (hwt : csvText str w = .ok field) : v = w ∨ v.Blank ∧ w.Blank := by
  rcases hv with rfl | hv <;> rcases hw with rfl | hw
  · exact .inl rfl
  · cases hvt
    exact .inr ⟨.inl rfl, hw.blank hwt⟩
  · cases hwt
    exact .inr ⟨hv.blank hvt, .inl rfl⟩
  · exact .inl (hv.inj hw hvt hwt)

end Fields

/-! ### Rows -/

/-- A row of a result: under each column a value that the column has, or `None`. -/
def Row.Fits (columns : List ColumnMeta) (names : List PyStr) (row : Row) : Prop :=
  row.map Prod.fst = names.map .str ∧
    List.Forall₂ (fun (column : ColumnMeta) (entry : Key × Value) =>
      entry.2 = .none ∨ column.Has entry.2) columns row

theorem fits_of_coerceRow {lib : Builtins} (hlib : lib.NamesSpecials) {columns : List ColumnMeta}
    {names : List PyStr} (hnodup : names.Nodup) (hnames : columns.map ColumnMeta.name = names.map .str)
    (hkeys : columns.mapM (fun c => c.name.key?) = some (names.map .str)) {raw : Json} {row : Row}
    (h : coerceRow lib raw columns = .ok row) : row.Fits columns names := by
  have hdistinct : (names.map Key.str).Nodup := hnodup.map fun s t hst => Key.str.inj hst
  refine ⟨coerceRow_keys hkeys hdistinct h, ?_⟩
  cases raw with
  | arr cells =>
    rw [coerceRow] at h
    by_cases hlength : cells.length = columns.length
    · rw [if_pos hlength] at h
      have hstart : (([] : Row).map Prod.fst ++ names.map Key.str).Nodup := hdistinct
      obtain ⟨values, hvalues, hrow⟩ := (Testing.coerceCells_eq_ok lib hlength hkeys hstart).mp h
      rw [List.nil_append] at hrow
      subst hrow
      have hall := mapM_eq_ok.mp hvalues
      have hzip := hall.length_eq
      have hcolumns := congrArg List.length hnames
      rw [List.length_map, List.length_map] at hcolumns
      rw [List.length_zip] at hzip
      refine List.forall₂_iff_get.mpr ⟨?_, fun i hi hi' => ?_⟩
      · rw [List.length_zip, List.length_map]
        omega
      · have hcell := hall.get (i := i) (by rw [List.length_zip]; omega) (by omega)
        rw [List.get_eq_getElem, List.get_eq_getElem, List.getElem_zip] at hcell
        rw [List.get_eq_getElem, List.get_eq_getElem, List.getElem_zip]
        exact ColumnMeta.has_of_coerceValue hlib hcell
    · rw [if_neg hlength] at h
      cases h
  | _ => cases h

/-- The cells of the object of a row, in order. -/
theorem image_of_rowObject {names : List PyStr} (hnodup : names.Nodup) {row : Row} {object : Dict}
    (hkeys : row.map Prod.fst = names.map .str) (h : rowObject names row = .ok object) :
    List.Forall₂ (fun entry kv => exportImage entry.2 = .ok kv.2) row object := by
  have hall := mapM_eq_ok.mp h
  have hrow : (row.map Prod.fst).Nodup := by
    rw [hkeys]
    exact hnodup.map fun s t hst => Key.str.inj hst
  have hlength := congrArg List.length hkeys
  rw [List.length_map, List.length_map] at hlength
  refine List.forall₂_iff_get.mpr ⟨hlength.trans hall.length_eq, fun i hi hi' => ?_⟩
  have hi'' : i < names.length := hlength ▸ hi
  have hcell := hall.get (i := i) hi'' hi'
  rw [List.get_eq_getElem, List.get_eq_getElem] at hcell ⊢
  have hkey : row[i].1 = .str names[i] := by
    have hget := List.getElem_of_eq hkeys (by rwa [List.length_map])
    rwa [List.getElem_map, List.getElem_map] at hget
  obtain ⟨value, hvalue, hrest⟩ := bind_eq_ok.mp hcell
  obtain ⟨image, himage, hpair⟩ := bind_eq_ok.mp hrest
  rw [cell_str, ← hkey, lookup_of_nodup hrow (List.getElem_mem hi), Option.elim_some] at hvalue
  rw [Except.ok.inj hvalue, himage, ← Except.ok.inj hpair]

/-- **Under the columns a row has an object of its own.** -/
theorem row_eq_of_rowObject {columns : List ColumnMeta} {names : List PyStr} (hnodup : names.Nodup)
    {row row' : Row} (hrow : row.Fits columns names) (hrow' : row'.Fits columns names) {object : Dict}
    (h : rowObject names row = .ok object) (h' : rowObject names row' = .ok object) : row = row' := by
  have himages := image_of_rowObject hnodup hrow.1 h
  have himages' := image_of_rowObject hnodup hrow'.1 h'
  have hlength : row.length = row'.length := himages.length_eq.trans himages'.length_eq.symm
  refine List.ext_getElem hlength fun i hi hi' => Prod.ext ?_ ?_
  · have hget := List.getElem_of_eq (hrow.1.trans hrow'.1.symm) (by rwa [List.length_map])
    rwa [List.getElem_map, List.getElem_map] at hget
  · have hobject : i < object.length := himages.length_eq ▸ hi
    have hcolumn : i < columns.length := hrow.2.length_eq.symm ▸ hi
    exact ColumnMeta.eq_of_image (hrow.2.get hcolumn hi) (hrow'.2.get hcolumn hi')
      (himages.get hi hobject) (himages'.get hi' hobject)

/-- Rows with the same objects. -/
theorem rows_eq_of_objects {columns : List ColumnMeta} {names : List PyStr} (hnodup : names.Nodup)
    {rows rows' : List Row} (hrows : ∀ row ∈ rows, row.Fits columns names)
    (hrows' : ∀ row ∈ rows', row.Fits columns names) {objects : List Dict}
    (h : rows.mapM (rowObject names) = .ok objects) (h' : rows'.mapM (rowObject names) = .ok objects) :
    rows = rows' := by
  have hall := mapM_eq_ok.mp h
  have hall' := mapM_eq_ok.mp h'
  have hlength : rows.length = rows'.length := hall.length_eq.trans hall'.length_eq.symm
  refine List.ext_getElem hlength fun i hi hi' => ?_
  have hobject : i < objects.length := hall.length_eq ▸ hi
  exact row_eq_of_rowObject hnodup (hrows _ (List.getElem_mem hi)) (hrows' _ (List.getElem_mem hi'))
    (hall.get hi hobject) (hall'.get hi' hobject)

/-! ### Rows of fields -/

/-- Rows that CSV does not tell apart: under each name the same value, or two that are written as
nothing. -/
def Row.Same (row row' : Row) : Prop :=
  List.Forall₂ (fun entry entry' => entry.1 = entry'.1 ∧
    (entry.2 = entry'.2 ∨ entry.2.Blank ∧ entry'.2.Blank)) row row'

/-- A row whose text columns have text, and whose floats have a `repr` each. -/
structure Row.Plain (float : PyStr → PyFloat) (columns : List ColumnMeta) (row : Row) : Prop where
  text : List.Forall₂ (fun (column : ColumnMeta) (entry : Key × Value) =>
    column.kind = .text ∨ column.kind = .unknown → entry.2 = .none ∨ ∃ s, entry.2 = .str s) columns row
  float : ∀ entry ∈ row, ∀ x, entry.2 = .float x → x.Reads float

section Fields

variable {str : Value → Except Exc PyStr} {float : PyStr → PyFloat} {columns : List ColumnMeta}
  {names : List PyStr}

/-- The fields of a row, in order. -/
theorem text_of_csvFields (hnodup : names.Nodup) (hnames : columns.map ColumnMeta.name = names.map .str)
    {row : Row} {fields : List PyStr} (hkeys : row.map Prod.fst = names.map .str)
    (h : csvFields str columns row = .ok fields) :
    List.Forall₂ (fun entry field => csvText str entry.2 = .ok field) row fields := by
  obtain ⟨values, hvalues, hfields⟩ := bind_eq_ok.mp h
  have hall := mapM_eq_ok.mp hvalues
  have hall' := mapM_eq_ok.mp hfields
  have hrow : (row.map Prod.fst).Nodup := by
    rw [hkeys]
    exact hnodup.map fun s t hst => Key.str.inj hst
  have hlength := congrArg List.length hkeys
  have hcolumns := congrArg List.length hnames
  rw [List.length_map, List.length_map] at hlength hcolumns
  have hvaluesLength := hall.length_eq
  have hfieldsLength := hall'.length_eq
  refine List.forall₂_iff_get.mpr ⟨by omega, fun i hi hi' => ?_⟩
  have hname : columns[i].name = .str names[i] := by
    have hget := List.getElem_of_eq hnames (i := i) (by rw [List.length_map]; omega)
    rwa [List.getElem_map, List.getElem_map] at hget
  have hkey : row[i].1 = .str names[i] := by
    have hget := List.getElem_of_eq hkeys (by rwa [List.length_map])
    rwa [List.getElem_map, List.getElem_map] at hget
  have hvalue := hall.get (i := i) (by omega) (by omega)
  have hfield := hall'.get (i := i) (by omega) hi'
  rw [List.get_eq_getElem, List.get_eq_getElem, hname, cell_str, ← hkey,
    lookup_of_nodup hrow (List.getElem_mem hi), Option.elim_some] at hvalue
  rw [csvText]
  exact bind_eq_ok.mpr ⟨_, hvalue, hfield⟩

theorem Row.Fits.writes {row : Row} (hfits : row.Fits columns names) (hplain : row.Plain float columns)
    (htyped : ∀ column ∈ columns, column.kind ≠ .variant) :
    List.Forall₂ (fun (column : ColumnMeta) (entry : Key × Value) =>
      entry.2 = .none ∨ column.Writes float entry.2) columns row := by
  refine List.forall₂_iff_get.mpr ⟨hfits.2.length_eq, fun i hi hi' => ?_⟩
  rcases hfits.2.get hi hi' with hnone | hhas
  · exact .inl hnone
  · by_cases hnone : row[i].2 = .none
    · exact .inl hnone
    · refine .inr ⟨hhas, htyped _ (List.getElem_mem hi), fun hkind => ?_, ?_⟩
      · exact (hplain.text.get hi hi' hkind).resolve_left hnone
      · exact hplain.float _ (List.getElem_mem hi')

/-- **Rows with the same fields are the same**, but for what is written as nothing. -/
theorem same_of_csvFields (hnodup : names.Nodup) (hnames : columns.map ColumnMeta.name = names.map .str)
    (htyped : ∀ column ∈ columns, column.kind ≠ .variant) {row row' : Row}
    (hrow : row.Fits columns names ∧ row.Plain float columns)
    (hrow' : row'.Fits columns names ∧ row'.Plain float columns) {fields : List PyStr}
    (h : csvFields str columns row = .ok fields) (h' : csvFields str columns row' = .ok fields) :
    row.Same row' := by
  have htexts := text_of_csvFields hnodup hnames hrow.1.1 h
  have htexts' := text_of_csvFields hnodup hnames hrow'.1.1 h'
  have hwrites := hrow.1.writes hrow.2 htyped
  have hwrites' := hrow'.1.writes hrow'.2 htyped
  refine List.forall₂_iff_get.mpr ⟨htexts.length_eq.trans htexts'.length_eq.symm, fun i hi hi' => ⟨?_, ?_⟩⟩
  · have hget := List.getElem_of_eq (hrow.1.1.trans hrow'.1.1.symm) (by rwa [List.length_map])
    rwa [List.getElem_map, List.getElem_map] at hget
  · have hfield : i < fields.length := htexts.length_eq ▸ hi
    have hcolumn : i < columns.length := hwrites.length_eq.symm ▸ hi
    exact ColumnMeta.same_of_text (hwrites.get hcolumn hi) (hwrites'.get hcolumn hi')
      (htexts.get hi hfield) (htexts'.get hi' hfield)

theorem rows_same_of_table (hnodup : names.Nodup) (hnames : columns.map ColumnMeta.name = names.map .str)
    (htyped : ∀ column ∈ columns, column.kind ≠ .variant) {rows rows' : List Row}
    (hrows : ∀ row ∈ rows, row.Fits columns names ∧ row.Plain float columns)
    (hrows' : ∀ row ∈ rows', row.Fits columns names ∧ row.Plain float columns)
    {table : List (List PyStr)} (h : rows.mapM (csvFields str columns) = .ok table)
    (h' : rows'.mapM (csvFields str columns) = .ok table) : List.Forall₂ Row.Same rows rows' := by
  have hall := mapM_eq_ok.mp h
  have hall' := mapM_eq_ok.mp h'
  refine List.forall₂_iff_get.mpr ⟨hall.length_eq.trans hall'.length_eq.symm, fun i hi hi' => ?_⟩
  have hfields : i < table.length := hall.length_eq ▸ hi
  exact same_of_csvFields hnodup hnames htyped (hrows _ (List.getElem_mem hi))
    (hrows' _ (List.getElem_mem hi')) (hall.get hi hfields) (hall'.get hi' hfields)

end Fields

/-! ### Two exports -/

/-- A statement that was submitted, and how its partitions are had. -/
structure Origin where
  lib : Builtins
  fetcher : Fetcher
  polled : Json → Except Exc StatementResponse
  response : StatementResponse

namespace Origin

variable (origin : Origin) (str : Value → Except Exc PyStr)

def query : Except Exc (List Row) :=
  SnowflakeSqlApi.query origin.lib origin.fetcher origin.polled origin.response

def exportJsonl : Export :=
  SnowflakeSqlApi.exportJsonl origin.lib origin.fetcher origin.polled origin.response

def exportCsv : Export :=
  SnowflakeSqlApi.exportCsv str origin.lib origin.fetcher origin.polled origin.response

/-- The rows there are, and the exceptions in place of those that cannot be had. -/
def rows (handle : Json) (body : Dict) (columns : List ColumnMeta) : List (Except Exc Row) :=
  rowResults origin.lib origin.fetcher handle body columns

/-- The result has these columns, under names of text. -/
structure HasColumns (columns : List ColumnMeta) (names : List PyStr) (handle : Json) (body : Dict) :
    Prop where
  prepared : prepareResult origin.polled origin.response = .ok (columns, handle, body)
  names : columns.map ColumnMeta.name = names.map .str
  specials : origin.lib.NamesSpecials

variable {origin} {str} {columns : List ColumnMeta} {names : List PyStr} {handle : Json} {body : Dict}

theorem HasColumns.keys (h : origin.HasColumns columns names handle body) :
    names.Nodup ∧ columns.mapM (fun c => c.name.key?) = some (names.map .str) := by
  obtain ⟨keys, hkeys, hdistinct⟩ := nodup_of_prepareResult h.prepared
  have hnames := keys_of_names h.names hkeys
  rw [hnames] at hkeys hdistinct
  exact ⟨hdistinct.of_map _, hkeys⟩

theorem HasColumns.fits (h : origin.HasColumns columns names handle body) {row : Row}
    (hrow : .ok row ∈ origin.rows handle body columns) : row.Fits columns names := by
  obtain ⟨raw, hraw⟩ := coerced_of_rowResults hrow
  exact fits_of_coerceRow h.specials h.keys.1 h.names h.keys.2 hraw

theorem HasColumns.header (h : origin.HasColumns columns names handle body) :
    columns.mapM (fun column => csvField str (.ofJson column.name)) = .ok names := by
  have hmap : columns.mapM (fun column => csvField str (.ofJson column.name)) =
      (columns.map ColumnMeta.name).mapM fun name => csvField str (.ofJson name) := by
    rw [List.mapM_map]
    rfl
  rw [hmap, h.names, List.mapM_map, mapM_eq_ok]
  exact List.forall₂_same.mpr fun name _ => rfl

end Origin

/-- The result whose second partition cannot be had. -/
def cutOrigin : Origin := ⟨sampleBuiltins, nullPartition, fun _ => .ok pagedResponse, pagedResponse⟩

/-- A result with the one row of the first partition. -/
def oneRowResponse : StatementResponse where
  statusCode := 200
  body :=
    [(py "statementHandle", .str (py "h")),
      (py "resultSetMetaData", .obj
        [(py "rowType", .arr [.obj [(py "name", .str (py "A")), (py "type", .str (py "text"))]]),
          (py "partitionInfo", .arr [.obj []])]),
      (py "data", .arr [.arr [.str (py "x")]])]

def oneRowOrigin : Origin :=
  ⟨sampleBuiltins, nullPartition, fun _ => .ok oneRowResponse, oneRowResponse⟩

def letterColumns : List ColumnMeta := [⟨.str (py "A"), some (py "text"), .null, .null, true⟩]

theorem hasColumns_cutOrigin :
    cutOrigin.HasColumns letterColumns [py "A"] (.str (py "h")) pagedResponse.body :=
  ⟨rfl, rfl, fun _ _ h => nomatch h⟩

theorem hasColumns_oneRowOrigin :
    oneRowOrigin.HasColumns letterColumns [py "A"] (.str (py "h")) oneRowResponse.body :=
  ⟨rfl, rfl, fun _ _ h => nomatch h⟩

theorem row_of_cutOrigin {row : Row}
    (h : .ok row ∈ cutOrigin.rows (.str (py "h")) pagedResponse.body letterColumns) :
    row = sampleRow (py "x") := by
  have hrows : ∃ e, cutOrigin.rows (.str (py "h")) pagedResponse.body letterColumns =
      [.ok (sampleRow (py "x")), .error e] := ⟨_, rfl⟩
  obtain ⟨e, he⟩ := hrows
  rw [he] at h
  simpa using h

theorem row_of_oneRowOrigin {row : Row}
    (h : .ok row ∈ oneRowOrigin.rows (.str (py "h")) oneRowResponse.body letterColumns) :
    row = sampleRow (py "x") := by
  have hrows : oneRowOrigin.rows (.str (py "h")) oneRowResponse.body letterColumns =
      [.ok (sampleRow (py "x"))] := rfl
  rw [hrows] at h
  simpa using h

theorem plain_sampleRow (float : PyStr → PyFloat) (text : PyStr) :
    (sampleRow text).Plain float letterColumns where
  text := .cons (fun _ => .inr ⟨text, rfl⟩) .nil
  float := by
    intro entry hentry x hx
    rw [List.mem_singleton.mp hentry] at hx
    cases hx

section Exports

variable {origin other : Origin} {float : PyStr → PyFloat} {columns : List ColumnMeta}
  {names : List PyStr} {handle handle' : Json} {body body' : Dict}

/-- **A JSON Lines export keeps everything**: two exports under the same columns that wrote the same
text wrote the same rows, whether they finished or failed. Where both finished, the two queries have
these rows. -/
theorem exportJsonl_determines (h : origin.HasColumns columns names handle body)
    (h' : other.HasColumns columns names handle' body')
    (hloads : ∀ row, .ok row ∈ origin.rows handle body columns → row.Loads float)
    (hloads' : ∀ row, .ok row ∈ other.rows handle' body' columns → row.Loads float)
    (hsame : origin.exportJsonl.written.flatten = other.exportJsonl.written.flatten) :
    ∃ rows,
      Ended (jsonlFormat.record columns) (origin.rows handle body columns) rows
        origin.exportJsonl.result ∧
      Ended (jsonlFormat.record columns) (other.rows handle' body' columns) rows
        other.exportJsonl.result ∧
      ∀ m n, origin.exportJsonl.result = .ok m → other.exportJsonl.result = .ok n →
        m = n ∧ origin.query = .ok rows ∧ other.query = .ok rows := by
  obtain ⟨rows, objects, hobjects, hread, hended⟩ := exportJsonl_rows h.prepared h.names hloads
  obtain ⟨rows', objects', hobjects', hread', hended'⟩ :=
    exportJsonl_rows h'.prepared h'.names hloads'
  have hlines : objects.map Json.obj = objects'.map Json.obj := by
    rw [Origin.exportJsonl, Origin.exportJsonl] at hsame
    rw [hsame, hread'] at hread
    exact (Option.some.inj hread).symm
  have hobjectsEq : objects = objects' :=
    List.map_injective_iff.mpr (fun _ _ => Json.obj.inj) hlines
  rw [← hobjectsEq] at hobjects'
  have hrows : rows = rows' := rows_eq_of_objects h.keys.1
    (fun row hrow => h.fits (hended.mem row hrow))
    (fun row hrow => h'.fits (hended'.mem row hrow)) hobjects hobjects'
  subst hrows
  refine ⟨rows, hended, hended', fun m n hm hn => ?_⟩
  obtain ⟨hcount, hquery⟩ := hended.query h.prepared hm
  obtain ⟨hcount', hquery'⟩ := hended'.query h'.prepared hn
  exact ⟨hcount.trans hcount'.symm, hquery, hquery'⟩

/-- The export that failed after its first row, and one that had no other. -/
theorem exportJsonl_determines_cut : ∃ rows,
    Ended (jsonlFormat.record letterColumns)
      (cutOrigin.rows (.str (py "h")) pagedResponse.body letterColumns) rows
      cutOrigin.exportJsonl.result ∧
    Ended (jsonlFormat.record letterColumns)
      (oneRowOrigin.rows (.str (py "h")) oneRowResponse.body letterColumns) rows
      oneRowOrigin.exportJsonl.result := by
  have hsame : cutOrigin.exportJsonl.written.flatten = oneRowOrigin.exportJsonl.written.flatten := rfl
  obtain ⟨rows, hended, hended', -⟩ := exportJsonl_determines
    hasColumns_cutOrigin hasColumns_oneRowOrigin
    (fun row hrow => row_of_cutOrigin hrow ▸ loads_sampleRow .nonFinite _)
    (fun row hrow => row_of_oneRowOrigin hrow ▸ loads_sampleRow _ _) hsame
  exact ⟨rows, hended, hended'⟩

/-- **A CSV export keeps everything but blanks**: two exports under the same columns that wrote the
same text wrote the same rows, up to `None`, the empty text and no bytes, which are all the empty
field. No column may be of a container type, since a text in one may look like a container. -/
theorem exportCsv_determines {str : Value → Except Exc PyStr}
    (h : origin.HasColumns columns names handle body)
    (h' : other.HasColumns columns names handle' body')
    (htyped : ∀ column ∈ columns, column.kind ≠ .variant)
    (hplain : ∀ row, .ok row ∈ origin.rows handle body columns → row.Plain float columns)
    (hplain' : ∀ row, .ok row ∈ other.rows handle' body' columns → row.Plain float columns)
    (hsame : (origin.exportCsv str).written.flatten = (other.exportCsv str).written.flatten) :
    ∃ rows rows', List.Forall₂ Row.Same rows rows' ∧
      Ended ((csvFormat str).record columns) (origin.rows handle body columns) rows
        (origin.exportCsv str).result ∧
      Ended ((csvFormat str).record columns) (other.rows handle' body' columns) rows'
        (other.exportCsv str).result ∧
      ∀ m n, (origin.exportCsv str).result = .ok m → (other.exportCsv str).result = .ok n →
        m = n ∧ origin.query = .ok rows ∧ other.query = .ok rows' := by
  obtain ⟨rows, table, htable, hread, hended⟩ :=
    @exportCsv_rows str origin.lib origin.fetcher _ _ _ _ _ _ h.prepared h.header
  obtain ⟨rows', table', htable', hread', hended'⟩ :=
    @exportCsv_rows str other.lib other.fetcher _ _ _ _ _ _ h'.prepared h'.header
  have hlines : names :: table = names :: table' := by
    rw [Origin.exportCsv, Origin.exportCsv] at hsame
    rw [← hread, ← hread', hsame]
  have htableEq : table = table' := (List.cons.inj hlines).2
  rw [← htableEq] at htable'
  have hall : List.Forall₂ Row.Same rows rows' := rows_same_of_table h.keys.1 h.names htyped
    (fun row hrow => ⟨h.fits (hended.mem row hrow), hplain row (hended.mem row hrow)⟩)
    (fun row hrow => ⟨h'.fits (hended'.mem row hrow), hplain' row (hended'.mem row hrow)⟩)
    htable htable'
  refine ⟨rows, rows', hall, hended, hended', fun m n hm hn => ?_⟩
  obtain ⟨hcount, hquery⟩ := hended.query h.prepared hm
  obtain ⟨hcount', hquery'⟩ := hended'.query h'.prepared hn
  exact ⟨hcount.trans (hall.length_eq.trans hcount'.symm), hquery, hquery'⟩

theorem exportCsv_determines_cut : ∃ rows rows', List.Forall₂ Row.Same rows rows' ∧
    Ended ((csvFormat fun _ => .ok []).record letterColumns)
      (cutOrigin.rows (.str (py "h")) pagedResponse.body letterColumns) rows
      (cutOrigin.exportCsv fun _ => .ok []).result ∧
    Ended ((csvFormat fun _ => .ok []).record letterColumns)
      (oneRowOrigin.rows (.str (py "h")) oneRowResponse.body letterColumns) rows'
      (oneRowOrigin.exportCsv fun _ => .ok []).result := by
  have hsame : (cutOrigin.exportCsv fun _ => .ok []).written.flatten =
      (oneRowOrigin.exportCsv fun _ => .ok []).written.flatten := rfl
  have htyped : ∀ column ∈ letterColumns, column.kind ≠ .variant := by
    intro column hcolumn
    rw [List.mem_singleton.mp hcolumn]
    decide
  obtain ⟨rows, rows', hall, hended, hended', -⟩ := exportCsv_determines
    hasColumns_cutOrigin hasColumns_oneRowOrigin htyped
    (fun row hrow => row_of_cutOrigin hrow ▸ plain_sampleRow .nonFinite _)
    (fun row hrow => row_of_oneRowOrigin hrow ▸ plain_sampleRow _ _) hsame
  exact ⟨rows, rows', hall, hended, hended'⟩

end Exports

end SnowflakeSqlApi
