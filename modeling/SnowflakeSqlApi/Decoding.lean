import SnowflakeSqlApi.Lib.Fallible
import SnowflakeSqlApi.Python.Numeral
import SnowflakeSqlApi.Types

/-!
# Timestamps of any precision

A timestamp cell is a numeral of seconds with any number of digits after the point.
`_split_seconds` keeps nine of them and `_nanos_to_micros` six of these; as the sign is
put back to both parts, a timestamp is its value truncated towards zero at the
microsecond (`splitSeconds_numeral`), on either side of the epoch.

`decode_truncates` is this for the three decoders, as far as `int` reads the whole part: they
agree on the instant, and decoding is monotone.
-/

namespace SnowflakeSqlApi

/-- The seconds a numeral stands for, in whole microseconds towards zero. -/
def Numeral.micros (n : Numeral) : Int := truncate (n.value * 1000000)

/-- The whole part has no more digits than `int` reads. -/
def Numeral.Short (n : Numeral) : Prop := n.whole.length ≤ intMaxStrDigits

/-! ### The parts of a numeral -/

theorem fractionNanos_digits {ds : List Nat} (h : ∀ d ∈ ds, d < 10) :
    fractionNanos (ds.map digitChar) =
      .ok (ofDigitList ds * 10 ^ 9 / 10 ^ ds.length : Nat) := by
  by_cases hnil : ds = []
  · rw [hnil]
    rfl
  · have hpad : py "000000000" = (List.replicate 9 0).map digitChar := by decide
    have hlt : ∀ d ∈ (ds ++ List.replicate 9 0).take 9, d < 10 := by
      intro d hd
      rcases List.mem_append.mp (List.mem_of_mem_take hd) with hd | hd
      · exact h d hd
      · rw [List.eq_of_mem_replicate hd]
        decide
    have hne : (ds ++ List.replicate 9 0).take 9 ≠ [] := by
      apply List.ne_nil_of_length_pos
      rw [List.length_take, List.length_append, List.length_replicate]
      omega
    have hfew : ((ds ++ List.replicate 9 0).take 9).length ≤ intMaxStrDigits :=
      (List.length_take_le _ _).trans (by decide)
    rw [fractionNanos, if_neg (by simpa using hnil), hpad, ← List.map_append, ← List.map_take,
      intOfText_eq_ok.mpr (parseInt_digits hlt hne hfew), ofDigitList_take h]

/-- Microseconds of either sign, from nanoseconds of that sign. -/
theorem nanosToMicros_sign (negative : Bool) (k : Nat) :
    nanosToMicros ((if negative then -1 else 1) * (k : Int)) =
      (if negative then -1 else 1) * ((k / 1000 : Nat) : Int) := by
  rw [nanosToMicros]
  cases negative with
  | true =>
    simp only [↓reduceIte]
    split <;> omega
  | false =>
    simp only [Bool.false_eq_true, ↓reduceIte]
    split <;> omega

namespace Numeral

variable (n : Numeral)

theorem parseInt_wholeText_of_short (h : n.Short) : parseInt n.wholeText =
    some ((if n.negative then -1 else 1) * (ofDigitList n.whole : Int)) := by
  rw [parseInt_wholeText]
  exact if_pos h

/-- Too many digits are refused, not read. -/
theorem intOfText_wholeText_long (h : ¬ n.Short) : intOfText n.wholeText = .error .tooManyDigits := by
  have hparse : parseInt n.wholeText = none := by
    rw [parseInt_wholeText]
    exact if_neg h
  rw [intOfText, intOf, hparse, readInt_wholeText]
  rfl

theorem splitSeconds_long (h : ¬ n.Short) : splitSeconds n.text = .error .tooManyDigits := by
  rw [splitSeconds, partition_text, n.intOfText_wholeText_long h]
  rfl

/-- The two parts, each with the sign. -/
theorem splitSeconds_text (h : n.Short) : splitSeconds n.text =
    .ok ((if n.negative then -1 else 1) * (ofDigitList n.whole : Int),
      (if n.negative then -1 else 1) *
        ((ofDigitList n.fracDigits * 10 ^ 9 / 10 ^ n.fracDigits.length : Nat) : Int)) := by
  have hwhole : intOfText (partition (ch '.') n.text).1 =
      .ok ((if n.negative then -1 else 1) * (ofDigitList n.whole : Int)) := by
    rw [partition_text]
    exact intOfText_eq_ok.mpr (n.parseInt_wholeText_of_short h)
  have hnanos : fractionNanos (partition (ch '.') n.text).2 =
      .ok (ofDigitList n.fracDigits * 10 ^ 9 / 10 ^ n.fracDigits.length : Nat) := by
    rw [partition_text]
    exact fractionNanos_digits n.fracDigits_lt
  have hsign : (if n.text.head? = some (ch '-') then
        -((ofDigitList n.fracDigits * 10 ^ 9 / 10 ^ n.fracDigits.length : Nat) : Int)
      else ((ofDigitList n.fracDigits * 10 ^ 9 / 10 ^ n.fracDigits.length : Nat) : Int)) =
      (if n.negative then -1 else 1) *
        ((ofDigitList n.fracDigits * 10 ^ 9 / 10 ^ n.fracDigits.length : Nat) : Int) := by
    simp only [n.head?_text]
    split
    · rw [neg_one_mul]
    · rw [one_mul]
  rw [splitSeconds_eq hwhole hnanos, hsign]

/-- **The two parts make up the truncated value.** -/
theorem splitSeconds_numeral (h : n.Short) : ∃ secs nanos, splitSeconds n.text = .ok (secs, nanos) ∧
    secs * microsPerSecond + nanosToMicros nanos = n.micros := by
  refine ⟨_, _, n.splitSeconds_text h, ?_⟩
  have hcut : ofDigitList n.fracDigits * 10 ^ 9 / 10 ^ n.fracDigits.length / 1000 =
      ofDigitList n.fracDigits * 10 ^ 6 / 10 ^ n.fracDigits.length := by
    rw [Nat.div_div_eq_div_mul, show (10 : Nat) ^ 9 = 10 ^ 6 * 1000 by rfl, ← Nat.mul_assoc,
      Nat.mul_div_mul_right _ _ (by decide)]
  have hmicros := n.truncate_scaled 6
  rw [show (10 : ℚ) ^ 6 = 1000000 by norm_num] at hmicros
  rw [nanosToMicros_sign, hcut, micros, hmicros, microsPerSecond]
  push_cast
  ring

/-! ### The decoders -/

theorem decodeTimestampNtz_text (h : n.Short) :
    decodeTimestampNtz n.text = TimeDelta.make n.micros >>= Naive.epoch.add := by
  obtain ⟨secs, nanos, hsplit, hmicros⟩ := n.splitSeconds_numeral h
  rw [decodeTimestampNtz, hsplit, ← hmicros]
  rfl

theorem decodeTimestampLtz_text (h : n.Short) :
    decodeTimestampLtz n.text = TimeDelta.make n.micros >>= Aware.epoch.add := by
  obtain ⟨secs, nanos, hsplit, hmicros⟩ := n.splitSeconds_numeral h
  rw [decodeTimestampLtz, hsplit, ← hmicros]
  rfl

theorem decodeTimestampTz_bare (h : n.Short) :
    decodeTimestampTz n.text = TimeDelta.make n.micros >>= Aware.epoch.add := by
  obtain ⟨secs, nanos, hsplit, hmicros⟩ := n.splitSeconds_numeral h
  have hspace : partition (ch ' ') n.text = (n.text, []) :=
    partition_of_notMem (n.notMem_text (by decide) (by decide) (by decide))
  rw [decodeTimestampTz, hspace]
  dsimp only
  rw [hsplit, ← hmicros]
  dsimp only [bind, Except.bind]
  rw [secondsDelta]
  cases TimeDelta.make (secs * microsPerSecond + nanosToMicros nanos) with
  | error e => rfl
  | ok delta =>
    dsimp only
    cases Aware.epoch.add delta with
    | error e => rfl
    | ok instant => rfl

/-- An offset moves the wall clock and keeps the instant. -/
theorem decodeTimestampTz_text (h : n.Short) {offset : PyStr} {minutes : Int}
    (hoffset : parseInt offset = some (minutes + 1440))
    (hvalid : -86400000000 < minutes * 60000000 ∧ minutes * 60000000 < 86400000000) :
    decodeTimestampTz (n.text ++ ch ' ' :: offset) =
      TimeDelta.make n.micros >>= Aware.epoch.add >>= fun instant =>
        instant.astimezone ⟨minutes * 60000000, hvalid⟩ := by
  obtain ⟨secs, nanos, hsplit, hmicros⟩ := n.splitSeconds_numeral h
  have hspace : partition (ch ' ') (n.text ++ ch ' ' :: offset) = (n.text, offset) :=
    partition_append _ (n.notMem_text (by decide) (by decide) (by decide))
  have hne : offset ≠ [] := by
    rintro rfl
    cases hoffset
  have hback : (minutes + 1440 - 1440) * 60000000 = minutes * 60000000 := by ring
  have hmake : TimeDelta.make (minutes * 60000000) = .ok (minutes * 60000000) :=
    TimeDelta.make_of_abs_le (by omega)
  rw [decodeTimestampTz, hspace]
  dsimp only
  rw [hsplit, ← hmicros]
  dsimp only [bind, Except.bind]
  rw [secondsDelta]
  cases TimeDelta.make (secs * microsPerSecond + nanosToMicros nanos) with
  | error e => rfl
  | ok delta =>
    dsimp only
    cases Aware.epoch.add delta with
    | error e => rfl
    | ok instant =>
      dsimp only
      rw [if_neg hne, intOfText_eq_ok.mpr hoffset]
      dsimp only
      rw [hback, hmake]
      dsimp only
      rw [timezone_of_valid hvalid]

end Numeral

/-! ### The instant -/

theorem TimeDelta.make_of_instant {instant : Naive} {m : Int}
    (h : instant.micros = Naive.epoch.micros + m) : TimeDelta.make m = .ok m := by
  have hvalid := instant.valid
  refine TimeDelta.make_of_abs_le ?_
  simp only [Naive.epoch] at h
  omega

theorem TimeDelta.eq_of_make {m delta : Int} (h : TimeDelta.make m = .ok delta) : delta = m := by
  rw [make] at h
  split at h
  · exact (Except.ok.inj h).symm
  · cases h

theorem Naive.add_micros {d e : Naive} {delta : Int} (h : d.add delta = .ok e) :
    e.micros = d.micros + delta := by
  rw [add] at h
  split at h
  · rw [← Except.ok.inj h]
  · cases h

theorem Aware.add_utc {d e : Aware} {delta : Int} (h : d.add delta = .ok e) :
    e.utc = d.utc + delta := by
  obtain ⟨wall, hwall, h⟩ := bind_eq_ok.mp h
  cases h
  have hmicros := Naive.add_micros hwall
  simp only [utc]
  omega

theorem Aware.astimezone_utc {d e : Aware}
    {offset : { o : Int // -86400000000 < o ∧ o < 86400000000 }} (h : d.astimezone offset = .ok e) :
    e.utc = d.utc ∧ e.utcoffset = offset.val := by
  obtain ⟨utc, hutc, h⟩ := bind_eq_ok.mp h
  obtain ⟨wall, hwall, h⟩ := bind_eq_ok.mp h
  cases h
  have hinstant := Naive.add_micros hutc
  have hmicros := Naive.add_micros hwall
  refine ⟨?_, rfl⟩
  simp only [Aware.utc]
  omega

section Instant

variable {n : Numeral} {instant : Naive}

theorem Numeral.epoch_add (h : instant.micros = Naive.epoch.micros + n.micros) :
    TimeDelta.make n.micros >>= Aware.epoch.add = .ok ⟨instant, 0, by decide⟩ := by
  rw [TimeDelta.make_of_instant h]
  show Aware.epoch.add n.micros = _
  rw [Aware.add]
  show (Naive.epoch.add n.micros >>= _) = _
  rw [Naive.add_eq_ok h.symm]
  rfl

/-- The instant and the offset make up the value. -/
theorem Aware.ext_utc {d e : Aware} (hutc : d.utc = e.utc) (hoffset : d.utcoffset = e.utcoffset) :
    d = e := by
  obtain ⟨⟨dmicros, dvalid⟩, doffset, hd⟩ := d
  obtain ⟨⟨emicros, evalid⟩, eoffset, he⟩ := e
  simp only [utc] at hutc hoffset
  subst hoffset
  obtain rfl : dmicros = emicros := by omega
  rfl

theorem Aware.astimezone_eq_ok {wall : Naive} {offset : Int}
    (hvalid : -86400000000 < offset ∧ offset < 86400000000)
    (h : wall.micros = instant.micros + offset) :
    Aware.astimezone ⟨instant, 0, by decide⟩ ⟨offset, hvalid⟩ = .ok ⟨wall, offset, hvalid⟩ := by
  rw [Aware.astimezone, Naive.add_eq_ok (e := instant) (by simp)]
  dsimp only [bind, Except.bind]
  rw [Naive.add_eq_ok h.symm]
  rfl

/-- The texts of a `timestamp_tz` cell with the seconds `n`, and their offset in minutes: the numeral
alone, or a valid offset after it. -/
inductive Numeral.TzText (n : Numeral) : PyStr → Int → Prop
  | bare : TzText n n.text 0
  | offset {offset : PyStr} {minutes : Int} : parseInt offset = some (minutes + 1440) →
      -1440 < minutes ∧ minutes < 1440 → TzText n (n.text ++ ch ' ' :: offset) minutes

theorem Numeral.TzText.decode {text : PyStr} {minutes : Int} (htext : n.TzText text minutes)
    (hshort : n.Short) (h : instant.micros = Naive.epoch.micros + n.micros) {wall : Naive}
    (hwall : wall.micros = instant.micros + minutes * 60000000) :
    ∃ d, decodeTimestampTz text = .ok d ∧ d.utc = instant.micros ∧
      d.utcoffset = minutes * 60000000 := by
  cases htext with
  | bare =>
    refine ⟨⟨instant, 0, by decide⟩, ?_, ?_, rfl⟩
    · rw [n.decodeTimestampTz_bare hshort, Numeral.epoch_add h]
    · simp [Aware.utc]
  | offset hoffset hminutes =>
    have hvalid : -86400000000 < minutes * 60000000 ∧ minutes * 60000000 < 86400000000 := by omega
    refine ⟨⟨wall, minutes * 60000000, hvalid⟩, ?_, ?_, rfl⟩
    · rw [n.decodeTimestampTz_text hshort hoffset hvalid, Numeral.epoch_add h]
      exact Aware.astimezone_eq_ok hvalid hwall
    · simp only [Aware.utc]
      omega

/-! ### Beyond the digits that are read -/

theorem Numeral.decodeTimestampNtz_long (h : ¬ n.Short) :
    decodeTimestampNtz n.text = .error .tooManyDigits := by
  rw [decodeTimestampNtz, n.splitSeconds_long h]
  rfl

theorem Numeral.decodeTimestampLtz_long (h : ¬ n.Short) :
    decodeTimestampLtz n.text = .error .tooManyDigits := by
  rw [decodeTimestampLtz, n.splitSeconds_long h]
  rfl

theorem Numeral.TzText.decode_long {text : PyStr} {minutes : Int} (htext : n.TzText text minutes)
    (h : ¬ n.Short) : decodeTimestampTz text = .error .tooManyDigits := by
  have hspace := n.notMem_text (c := ch ' ') (by decide) (by decide) (by decide)
  have hseconds : (partition (ch ' ') text).1 = n.text := by
    cases htext with
    | bare => rw [partition_of_notMem hspace]
    | offset _ _ => rw [partition_append _ hspace]
  rw [decodeTimestampTz, hseconds, n.splitSeconds_long h]
  rfl

/-! ### The values -/

theorem Numeral.micros_of_ntz {d : Naive} (h : decodeTimestampNtz n.text = .ok d) :
    d.micros = Naive.epoch.micros + n.micros := by
  have hshort : n.Short := by
    by_contra hlong
    rw [n.decodeTimestampNtz_long hlong] at h
    cases h
  rw [n.decodeTimestampNtz_text hshort] at h
  obtain ⟨delta, hdelta, hadd⟩ := bind_eq_ok.mp h
  rw [Naive.add_micros hadd, TimeDelta.eq_of_make hdelta]

theorem Numeral.utc_of_epoch {d : Aware} (h : TimeDelta.make n.micros >>= Aware.epoch.add = .ok d) :
    d.utc = Naive.epoch.micros + n.micros := by
  obtain ⟨delta, hdelta, hadd⟩ := bind_eq_ok.mp h
  rw [Aware.add_utc hadd, TimeDelta.eq_of_make hdelta]
  simp [Aware.utc, Aware.epoch]

theorem Numeral.utc_of_ltz {d : Aware} (h : decodeTimestampLtz n.text = .ok d) :
    d.utc = Naive.epoch.micros + n.micros := by
  have hshort : n.Short := by
    by_contra hlong
    rw [n.decodeTimestampLtz_long hlong] at h
    cases h
  rw [n.decodeTimestampLtz_text hshort] at h
  exact Numeral.utc_of_epoch h

theorem Numeral.TzText.utc {text : PyStr} {minutes : Int} (htext : n.TzText text minutes) {d : Aware}
    (h : decodeTimestampTz text = .ok d) : d.utc = Naive.epoch.micros + n.micros := by
  have hshort : n.Short := by
    by_contra hlong
    rw [htext.decode_long hlong] at h
    cases h
  cases htext with
  | bare =>
    rw [n.decodeTimestampTz_bare hshort] at h
    exact Numeral.utc_of_epoch h
  | offset hoffset hminutes =>
    have hvalid : -86400000000 < minutes * 60000000 ∧ minutes * 60000000 < 86400000000 := by omega
    rw [n.decodeTimestampTz_text hshort hoffset hvalid] at h
    obtain ⟨e, he, hzone⟩ := bind_eq_ok.mp h
    rw [(Aware.astimezone_utc hzone).1, Numeral.utc_of_epoch he]

theorem Numeral.micros_mono {n m : Numeral} (h : n.value ≤ m.value) : n.micros ≤ m.micros :=
  truncate_mono (by linarith)

/-- **Timestamps are truncated towards zero** at the microsecond, whatever their precision, and the
three types agree on the instant, as long as `int` reads the whole part; beyond that all three
refuse it. Decoding is monotone. -/
theorem decode_truncates :
    (∀ (n : Numeral) (instant : Naive), n.whole.length ≤ intMaxStrDigits →
      instant.micros = Naive.epoch.micros + truncate (n.value * 1000000) →
      decodeTimestampNtz n.text = .ok instant ∧
      decodeTimestampLtz n.text = .ok ⟨instant, 0, by decide⟩ ∧
      ∀ text minutes, n.TzText text minutes →
        ∀ wall : Naive, wall.micros = instant.micros + minutes * 60000000 →
          ∃ d, decodeTimestampTz text = .ok d ∧ d.utc = instant.micros ∧
            d.utcoffset = minutes * 60000000) ∧
    (∀ n : Numeral, intMaxStrDigits < n.whole.length →
      decodeTimestampNtz n.text = .error .tooManyDigits ∧
      decodeTimestampLtz n.text = .error .tooManyDigits ∧
      ∀ text minutes, n.TzText text minutes → decodeTimestampTz text = .error .tooManyDigits) ∧
    ∀ n m : Numeral, n.value ≤ m.value →
      (∀ d e, decodeTimestampNtz n.text = .ok d → decodeTimestampNtz m.text = .ok e →
        d.micros ≤ e.micros) ∧
      (∀ d e, decodeTimestampLtz n.text = .ok d → decodeTimestampLtz m.text = .ok e →
        d.utc ≤ e.utc) ∧
      ∀ text text' minutes minutes', n.TzText text minutes → m.TzText text' minutes' →
        ∀ d e, decodeTimestampTz text = .ok d → decodeTimestampTz text' = .ok e →
          d.utc ≤ e.utc := by
  refine ⟨fun n instant hshort h => ⟨?_, ?_, ?_⟩, fun n hlong => ?_, fun n m h => ⟨?_, ?_, ?_⟩⟩
  · have hmake : TimeDelta.make n.micros = .ok n.micros := TimeDelta.make_of_instant h
    rw [n.decodeTimestampNtz_text hshort, hmake]
    exact Naive.add_eq_ok h.symm
  · rw [n.decodeTimestampLtz_text hshort]
    exact Numeral.epoch_add h
  · intro text minutes htext wall hwall
    exact htext.decode hshort h hwall
  · have hrefused : ¬ n.Short := not_le.mpr hlong
    exact ⟨n.decodeTimestampNtz_long hrefused, n.decodeTimestampLtz_long hrefused,
      fun text minutes htext => htext.decode_long hrefused⟩
  · intro d e hd he
    rw [Numeral.micros_of_ntz hd, Numeral.micros_of_ntz he]
    exact Int.add_le_add_left (Numeral.micros_mono h) _
  · intro d e hd he
    rw [Numeral.utc_of_ltz hd, Numeral.utc_of_ltz he]
    exact Int.add_le_add_left (Numeral.micros_mono h) _
  · intro text text' minutes minutes' htext htext' d e hd he
    rw [htext.utc hd, htext'.utc he]
    exact Int.add_le_add_left (Numeral.micros_mono h) _

/-- Zeros before the point, one more than `int` reads, and half a second after it. -/
def manyZeros : Numeral where
  negative := false
  whole := List.replicate 4301 0
  frac := some [5]
  whole_ne := by
    rw [Ne, List.replicate_eq_nil_iff]
    decide
  whole_lt := fun d hd => by
    rw [List.eq_of_mem_replicate hd]
    decide
  frac_lt := by simp

/-- **A value in the range may have too many digits to be read.** -/
theorem decode_refuses_manyZeros :
    (∃ instant : Naive,
      instant.micros = Naive.epoch.micros + truncate (manyZeros.value * 1000000)) ∧
    decodeTimestampNtz manyZeros.text = .error .tooManyDigits ∧
    decodeTimestampLtz manyZeros.text = .error .tooManyDigits ∧
    decodeTimestampTz manyZeros.text = .error .tooManyDigits := by
  have hlong : ¬ manyZeros.Short := by
    rw [Numeral.Short, manyZeros, List.length_replicate]
    decide
  have hmicros : truncate (manyZeros.value * 1000000) = 500000 := by
    have hscaled := manyZeros.truncate_scaled 6
    have hzero : ofDigitList manyZeros.whole = 0 := ofDigitList_replicate_zero 4301
    rw [show (10 : ℚ) ^ 6 = 1000000 by norm_num, hzero] at hscaled
    exact hscaled
  refine ⟨⟨⟨Naive.epoch.micros + 500000, by decide⟩, by rw [hmicros]⟩,
    Numeral.decodeTimestampNtz_long hlong, Numeral.decodeTimestampLtz_long hlong,
    Numeral.TzText.decode_long .bare hlong⟩

end Instant

/-! ### Below one second before the epoch, with more digits than are kept -/

/-- `-0.1234567899`. -/
def longFraction : Numeral where
  negative := true
  whole := [0]
  frac := some [1, 2, 3, 4, 5, 6, 7, 8, 9, 9]
  whole_ne := by decide
  whole_lt := by decide
  frac_lt := by simp

/-- `-1`. -/
def minusOne : Numeral where
  negative := true
  whole := [1]
  frac := none
  whole_ne := by decide
  whole_lt := by decide
  frac_lt := by simp

theorem decode_truncates_longFraction :
    decodeTimestampNtz (py "-0.1234567899") = .ok ⟨Naive.epoch.micros - 123456, by decide⟩ ∧
    (∃ d, decodeTimestampTz (py "-0.1234567899 1770") = .ok d ∧
      d.utc = Naive.epoch.micros - 123456 ∧ d.utcoffset = 330 * 60000000) ∧
    ∀ d e, decodeTimestampNtz (py "-1") = .ok d → decodeTimestampNtz (py "-0.1234567899") = .ok e →
      d.micros ≤ e.micros := by
  have hvalue : truncate (longFraction.value * 1000000) = -123456 := by decide +kernel
  obtain ⟨hntz, _, htz⟩ := decode_truncates.1 longFraction
    ⟨Naive.epoch.micros - 123456, by decide⟩ (by decide) (by rw [hvalue]; rfl)
  have hmono := decode_truncates.2.2 minusOne longFraction (by decide +kernel)
  refine ⟨hntz, htz _ 330 (.offset (by decide) (by decide))
    ⟨Naive.epoch.micros - 123456 + 19800000000, by decide⟩ rfl, hmono.1⟩

end SnowflakeSqlApi
