import SnowflakeSqlApi.Python.Isoformat

/-!
# The calendar, and ISO texts read back

`ordinalOf` counts the days up to a year, month and day, as `date.toordinal` does; on what `ymd`
makes of an ordinal it gives the ordinal back (`ordinalOf_ymd`).  With that no two values of
`datetime` of one type have the same `isoformat`: the fields of a text have fixed widths, and the
parts that can be missing start with a character of their own.
-/

namespace SnowflakeSqlApi

/-! ### Months -/

theorem monthDay_spec {lengths : List Nat} {month days : Nat} (h : days < lengths.sum) :
    month ≤ (monthDay month lengths days).1 ∧
      (monthDay month lengths days).1 < month + lengths.length ∧
      1 ≤ (monthDay month lengths days).2 ∧
      (∃ length ∈ lengths, (monthDay month lengths days).2 ≤ length) ∧
      (lengths.take ((monthDay month lengths days).1 - month)).sum + (monthDay month lengths days).2 =
        days + 1 := by
  induction lengths generalizing month days with
  | nil => exact absurd h (Nat.not_lt_zero _)
  | cons length lengths ih =>
    rw [List.sum_cons] at h
    rw [monthDay]
    by_cases hdays : days < length
    · rw [if_pos hdays]
      refine ⟨le_rfl, ?_, Nat.succ_pos _, ⟨length, List.mem_cons_self, hdays⟩, ?_⟩
      · rw [List.length_cons]
        omega
      · rw [Nat.sub_self, List.take_zero, List.sum_nil, Nat.zero_add]
    · rw [if_neg hdays]
      obtain ⟨hlow, hhigh, hpos, ⟨l, hl, hle⟩, hsum⟩ :=
        @ih (month + 1) (days - length) (by omega)
      refine ⟨by omega, ?_, hpos, ⟨l, List.mem_cons_of_mem _ hl, hle⟩, ?_⟩
      · rw [List.length_cons]
        omega
      · have hstep : (monthDay (month + 1) lengths (days - length)).1 - month =
            (monthDay (month + 1) lengths (days - length)).1 - (month + 1) + 1 := by omega
        rw [hstep, List.take_succ_cons, List.sum_cons]
        omega

theorem sum_monthLengths (leap : Bool) : (monthLengths leap).sum = if leap then 366 else 365 := by
  cases leap <;> rfl

theorem le_of_mem_monthLengths {leap : Bool} {length : Nat} (h : length ∈ monthLengths leap) :
    length ≤ 31 := by
  cases leap <;> revert length <;> decide

/-! ### Ordinals -/

/-- `calendar.isleap`. -/
def isLeap (year : Nat) : Bool := year % 4 = 0 && (year % 100 ≠ 0 || year % 400 = 0)

/-- The days before a year. -/
def daysBeforeYear (year : Nat) : Nat :=
  (year - 1) * 365 + (year - 1) / 4 - (year - 1) / 100 + (year - 1) / 400

/-- `date(year, month, day).toordinal()`. -/
def ordinalOf (year month day : Nat) : Nat :=
  daysBeforeYear year + ((monthLengths (isLeap year)).take (month - 1)).sum + day

example : ordinalOf 1970 1 1 = 719163 := by decide

/-- The year of so many days, by its cycles, and the days in it. -/
theorem year_of_cycles {n400 n100 n4 n1 : Nat} (h100 : n100 < 4) (h4 : n4 < 25) (h1 : n1 < 4) :
    daysBeforeYear (n400 * 400 + n100 * 100 + n4 * 4 + n1 + 1) =
        n400 * 146097 + n100 * 36524 + n4 * 1461 + n1 * 365 ∧
      isLeap (n400 * 400 + n100 * 100 + n4 * 4 + n1 + 1) =
        (n1 = 3 && (n4 ≠ 24 || n100 = 3)) := by
  constructor
  · rw [daysBeforeYear, Nat.add_sub_cancel]
    have hdiv4 : (n400 * 400 + n100 * 100 + n4 * 4 + n1) / 4 = n400 * 100 + n100 * 25 + n4 := by omega
    have hdiv100 : (n400 * 400 + n100 * 100 + n4 * 4 + n1) / 100 = n400 * 4 + n100 := by omega
    have hdiv400 : (n400 * 400 + n100 * 100 + n4 * 4 + n1) / 400 = n400 := by omega
    rw [hdiv4, hdiv100, hdiv400]
    omega
  · rw [isLeap, Bool.eq_iff_iff]
    simp only [Bool.and_eq_true, Bool.or_eq_true, decide_eq_true_eq]
    omega

namespace PyDate

/-- A date by its cycles: it is the last day of a leap year, or lies so many days into its year. -/
inductive Cycles (d : PyDate) : Prop
  | last (n400 n100 n4 : Nat) : n400 < 25 → n100 < 4 → n4 < 25 → (n4 ≠ 24 ∨ n100 = 3) →
      d.ymd = (n400 * 400 + n100 * 100 + n4 * 4 + 3 + 1, 12, 31) →
      d.ordinal = (n400 * 146097 + n100 * 36524 + n4 * 1461 + 1461 : Nat) → Cycles d
  | within (n400 n100 n4 n1 rest : Nat) : n400 < 25 → n100 < 4 → n4 < 25 → n1 < 4 → rest < 365 →
      d.ymd = (n400 * 400 + n100 * 100 + n4 * 4 + n1 + 1,
        monthDay 1 (monthLengths (n1 = 3 && (n4 ≠ 24 || n100 = 3))) rest) →
      d.ordinal = (n400 * 146097 + n100 * 36524 + n4 * 1461 + n1 * 365 + rest + 1 : Nat) → Cycles d

theorem cycles (d : PyDate) : d.Cycles := by
  have hvalid := d.valid
  generalize hdays : (d.ordinal - 1).toNat = days
  generalize hn400 : days / 146097 = n400
  generalize hn100 : days % 146097 / 36524 = n100
  generalize hn4 : days % 146097 % 36524 / 1461 = n4
  generalize hn1 : days % 146097 % 36524 % 1461 / 365 = n1
  generalize hrest : days % 146097 % 36524 % 1461 % 365 = rest
  have hymd : d.ymd = if n1 = 4 ∨ n100 = 4 then (n400 * 400 + n100 * 100 + n4 * 4 + n1 + 1 - 1, 12, 31)
      else (n400 * 400 + n100 * 100 + n4 * 4 + n1 + 1,
        monthDay 1 (monthLengths (n1 = 3 && (n4 ≠ 24 || n100 = 3))) rest) := by
    subst hdays hn400 hn100 hn4 hn1 hrest
    rfl
  by_cases hfour : n1 = 4
  · rw [if_pos (.inl hfour)] at hymd
    refine .last n400 n100 n4 (by omega) (by omega) (by omega) (by omega) ?_ (by omega)
    rw [hymd, hfour]
    rfl
  · by_cases hhundred : n100 = 4
    · rw [if_pos (.inr hhundred)] at hymd
      refine .last n400 3 24 (by omega) (by omega) (by omega) (by omega) ?_ (by omega)
      have hyear : n400 * 400 + n100 * 100 + n4 * 4 + n1 + 1 - 1 =
          n400 * 400 + 3 * 100 + 24 * 4 + 3 + 1 := by omega
      rw [hymd, hyear]
    · rw [if_neg (not_or.mpr ⟨hfour, hhundred⟩)] at hymd
      exact .within n400 n100 n4 n1 rest (by omega) (by omega) (by omega) (by omega) (by omega) hymd
        (by omega)

theorem lt_sum_monthLengths {leap : Bool} {rest : Nat} (h : rest < 365) :
    rest < (monthLengths leap).sum := by
  rw [sum_monthLengths]
  split <;> omega

/-- **The calendar is undone**: year, month and day count up to the ordinal. -/
theorem ordinalOf_ymd (d : PyDate) : (ordinalOf d.ymd.1 d.ymd.2.1 d.ymd.2.2 : Int) = d.ordinal := by
  cases d.cycles with
  | last n400 n100 n4 _ h100 h4 hleap hymd hordinal =>
    obtain ⟨hbefore, hisLeap⟩ := @year_of_cycles n400 n100 n4 3 h100 h4 (by omega)
    have htrue : (decide (3 = 3) && (decide (n4 ≠ 24) || decide (n100 = 3))) = true := by
      simp [hleap]
    have htake : ((monthLengths true).take (12 - 1)).sum = 335 := rfl
    rw [hymd, hordinal]
    dsimp only
    rw [ordinalOf, hbefore, hisLeap, htrue, htake]
  | within n400 n100 n4 n1 rest _ h100 h4 h1 hrest hymd hordinal =>
    obtain ⟨hbefore, hisLeap⟩ := @year_of_cycles n400 n100 n4 n1 h100 h4 h1
    obtain ⟨-, -, -, -, hmonths⟩ := @monthDay_spec
      (monthLengths (n1 = 3 && (n4 ≠ 24 || n100 = 3))) 1 rest (lt_sum_monthLengths hrest)
    rw [hymd, hordinal]
    dsimp only
    rw [ordinalOf, hbefore, hisLeap]
    omega

/-- The fields of a date fit in their places. -/
theorem ymd_lt (d : PyDate) : d.ymd.1 < 10 ^ 4 ∧ d.ymd.2.1 < 10 ^ 2 ∧ d.ymd.2.2 < 10 ^ 2 := by
  have hvalid := d.valid
  cases d.cycles with
  | last n400 n100 n4 h400 h100 h4 _ hymd hordinal =>
    rw [hymd]
    dsimp only
    omega
  | within n400 n100 n4 n1 rest h400 h100 h4 h1 hrest hymd hordinal =>
    obtain ⟨-, hhigh, -, ⟨length, hlength, hle⟩, -⟩ := @monthDay_spec
      (monthLengths (n1 = 3 && (n4 ≠ 24 || n100 = 3))) 1 rest (lt_sum_monthLengths hrest)
    have h31 := le_of_mem_monthLengths hlength
    have h12 : ∀ leap, (monthLengths leap).length = 12 := fun _ => rfl
    rw [h12] at hhigh
    rw [hymd]
    dsimp only
    omega

end PyDate

/-! ### Texts -/

/-- Numbers in a place of one width. -/
theorem padded_append_inj {width m n : Nat} {s t : PyStr} (hm : m < 10 ^ width)
    (hn : n < 10 ^ width) (h : padded width m ++ s = padded width n ++ t) : m = n ∧ s = t := by
  have hlength : (padded width m).length = (padded width n).length := by
    rw [padded, padded, List.length_map, List.length_map, fixedDigits_length, fixedDigits_length]
  obtain ⟨htext, hrest⟩ := List.append_inj h hlength
  refine ⟨?_, hrest⟩
  by_cases hwidth : width = 0
  · subst hwidth
    omega
  · have hparsed := congrArg readInt htext
    rw [padded, padded, readInt_fixedDigits (Nat.pos_of_ne_zero hwidth) hm,
      readInt_fixedDigits (Nat.pos_of_ne_zero hwidth) hn, Option.some_inj] at hparsed
    exact Int.natCast_inj.mp hparsed

theorem PyDate.isoformat_append_inj {d e : PyDate} {s t : PyStr}
    (h : d.isoformat ++ s = e.isoformat ++ t) : d = e ∧ s = t := by
  obtain ⟨hyear, hmonth, hday⟩ := d.ymd_lt
  obtain ⟨hyear', hmonth', hday'⟩ := e.ymd_lt
  have hd := d.ordinalOf_ymd
  have he := e.ordinalOf_ymd
  simp only [isoformat, List.append_assoc, List.singleton_append] at h
  obtain ⟨hyears, h⟩ := padded_append_inj hyear hyear' h
  obtain ⟨hmonths, h⟩ := padded_append_inj hmonth hmonth' (List.cons.inj h).2
  obtain ⟨hdays, h⟩ := padded_append_inj hday hday' (List.cons.inj h).2
  refine ⟨?_, h⟩
  rw [hyears, hmonths, hdays, he] at hd
  cases d
  cases e
  dsimp only at hd
  subst hd
  rfl

theorem head?_nil_ne (c : PyChar) : ([] : PyStr).head? ≠ some c := nofun

/-- A part that is missing where its number is 0, before a text that does not start like it. -/
theorem optional_append_inj {c : PyChar} {width m n : Nat} {s t : PyStr} (hm : m < 10 ^ width)
    (hn : n < 10 ^ width) (hs : s.head? ≠ some c) (ht : t.head? ≠ some c)
    (h : (if m = 0 then [] else c :: padded width m) ++ s =
      (if n = 0 then [] else c :: padded width n) ++ t) : m = n ∧ s = t := by
  by_cases hm0 : m = 0
  · rw [if_pos hm0, List.nil_append] at h
    by_cases hn0 : n = 0
    · rw [if_pos hn0, List.nil_append] at h
      exact ⟨hm0.trans hn0.symm, h⟩
    · rw [if_neg hn0] at h
      exact absurd (congrArg List.head? h) hs
  · rw [if_neg hm0] at h
    by_cases hn0 : n = 0
    · rw [if_pos hn0, List.nil_append] at h
      exact absurd (congrArg List.head? h).symm ht
    · rw [if_neg hn0] at h
      exact padded_append_inj hm hn (List.cons.inj h).2

theorem clockText_append_inj {h m s us h' m' s' us' : Nat} {a b : PyStr}
    (hclock : h < 10 ^ 2 ∧ m < 10 ^ 2 ∧ s < 10 ^ 2 ∧ us < 10 ^ 6)
    (hclock' : h' < 10 ^ 2 ∧ m' < 10 ^ 2 ∧ s' < 10 ^ 2 ∧ us' < 10 ^ 6)
    (ha : a.head? ≠ some (ch '.')) (hb : b.head? ≠ some (ch '.'))
    (heq : clockText h m s us ++ a = clockText h' m' s' us' ++ b) :
    (h = h' ∧ m = m' ∧ s = s' ∧ us = us') ∧ a = b := by
  simp only [clockText, List.append_assoc, List.singleton_append] at heq
  obtain ⟨hhours, heq⟩ := padded_append_inj hclock.1 hclock'.1 heq
  obtain ⟨hminutes, heq⟩ := padded_append_inj hclock.2.1 hclock'.2.1 (List.cons.inj heq).2
  obtain ⟨hseconds, heq⟩ := padded_append_inj hclock.2.2.1 hclock'.2.2.1 (List.cons.inj heq).2
  obtain ⟨hmicros, heq⟩ := optional_append_inj hclock.2.2.2 hclock'.2.2.2 ha hb heq
  exact ⟨⟨hhours, hminutes, hseconds, hmicros⟩, heq⟩

theorem PyTime.isoformat_injective : Function.Injective PyTime.isoformat := by
  intro t u h
  have ht := t.valid
  have hu := u.valid
  have heq : t.isoformat ++ [] = u.isoformat ++ [] := by rw [h]
  obtain ⟨⟨hhour, hminute, hsecond, hmicro⟩, -⟩ := clockText_append_inj (by omega) (by omega)
    (head?_nil_ne _) (head?_nil_ne _) heq
  cases t
  cases u
  dsimp only at hhour hminute hsecond hmicro
  subst hhour hminute hsecond hmicro
  rfl

theorem PyDate.isoformat_injective : Function.Injective PyDate.isoformat := by
  intro d e h
  have heq : d.isoformat ++ [] = e.isoformat ++ [] := by rw [h]
  exact (PyDate.isoformat_append_inj heq).1

namespace Naive

/-- A wall clock before a text that does not start with a point. -/
theorem isoformat_append_inj {d e : Naive} {s t : PyStr} (hs : s.head? ≠ some (ch '.'))
    (ht : t.head? ≠ some (ch '.')) (h : d.isoformat ++ s = e.isoformat ++ t) : d = e ∧ s = t := by
  have hd := d.valid
  have he := e.valid
  have hclock : ∀ d : Naive, (TimeDelta.seconds d.micros).toNat < 86400 ∧
      (TimeDelta.microseconds d.micros).toNat < 10 ^ 6 := by
    intro d
    simp only [TimeDelta.seconds, TimeDelta.microseconds, microsPerDay, microsPerSecond]
    omega
  obtain ⟨hseconds, hmicros⟩ := hclock d
  obtain ⟨hseconds', hmicros'⟩ := hclock e
  simp only [isoformat, List.append_assoc, List.singleton_append] at h
  obtain ⟨hdate, h⟩ := PyDate.isoformat_append_inj h
  obtain ⟨⟨hhour, hminute, hsecond, hmicro⟩, hrest⟩ :=
    clockText_append_inj (by omega) (by omega) hs ht (List.cons.inj h).2
  refine ⟨?_, hrest⟩
  have hdays : TimeDelta.days d.micros = TimeDelta.days e.micros := by
    have hordinal := congrArg PyDate.ordinal hdate
    exact add_right_cancel hordinal
  have hfields := TimeDelta.fields_eq d.micros
  have hfields' := TimeDelta.fields_eq e.micros
  have hnonneg : ∀ d : Naive, 0 ≤ TimeDelta.seconds d.micros ∧ 0 ≤ TimeDelta.microseconds d.micros := by
    intro d
    simp only [TimeDelta.seconds, TimeDelta.microseconds, microsPerDay, microsPerSecond]
    omega
  have hd0 := hnonneg d
  have he0 := hnonneg e
  have hmicrosEq : d.micros = e.micros := by omega
  cases d
  cases e
  dsimp only at hmicrosEq
  subst hmicrosEq
  rfl

theorem isoformat_injective : Function.Injective Naive.isoformat := by
  intro d e h
  have heq : d.isoformat ++ [] = e.isoformat ++ [] := by rw [h]
  exact (isoformat_append_inj (head?_nil_ne _) (head?_nil_ne _) heq).1

end Naive

theorem head?_offsetText (offset : Int) :
    (offsetText offset).head? = some (if offset < 0 then ch '-' else ch '+') := rfl

/-- The seconds of an offset, where it has any. -/
theorem offsetTail_inj {s us s' us' : Nat} (hs : s < 10 ^ 2 ∧ us < 10 ^ 6)
    (hs' : s' < 10 ^ 2 ∧ us' < 10 ^ 6)
    (h : (if s = 0 ∧ us = 0 then [] else ch ':' :: padded 2 s) ++
        (if us = 0 then [] else ch '.' :: padded 6 us) =
      (if s' = 0 ∧ us' = 0 then [] else ch ':' :: padded 2 s') ++
        (if us' = 0 then [] else ch '.' :: padded 6 us')) : s = s' ∧ us = us' := by
  have hnil : (if us = 0 then [] else ch '.' :: padded 6 us) ++ [] =
      (if us' = 0 then [] else ch '.' :: padded 6 us') ++ [] → us = us' := fun htext =>
    (optional_append_inj hs.2 hs'.2 (head?_nil_ne _) (head?_nil_ne _) htext).1
  by_cases hzero : s = 0 ∧ us = 0
  · rw [if_pos hzero, if_pos hzero.2] at h
    by_cases hzero' : s' = 0 ∧ us' = 0
    · exact ⟨hzero.1.trans hzero'.1.symm, hzero.2.trans hzero'.2.symm⟩
    · rw [if_neg hzero'] at h
      cases h
  · rw [if_neg hzero] at h
    by_cases hzero' : s' = 0 ∧ us' = 0
    · rw [if_pos hzero', if_pos hzero'.2] at h
      cases h
    · rw [if_neg hzero'] at h
      obtain ⟨hseconds, h⟩ := padded_append_inj hs.1 hs'.1 (List.cons.inj h).2
      refine ⟨hseconds, hnil ?_⟩
      rw [h]

theorem offsetText_inj {a b : Int} (ha : -86400000000 < a ∧ a < 86400000000)
    (hb : -86400000000 < b ∧ b < 86400000000) (h : offsetText a = offsetText b) : a = b := by
  have hsign : (if a < 0 then ch '-' else ch '+') = (if b < 0 then ch '-' else ch '+') := by
    have hhead := congrArg List.head? h
    rw [head?_offsetText, head?_offsetText, Option.some_inj] at hhead
    exact hhead
  have hnegative : a < 0 ↔ b < 0 := by
    have hne : ch '-' ≠ ch '+' := by decide
    split_ifs at hsign <;> grind
  simp only [offsetText, List.append_assoc, List.singleton_append] at h
  obtain ⟨hhours, h⟩ := padded_append_inj (by omega) (by omega) (List.cons.inj h).2
  obtain ⟨hminutes, h⟩ := padded_append_inj (by omega) (by omega) (List.cons.inj h).2
  obtain ⟨hseconds, hmicros⟩ := offsetTail_inj (by omega) (by omega) h
  omega

theorem Aware.isoformat_injective : Function.Injective Aware.isoformat := by
  intro d e h
  have hpoint : ∀ offset : Int, (offsetText offset).head? ≠ some (ch '.') := by
    intro offset
    rw [head?_offsetText]
    split <;> decide
  obtain ⟨hwall, hoffset⟩ := Naive.isoformat_append_inj (hpoint _) (hpoint _) h
  have hutc := offsetText_inj d.valid e.valid hoffset
  cases d
  cases e
  dsimp only at hwall hutc
  subst hwall hutc
  rfl

end SnowflakeSqlApi
