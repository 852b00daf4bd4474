import SnowflakeSqlApi.Types

/-!
# A temporal value bound, stored and read back

Two formats meet in a server: the units `bindings.py` writes (milliseconds and
nanoseconds as integers) and the units `types.py` reads (days, and signed seconds
with a nine-digit fraction).  `Server.render` is the documented server between the
two, and `coerceValue_render_bindOne` says a temporal value comes back unchanged.

The two sides treat a time before the epoch differently.  The binder counts from a
floor-normalised `timedelta`; the decoder reads the sign from the text and applies
it to the whole seconds and to the fraction apart.  `splitSeconds_renderSeconds` and
`micros_of_split` are where the two meet.
-/

namespace SnowflakeSqlApi

namespace Server

/-- `nanos` as signed seconds with a nine-digit fraction. -/
def renderSeconds (nanos : Int) : PyStr :=
  (if nanos < 0 then [ch '-'] else []) ++ strNat (nanos.natAbs / 1000000000) ++ [ch '.']
    ++ (fixedDigits 9 (nanos.natAbs % 1000000000)).map digitChar

/-- The documented server: it parses a binding by its type, and renders the stored value in the
result units with the type of its column. -/
def render (b : BindingValue) : Option (PyStr × PyStr) := do
  let text ← b.value
  if b.type = py "DATE" then
    let millis ← readInt text
    pure (py "date", strInt (millis / 86400000))
  else if b.type = py "TIME" then
    let nanos ← readInt text
    pure (py "time", renderSeconds nanos)
  else if b.type = py "TIMESTAMP_NTZ" then
    let nanos ← readInt text
    pure (py "timestamp_ntz", renderSeconds nanos)
  else if b.type = py "TIMESTAMP_TZ" then
    let nanos ← readInt (partition (ch ' ') text).1
    let offset ← readInt (partition (ch ' ') text).2
    pure (py "timestamp_tz", renderSeconds nanos ++ [ch ' '] ++ strInt offset)
  else none

end Server

/-- The temporal values. -/
inductive Temporal
  | date (d : PyDate)
  | time (t : PyTime)
  | naive (d : Naive)
  | aware (d : Aware)

namespace Temporal

def toValue : Temporal → Value
  | date d => .date d
  | time t => .time t
  | naive d => .naive d
  | aware d => .aware d

/-- What a timestamp column can hold of an aware value: its offset in whole minutes, its instant
in the `datetime` range. -/
def Storable : Temporal → Prop
  | aware d => d.WholeMinutes ∧ d.InstantInRange
  | _ => True

end Temporal

/-! ### Characters of rendered numbers -/

theorem notMem_strNat {c : PyChar} (hc : c.val < 48 ∨ 57 < c.val) (n : Nat) : c ∉ strNat n := by
  intro h
  have := mem_strNat_digit h
  omega

theorem notMem_strInt {c : PyChar} (hc : c.val < 48 ∨ 57 < c.val) (hne : c ≠ ch '-') (n : Int) :
    c ∉ strInt n := by
  rw [strInt]
  split
  · rw [List.mem_cons, not_or]
    exact ⟨hne, notMem_strNat hc _⟩
  · exact notMem_strNat hc _

theorem strInt_ne_nil (n : Int) : strInt n ≠ [] := by
  rw [strInt]
  split
  · exact List.cons_ne_nil _ _
  · exact strNat_ne_nil _

theorem head_strNat_ne (n : Nat) : (strNat n).head? ≠ some (ch '-') := by
  intro h
  have hmem : ch '-' ∈ strNat n := List.mem_of_head? h
  exact notMem_strNat (by decide) n hmem

theorem notMem_fixedDigits {c : PyChar} (hc : c.val < 48 ∨ 57 < c.val) (k n : Nat) :
    c ∉ (fixedDigits k n).map digitChar := by
  intro h
  obtain ⟨d, _, he⟩ := List.mem_map.mp h
  exact digitChar_ne hc d he

/-! ### Seconds with a fraction -/

/-- The nine digits the server writes are the nine digits the decoder keeps. -/
theorem fractionNanos_fixedDigits {n : Nat} (h : n < 10 ^ 9) :
    fractionNanos ((fixedDigits 9 n).map digitChar) = .ok (n : Int) := by
  have hne : (fixedDigits 9 n).map digitChar ≠ [] := by
    intro he
    have := congrArg List.length he
    simp at this
  rw [fractionNanos, if_neg hne, List.take_append_of_le_length (by simp),
    List.take_of_length_le (by simp)]
  exact intOfText_eq_ok.mpr (parseInt_fixedDigits (by decide) h (by decide))

/-- **The decoder splits the server's rendering** into whole seconds and nanoseconds of one sign. -/
theorem splitSeconds_renderSeconds {n : Int} (h : n.natAbs < 10 ^ 40) :
    splitSeconds (Server.renderSeconds n) =
      .ok (if n < 0 then -(n.natAbs / 1000000000 : Nat) else (n.natAbs / 1000000000 : Nat),
        if n < 0 then -(n.natAbs % 1000000000 : Nat) else (n.natAbs % 1000000000 : Nat)) := by
  have hfrac := fractionNanos_fixedDigits (show n.natAbs % 1000000000 < 10 ^ 9 by omega)
  have hdot : ch '.' ∉ strNat (n.natAbs / 1000000000) := notMem_strNat (by decide) _
  have hfew : FewDigits ((n.natAbs / 1000000000 : Nat) : Int) := fewDigits_of_lt (by omega)
  by_cases hn : n < 0
  · have hparts : partition (ch '.') (Server.renderSeconds n) =
        (ch '-' :: strNat (n.natAbs / 1000000000),
          (fixedDigits 9 (n.natAbs % 1000000000)).map digitChar) := by
      rw [Server.renderSeconds, if_pos hn, List.append_assoc]
      refine partition_append _ ?_
      rw [List.singleton_append, List.mem_cons, not_or]
      exact ⟨by decide, hdot⟩
    have hwhole : intOfText (ch '-' :: strNat (n.natAbs / 1000000000)) =
        .ok (-((n.natAbs / 1000000000 : Nat) : Int)) := by
      have hparse := parseInt_neg_digits (fun _ => digitsOf_lt) (digitsOf_ne_nil _) hfew
      rw [Int.natAbs_natCast, ofDigitList_digitsOf] at hparse
      exact intOfText_eq_ok.mpr hparse
    have hhead : (Server.renderSeconds n).head? = some (ch '-') := by
      rw [Server.renderSeconds, if_pos hn]
      rfl
    rw [splitSeconds_eq (by rw [hparts]; exact hwhole) (by rw [hparts]; exact hfrac),
      if_pos hhead, if_pos hn, if_pos hn]
  · have hparts : partition (ch '.') (Server.renderSeconds n) =
        (strNat (n.natAbs / 1000000000),
          (fixedDigits 9 (n.natAbs % 1000000000)).map digitChar) := by
      rw [Server.renderSeconds, if_neg hn, List.append_assoc]
      exact partition_append _ hdot
    have hwhole : intOfText (strNat (n.natAbs / 1000000000)) =
        .ok ((n.natAbs / 1000000000 : Nat) : Int) := intOfText_eq_ok.mpr (parseInt_strNat hfew)
    have hhead : (Server.renderSeconds n).head? ≠ some (ch '-') := by
      rw [Server.renderSeconds, if_neg hn, List.nil_append, List.append_assoc,
        List.head?_append_of_ne_nil _ (strNat_ne_nil _)]
      exact head_strNat_ne _
    rw [splitSeconds_eq (by rw [hparts]; exact hwhole) (by rw [hparts]; exact hfrac),
      if_neg hhead, if_neg hn, if_neg hn]

/-- The two parts recombine to the microseconds, on either side of the epoch. -/
theorem micros_of_split (m : Int) :
    (if m * 1000 < 0 then -((m * 1000).natAbs / 1000000000 : Nat)
      else ((m * 1000).natAbs / 1000000000 : Nat) : Int) * microsPerSecond +
      nanosToMicros (if m * 1000 < 0 then -((m * 1000).natAbs % 1000000000 : Nat)
        else ((m * 1000).natAbs % 1000000000 : Nat)) = m := by
  simp only [nanosToMicros, microsPerSecond]
  split <;> split <;> omega

theorem TimeDelta.make_sub_epoch {m : Int} (h : 0 ≤ m ∧ m < 315537897600000000) :
    TimeDelta.make (m - Naive.epoch.micros) = .ok (m - Naive.epoch.micros) := by
  refine TimeDelta.make_of_abs_le ?_
  simp only [Naive.epoch]
  omega

/-- The seconds of a count in the `datetime` range come back as the `timedelta` from the epoch. -/
theorem secondsDelta_split {m : Int} (h : 0 ≤ m ∧ m < 315537897600000000) :
    secondsDelta
      (if (m - Naive.epoch.micros) * 1000 < 0 then
        -(((m - Naive.epoch.micros) * 1000).natAbs / 1000000000 : Nat)
        else (((m - Naive.epoch.micros) * 1000).natAbs / 1000000000 : Nat))
      (if (m - Naive.epoch.micros) * 1000 < 0 then
        -(((m - Naive.epoch.micros) * 1000).natAbs % 1000000000 : Nat)
        else (((m - Naive.epoch.micros) * 1000).natAbs % 1000000000 : Nat)) =
      .ok (m - Naive.epoch.micros) := by
  rw [secondsDelta, micros_of_split, TimeDelta.make_sub_epoch h]

theorem notMem_renderSeconds {c : PyChar} (hc : c.val < 48 ∨ 57 < c.val) (hminus : c ≠ ch '-')
    (hdot : c ≠ ch '.') (n : Int) : c ∉ Server.renderSeconds n := by
  intro h
  rw [Server.renderSeconds, List.mem_append, List.mem_append, List.mem_append,
    List.mem_singleton] at h
  rcases h with ((h | h) | h) | h
  · split at h
    · exact hminus (List.mem_singleton.mp h)
    · exact absurd h (by simp)
  · exact notMem_strNat hc _ h
  · exact hdot h
  · exact notMem_fixedDigits hc _ _ h

/-! ### The four temporal types -/

theorem decodeDate_bound (d : PyDate) :
    decodeDate (.str (strInt (TimeDelta.days (d.sub .epoch) * millisPerDay / 86400000))) = .ok d := by
  obtain ⟨o, ho⟩ := d
  have hdays : TimeDelta.days (PyDate.sub ⟨o, ho⟩ .epoch) * millisPerDay / 86400000 = o - 719163 := by
    simp only [PyDate.sub, PyDate.epoch, TimeDelta.days, microsPerDay, millisPerDay]
    omega
  have hdelta : TimeDelta.make ((o - 719163) * microsPerDay) = .ok ((o - 719163) * microsPerDay) := by
    refine TimeDelta.make_of_abs_le ?_
    simp only [microsPerDay]
    omega
  have hadd : 719163 + TimeDelta.days ((o - 719163) * microsPerDay) = o := by
    simp only [TimeDelta.days, microsPerDay]
    omega
  rw [hdays, decodeDate, intOf, parseInt_strInt (fewDigits_of_lt (by omega))]
  dsimp only [bind, Except.bind]
  rw [hdelta]
  dsimp only [PyDate.add, PyDate.epoch]
  rw [dif_pos (by rw [hadd]; exact ho)]
  congr 2

/-- The fields of a time, read back from its seconds and its fraction. -/
theorem make_of_seconds (t : PyTime) :
    PyTime.make (((t.hour * 3600 + t.minute * 60 + t.second : Nat) : Int) / 3600 % 24)
      (((t.hour * 3600 + t.minute * 60 + t.second : Nat) : Int) % 3600 / 60)
      (((t.hour * 3600 + t.minute * 60 + t.second : Nat) : Int) % 60)
      (nanosToMicros ((t.microsecond * 1000 : Nat) : Int)) = .ok t := by
  have hv := t.valid
  have hhour : ((t.hour * 3600 + t.minute * 60 + t.second : Nat) : Int) / 3600 % 24 = t.hour := by
    omega
  have hminute : ((t.hour * 3600 + t.minute * 60 + t.second : Nat) : Int) % 3600 / 60 = t.minute := by
    omega
  have hsecond : ((t.hour * 3600 + t.minute * 60 + t.second : Nat) : Int) % 60 = t.second := by
    omega
  have hmicro : nanosToMicros ((t.microsecond * 1000 : Nat) : Int) = t.microsecond := by
    rw [nanosToMicros, if_pos (by omega)]
    omega
  rw [hhour, hminute, hsecond, hmicro, PyTime.make_of_fields]

theorem decodeTime_bound (t : PyTime) :
    decodeTime (Server.renderSeconds
      ((t.hour * 3600 + t.minute * 60 + t.second) * 1000000000 + t.microsecond * 1000)) = .ok t := by
  have hv := t.valid
  have hcast : ((t.hour * 3600 + t.minute * 60 + t.second) * 1000000000 + t.microsecond * 1000 : Int)
      = (((t.hour * 3600 + t.minute * 60 + t.second) * 1000000000 + t.microsecond * 1000 : Nat) : Int)
      := by push_cast; rfl
  have hwhole : ((t.hour * 3600 + t.minute * 60 + t.second) * 1000000000 + t.microsecond * 1000)
      / 1000000000 = t.hour * 3600 + t.minute * 60 + t.second := by omega
  have hfrac : ((t.hour * 3600 + t.minute * 60 + t.second) * 1000000000 + t.microsecond * 1000)
      % 1000000000 = t.microsecond * 1000 := by omega
  rw [hcast, decodeTime, splitSeconds_renderSeconds (by omega), if_neg (by omega), if_neg (by omega),
    Int.natAbs_natCast, hwhole, hfrac]
  exact make_of_seconds t

theorem decodeTimestampNtz_bound (d : Naive) :
    decodeTimestampNtz (Server.renderSeconds (epochNanos (d.sub .epoch))) = .ok d := by
  have hbound : ((d.micros - Naive.epoch.micros) * 1000).natAbs < 10 ^ 40 := by
    have := d.valid
    simp only [Naive.epoch]
    omega
  rw [epochNanos_eq, Naive.sub, decodeTimestampNtz, splitSeconds_renderSeconds hbound]
  dsimp only [bind, Except.bind]
  rw [secondsDelta_split d.valid]
  exact Naive.add_eq_ok (by omega)

/-- **An instant and its offset come back** when the offset is a whole number of minutes. -/
theorem decodeTimestampTz_bound {d : Aware} (hmin : d.WholeMinutes) (hutc : d.InstantInRange) :
    decodeTimestampTz (Server.renderSeconds (epochNanos (d.sub .epoch)) ++ [ch ' ']
      ++ strInt (offsetMinutes d + 1440)) = .ok d := by
  obtain ⟨wall, off, hoff⟩ := d
  have hminutes : offsetMinutes ⟨wall, off, hoff⟩ = off / 60000000 := by
    exact roundDiv_of_dvd (by decide) hmin
  have hback : (off / 60000000 + 1440 - 1440) * 60000000 = off := by
    have : off % 60000000 = 0 := hmin
    omega
  have hmake : TimeDelta.make off = .ok off := by
    refine TimeDelta.make_of_abs_le ?_
    omega
  have hsub : (Aware.sub ⟨wall, off, hoff⟩ .epoch) = wall.micros - off - Naive.epoch.micros := by
    simp only [Aware.sub, Aware.utc, Aware.epoch]
    omega
  let instant : Naive := ⟨wall.micros - off, hutc⟩
  have hinstant : Aware.epoch.add (wall.micros - off - Naive.epoch.micros) =
      .ok ⟨instant, 0, by decide⟩ := by
    rw [Aware.add, Naive.add_eq_ok (e := instant)]
    · rfl
    · simp only [Aware.epoch, instant]
      omega
  have hparts : partition (ch ' ') (Server.renderSeconds ((wall.micros - off - Naive.epoch.micros)
      * 1000) ++ [ch ' '] ++ strInt (off / 60000000 + 1440)) =
      (Server.renderSeconds ((wall.micros - off - Naive.epoch.micros) * 1000),
        strInt (off / 60000000 + 1440)) := by
    rw [List.append_assoc]
    exact partition_append _ (notMem_renderSeconds (by decide) (by decide) (by decide) _)
  have hzone : Aware.astimezone ⟨instant, 0, by decide⟩ ⟨off, hoff⟩ = .ok ⟨wall, off, hoff⟩ := by
    rw [Aware.astimezone, Naive.add_eq_ok (e := instant) (by simp [instant])]
    dsimp only [bind, Except.bind]
    rw [Naive.add_eq_ok (e := wall) (by simp [instant])]
    rfl
  have hbound : ((wall.micros - off - Naive.epoch.micros) * 1000).natAbs < 10 ^ 40 := by
    have := wall.valid
    simp only [Naive.epoch]
    omega
  rw [hminutes, hsub, epochNanos_eq, decodeTimestampTz, hparts]
  dsimp only
  rw [splitSeconds_renderSeconds hbound]
  dsimp only [bind, Except.bind]
  rw [secondsDelta_split (m := wall.micros - off) hutc]
  dsimp only
  rw [hinstant]
  dsimp only
  rw [if_neg (strInt_ne_nil _), intOfText_strInt (fewDigits_of_lt (by omega))]
  dsimp only
  rw [hback, hmake]
  dsimp only
  rw [timezone_of_valid hoff]
  exact hzone

/-! ### The server on each binding type -/

namespace Server

theorem render_date (n : Int) :
    render ⟨py "DATE", some (strInt n)⟩ = some (py "date", strInt (n / 86400000)) := by
  rw [render]
  dsimp only [bind, Option.bind]
  rw [if_pos rfl, readInt_strInt]
  rfl

theorem render_time (n : Int) :
    render ⟨py "TIME", some (strInt n)⟩ = some (py "time", renderSeconds n) := by
  rw [render]
  dsimp only [bind, Option.bind]
  rw [if_neg (by decide), if_pos rfl, readInt_strInt]
  rfl

theorem render_timestampNtz (n : Int) :
    render ⟨py "TIMESTAMP_NTZ", some (strInt n)⟩ = some (py "timestamp_ntz", renderSeconds n) := by
  rw [render]
  dsimp only [bind, Option.bind]
  rw [if_neg (by decide), if_neg (by decide), if_pos rfl, readInt_strInt]
  rfl

theorem render_timestampTz (n offset : Int) :
    render ⟨py "TIMESTAMP_TZ", some (strInt n ++ [ch ' '] ++ strInt offset)⟩ =
      some (py "timestamp_tz", renderSeconds n ++ [ch ' '] ++ strInt offset) := by
  have hspace : ch ' ' ∉ strInt n := notMem_strInt (by decide) (by decide) _
  rw [render]
  dsimp only [bind, Option.bind]
  rw [if_neg (by decide), if_neg (by decide), if_neg (by decide), if_pos rfl, List.append_assoc,
    List.singleton_append, partition_append _ hspace]
  dsimp only
  rw [readInt_strInt, readInt_strInt]
  rfl

end Server

section

variable (lib : Builtins) (column : ColumnMeta)

/-- A cell of a column with a given type. -/
theorem coerceValue_str {type : PyStr} {kind : Kind} (h : Kind.ofType type = kind) (text : PyStr) :
    coerceValue lib (.str text) { column with type := some type } =
      match kind with
      | .fixed => decodeFixed lib (.str text) column.scale
      | .real => (lib.float (.str text)).map .float
      | .text => .ok (.str text)
      | .boolean => .ok (.bool (decodeBoolean (.str text)))
      | .binary => (decodeBinary (.str text)).map .bytes
      | .date => (decodeDate (.str text)).map .date
      | .time => (decodeTime text).map .time
      | .timestampNtz => (decodeTimestampNtz text).map .naive
      | .timestampLtz => (decodeTimestampLtz text).map .aware
      | .timestampTz => (decodeTimestampTz text).map .aware
      | .variant => (lib.loads (.str text)).map .ofJson
      | .unknown => .ok (.str text) := by
  have hkind : ({ column with type := some type } : ColumnMeta).kind = kind := h
  rw [coerceValue, hkind]
  · cases kind <;> rfl
  · simp

/-- **A temporal value written through a binding and read back through a query is unchanged**, an
aware one with its offset. -/
theorem coerceValue_render_bindOne (v : Temporal) (h : v.Storable) :
    ∃ b type text, bindOne v.toValue = .ok b ∧ Server.render b = some (type, text) ∧
      coerceValue lib (.str text) { column with type := some type } = .ok v.toValue := by
  cases v with
  | date d =>
    refine ⟨_, _, _, rfl, Server.render_date _, ?_⟩
    have hkind : Kind.ofType (py "date") = .date := by decide
    rw [coerceValue_str lib column hkind]
    exact congrArg (Except.map Value.date) (decodeDate_bound d)
  | time t =>
    refine ⟨_, _, _, rfl, Server.render_time _, ?_⟩
    have hkind : Kind.ofType (py "time") = .time := by decide
    rw [coerceValue_str lib column hkind]
    exact congrArg (Except.map Value.time) (decodeTime_bound t)
  | naive d =>
    refine ⟨_, _, _, rfl, Server.render_timestampNtz _, ?_⟩
    have hkind : Kind.ofType (py "timestamp_ntz") = .timestampNtz := by decide
    rw [coerceValue_str lib column hkind]
    exact congrArg (Except.map Value.naive) (decodeTimestampNtz_bound d)
  | aware d =>
    refine ⟨_, _, _, rfl, Server.render_timestampTz _ _, ?_⟩
    have hkind : Kind.ofType (py "timestamp_tz") = .timestampTz := by decide
    rw [coerceValue_str lib column hkind]
    exact congrArg (Except.map Value.aware) (decodeTimestampTz_bound h.1 h.2)

end

/-- Half a second before the epoch, on a clock half past five hours ahead of UTC. -/
def beforeEpoch : Aware where
  wall := ⟨62135596800000000 + 19799500000, by decide⟩
  utcoffset := 19800000000
  valid := by decide

/-- Builtins that refuse every argument. -/
def refusingBuiltins : Builtins where
  float _ := .error (.valueError [])
  decimal _ := .error (.valueError [])
  loads _ := .error (.valueError [])

theorem coerceValue_render_bindOne_beforeEpoch : ∃ b type text,
    bindOne (.aware beforeEpoch) = .ok b ∧ Server.render b = some (type, text) ∧
      coerceValue refusingBuiltins (.str text) ⟨.str (py "ts"), some type, .null, .null, true⟩ =
        .ok (.aware beforeEpoch) :=
  coerceValue_render_bindOne refusingBuiltins ⟨.str (py "ts"), none, .null, .null, true⟩
    (.aware beforeEpoch) ⟨by decide, by decide⟩

end SnowflakeSqlApi
