import SnowflakeSqlApi.Batches.Insert

/-!
# Counting strictly

An import confirms a batch with the count of its reply, which `_rows_affected` reads
strictly.  `RowCount` says what that count is: the sum of the counts in the stats
object of the body, or where that has none, the first cell of the first row of `data`.

The code takes `data` and its first row apart by position, which Python allows on text
too.  `DataCount` is what it finds that way, and `countsStrictly_iff` says that such
text is all that goes wrong.
-/

namespace SnowflakeSqlApi

/-! ### Single counts -/

/-- A count as a reply should have it: a non-negative integer, or text that `int` reads as one. -/
inductive IsCount : Json → Int → Prop
  | int {n : Int} : 0 ≤ n → IsCount (.int n) n
  | str {s : PyStr} {n : Int} : parseInt s = some n → 0 ≤ n → IsCount (.str s) n

theorem intOf_of_isCount {value : Json} {n : Int} (h : IsCount value n) : intOf value = .ok n := by
  cases h with
  | int _ => rfl
  | str hs _ => rw [intOf, hs]

/-- A number that must not be negative. -/
theorem refuseNegative_ok {x : Except Exc Int} {e : Exc} {n : Int} :
    (x >>= fun count => if true && decide (count < 0) then .error e else pure count) = .ok n ↔
      x = .ok n ∧ 0 ≤ n := by
  rw [bind_eq_ok]
  constructor
  · rintro ⟨m, hm, h⟩
    by_cases hneg : m < 0
    · rw [if_pos (by simpa using hneg)] at h
      cases h
    · rw [if_neg (by simpa using hneg)] at h
      cases h
      exact ⟨hm, not_lt.mp hneg⟩
  · rintro ⟨hx, hn⟩
    refine ⟨n, hx, ?_⟩
    rw [if_neg (by simpa using hn)]
    rfl

/-- **What the strict count of a value takes.** -/
theorem affectedCount_strict {value : Json} {n : Int} :
    affectedCount true value = .ok n ↔ IsCount value n := by
  constructor
  · intro h
    cases value with
    | int m =>
      obtain ⟨hm, hn⟩ := refuseNegative_ok.mp h
      cases hm
      exact .int hn
    | str s =>
      obtain ⟨hs, hn⟩ := refuseNegative_ok.mp h
      rw [intOf] at hs
      cases hparse : parseInt s with
      | none =>
        rw [hparse] at hs
        cases hs
      | some m =>
        rw [hparse] at hs
        cases hs
        exact .str hparse hn
    | _ => cases h
  · intro h
    cases h with
    | int hn => exact refuseNegative_ok.mpr ⟨rfl, hn⟩
    | str hs hn => exact refuseNegative_ok.mpr ⟨intOf_of_isCount (.str hs hn), hn⟩

theorem affectedCount_of (strict : Bool) {value : Json} {n : Int} (h : IsCount value n) :
    affectedCount strict value = .ok n := by
  cases strict with
  | true => exact affectedCount_strict.mpr h
  | false =>
    unfold affectedCount
    rw [intOf_of_isCount h]
    rfl

/-- A single character is no sign with a digit, so what `int` reads it as is not negative. -/
theorem isCount_singleton {c : PyChar} {n : Int} (h : parseInt [c] = some n) :
    IsCount (.str [c]) n := by
  refine .str h ?_
  have hstrip : stripBy isIntSpace [c] = [] ∨ stripBy isIntSpace [c] = [c] := by
    unfold stripBy
    cases hspace : isIntSpace c <;> simp [List.dropWhile, hspace]
  replace h := readInt_of_parseInt h
  unfold readInt at h
  rcases hstrip with hstrip | hstrip
  · rw [hstrip] at h
    cases h
  · rw [hstrip] at h
    dsimp only at h
    by_cases hminus : c = ch '-'
    · rw [if_pos hminus] at h
      cases h
    · rw [if_neg hminus] at h
      by_cases hplus : c = ch '+'
      · rw [if_pos hplus] at h
        cases h
      · rw [if_neg hplus] at h
        obtain ⟨m, _, rfl⟩ := Option.map_eq_some_iff.mp h
        exact Int.natCast_nonneg m

/-! ### The count in the rows -/

/-- The count that is found in `data` by position: the first cell of the first row, or the first
character of text in the place of that row or of the rows. -/
inductive DataCount : Json → Int → Prop
  | row {cell : Json} {row rows : List Json} {n : Int} : IsCount cell n →
      DataCount (.arr (.arr (cell :: row) :: rows)) n
  | textRow {c : PyChar} {cs : PyStr} {rows : List Json} {n : Int} : IsCount (.str [c]) n →
      DataCount (.arr (.str (c :: cs) :: rows)) n
  | text {c : PyChar} {cs : PyStr} {n : Int} : IsCount (.str [c]) n →
      DataCount (.str (c :: cs)) n

theorem itemZero_ok {value item : Json} (h : itemZero value = .ok item) :
    (∃ items, value = .arr (item :: items)) ∨ ∃ c cs, value = .str (c :: cs) ∧ item = .str [c] := by
  unfold itemZero at h
  split at h
  · cases h
    exact .inl ⟨_, rfl⟩
  · cases h
    exact .inr ⟨_, _, rfl, rfl⟩
  all_goals cases h

theorem DataCount.of_itemZero {data first cell : Json} {n : Int}
    (hfirst : itemZero data = .ok first) (hcell : itemZero first = .ok cell)
    (hn : IsCount cell n) : DataCount data n := by
  rcases itemZero_ok hfirst with ⟨rows, rfl⟩ | ⟨c, cs, rfl, rfl⟩
  · rcases itemZero_ok hcell with ⟨row, rfl⟩ | ⟨c, cs, rfl, rfl⟩
    · exact .row hn
    · exact .textRow hn
  · -- the first character of text is text again
    cases hcell
    exact .text hn

theorem dataCount_of_itemZero {strict : Bool} {data first cell : Json} {n : Int}
    (hdata : data.truthy = true) (hfirst : itemZero data = .ok first)
    (htruthy : first.truthy = true) (hcell : itemZero first = .ok cell)
    (hn : affectedCount strict cell = .ok n) :
    dataCount strict data = .ok (some n) := by
  have hcount : (itemZero first >>= affectedCount strict) = .ok n := by
    rw [hcell]
    exact hn
  unfold dataCount
  rw [if_pos hdata, hfirst]
  show (if first.truthy = true then _ else _) = _
  rw [if_pos htruthy, hcount]
  rfl

theorem dataCount_of (strict : Bool) {data : Json} {n : Int} (h : DataCount data n) :
    dataCount strict data = .ok (some n) := by
  cases h with
  | row h => exact dataCount_of_itemZero rfl rfl rfl rfl (affectedCount_of strict h)
  | textRow h => exact dataCount_of_itemZero rfl rfl rfl rfl (affectedCount_of strict h)
  | text h => exact dataCount_of_itemZero rfl rfl rfl rfl (affectedCount_of strict h)

/-- **What strict counting finds in the rows.** -/
theorem dataCount_strict {data : Json} {n : Int} :
    dataCount true data = .ok (some n) ↔ DataCount data n := by
  constructor
  · intro h
    unfold dataCount at h
    by_cases hdata : data.truthy = true
    · rw [if_pos hdata] at h
      obtain ⟨first, hfirst, h⟩ := bind_eq_ok.mp h
      by_cases htruthy : first.truthy = true
      · rw [if_pos htruthy] at h
        cases hcount : itemZero first >>= affectedCount true with
        | error e =>
          rw [hcount] at h
          cases h
        | ok count =>
          rw [hcount] at h
          cases h
          obtain ⟨cell, hcell, hn⟩ := bind_eq_ok.mp hcount
          exact .of_itemZero hfirst hcell (affectedCount_strict.mp hn)
      · rw [if_neg htruthy] at h
        cases h
    · rw [if_neg hdata] at h
      cases h
  · exact dataCount_of true

/-! ### The count of a body -/

/-- The counts in the stats object of a body, in the order of their keys. -/
def statsValues (body : Dict) : List Json :=
  match body.get (py "stats") with
  | .obj stats => statKeys.filterMap fun key => Dict.get? stats key
  | _ => []

/-- **The count of a body**, where it is well formed. -/
inductive RowCount (body : Dict) : Int → Prop
  | stats {counts : List Int} : statsValues body ≠ [] →
      List.Forall₂ IsCount (statsValues body) counts → RowCount body counts.sum
  | data {cell : Json} {row rows : List Json} {n : Int} : statsValues body = [] →
      body.get (py "data") = .arr (.arr (cell :: row) :: rows) → IsCount cell n → RowCount body n

/-- What the strict call counts: as `RowCount`, with all that is found by position. -/
inductive BodyCount (body : Dict) : Int → Prop
  | stats {counts : List Int} : statsValues body ≠ [] →
      List.Forall₂ IsCount (statsValues body) counts → BodyCount body counts.sum
  | data {n : Int} : statsValues body = [] → DataCount (body.get (py "data")) n → BodyCount body n

theorem RowCount.bodyCount {body : Dict} {n : Int} (h : RowCount body n) : BodyCount body n := by
  cases h with
  | stats hne h => exact .stats hne h
  | data hnil hdata h =>
    refine .data hnil ?_
    rw [hdata]
    exact .row h

section Body

variable {strict : Bool} {body : Dict} {n : Int}

/-- The counts of the stats object come first, and `data` only where there is none. -/
theorem rowsAffected_of_counts {counts : List Int}
    (h : (statsValues body).mapM (affectedCount strict) = .ok counts) :
    rowsAffected strict body =
      if counts = [] then do
        match ← dataCount strict (body.get (py "data")) with
        | some count => pure count
        | none =>
          if strict then .error (.valueError [lit "response has no rows-affected count"])
          else pure 0
      else .ok counts.sum := by
  unfold rowsAffected
  unfold statsValues at h
  cases hstats : body.get (py "stats") with
  | obj stats =>
    rw [hstats] at h
    dsimp only at h ⊢
    unfold statsTotal
    rw [h]
    by_cases hnil : counts = []
    · subst hnil
      rfl
    · simp only [bind, Except.bind, pure, Except.pure, if_neg hnil]
  | _ =>
    rw [hstats] at h
    cases h
    rfl

theorem rowsAffected_of (h : BodyCount body n) : rowsAffected strict body = .ok n := by
  cases h with
  | @stats counts hne h =>
    have hcounts : (statsValues body).mapM (affectedCount strict) = .ok counts :=
      mapM_eq_ok.mpr (h.imp fun _ _ hcount => affectedCount_of strict hcount)
    rw [rowsAffected_of_counts hcounts, if_neg]
    rintro rfl
    exact hne (List.forall₂_nil_right_iff.mp h)
  | data hnil h =>
    have hcounts : (statsValues body).mapM (affectedCount strict) = .ok [] := by
      rw [hnil]
      rfl
    rw [rowsAffected_of_counts hcounts, if_pos rfl, dataCount_of strict h]
    rfl

/-- The counts of the stats object are read, where anything is returned. -/
theorem counts_of_rowsAffected (h : rowsAffected strict body = .ok n) :
    ∃ counts, (statsValues body).mapM (affectedCount strict) = .ok counts := by
  unfold rowsAffected at h
  unfold statsValues
  cases hstats : body.get (py "stats") with
  | obj stats =>
    rw [hstats] at h
    dsimp only at h ⊢
    obtain ⟨total, htotal, _⟩ := bind_eq_ok.mp h
    obtain ⟨counts, hcounts, _⟩ := bind_eq_ok.mp htotal
    exact ⟨counts, hcounts⟩
  | _ => exact ⟨[], rfl⟩

/-- **What the strict call returns.** -/
theorem rowsAffected_strict : rowsAffected true body = .ok n ↔ BodyCount body n := by
  constructor
  · intro h
    obtain ⟨counts, hcounts⟩ := counts_of_rowsAffected h
    have hforall : List.Forall₂ IsCount (statsValues body) counts :=
      (mapM_eq_ok.mp hcounts).imp fun _ _ hcount => affectedCount_strict.mp hcount
    rw [rowsAffected_of_counts hcounts] at h
    by_cases hnil : counts = []
    · subst hnil
      rw [if_pos rfl] at h
      obtain ⟨count, hdata, h⟩ := bind_eq_ok.mp h
      cases count with
      | none => cases h
      | some count =>
        cases h
        exact .data (List.forall₂_nil_right_iff.mp hforall) (dataCount_strict.mp hdata)
    · rw [if_neg hnil] at h
      cases h
      refine .stats (fun hvalues => hnil ?_) hforall
      rw [hvalues] at hforall
      exact List.forall₂_nil_left_iff.mp hforall
  · exact rowsAffected_of

/-- **A well-formed count is returned** by both calls. -/
theorem rowsAffected_of_rowCount (h : RowCount body n) : rowsAffected strict body = .ok n :=
  rowsAffected_of h.bodyCount

end Body

/-! ### Where the strict call goes wrong -/

/-- Strict counting of a body: only well-formed counts are returned, everything else raises, and
the lenient call returns what the strict one does. -/
structure CountsStrictly (body : Dict) : Prop where
  wellFormed : ∀ n, rowsAffected true body = .ok n → RowCount body n
  raises : (∀ n, ¬ RowCount body n) → ∃ e, rowsAffected true body = .error e
  agrees : ∀ n, rowsAffected true body = .ok n → rowsAffected false body = .ok n

/-- Text in the place of the rows or of the first row, whose first character `int` takes. -/
def DigitText : Json → Prop
  | .str (c :: _) | .arr (.str (c :: _) :: _) => (parseInt [c]).isSome = true
  | _ => False

theorem exists_dataCount {data : Json} (h : DigitText data) : ∃ n, DataCount data n := by
  unfold DigitText at h
  split at h
  · obtain ⟨n, hn⟩ := Option.isSome_iff_exists.mp h
    exact ⟨n, .text (isCount_singleton hn)⟩
  · obtain ⟨n, hn⟩ := Option.isSome_iff_exists.mp h
    exact ⟨n, .textRow (isCount_singleton hn)⟩
  · cases h

theorem digitText_of_isCount {c : PyChar} {n : Int} (h : IsCount (.str [c]) n) :
    (parseInt [c]).isSome = true := by
  cases h with
  | str h _ => rw [h]; rfl

/-- Without such text, the count that is found is well formed. -/
theorem BodyCount.rowCount {body : Dict} {n : Int} (h : BodyCount body n)
    (htext : ¬ (statsValues body = [] ∧ DigitText (body.get (py "data")))) : RowCount body n := by
  cases h with
  | stats hne h => exact .stats hne h
  | data hnil h =>
    have hdata : ¬ DigitText (body.get (py "data")) := fun hd => htext ⟨hnil, hd⟩
    generalize hrows : body.get (py "data") = data at h hdata
    cases h with
    | row h => exact .data hnil hrows h
    | textRow h => exact absurd (digitText_of_isCount h) hdata
    | text h => exact absurd (digitText_of_isCount h) hdata

/-- Text is no row of cells. -/
theorem not_rowCount_of_digitText {body : Dict} {n : Int} (hnil : statsValues body = [])
    (htext : DigitText (body.get (py "data"))) : ¬ RowCount body n := by
  intro h
  cases h with
  | stats hne _ => exact hne hnil
  | data _ hdata _ =>
    rw [hdata] at htext
    exact htext

/-- **When strict counting is strict**: unless no count is in the stats object and text that starts
with a digit stands for the rows or for the first row. -/
theorem countsStrictly_iff (body : Dict) : CountsStrictly body ↔
    ¬ (statsValues body = [] ∧ DigitText (body.get (py "data"))) := by
  constructor
  · rintro hstrict ⟨hnil, htext⟩
    obtain ⟨n, hn⟩ := exists_dataCount htext
    have hcount : rowsAffected true body = .ok n := rowsAffected_of (.data hnil hn)
    exact not_rowCount_of_digitText hnil htext (hstrict.wellFormed n hcount)
  · intro htext
    refine ⟨fun n h => (rowsAffected_strict.mp h).rowCount htext, fun hnone => ?_,
      fun n h => rowsAffected_of (rowsAffected_strict.mp h)⟩
    cases hstrict : rowsAffected true body with
    | error e => exact ⟨e, rfl⟩
    | ok n => exact absurd ((rowsAffected_strict.mp hstrict).rowCount htext) (hnone n)

/-- A reply whose JSON is text. -/
def textReply : Response where
  statusCode := 200
  json := some (.str (py "7 rows"))

/-- **Text is counted by its first digit.** -/
theorem not_countsStrictly_textReply : rowsAffected true textReply.jsonBody = .ok 7 ∧
    (∀ n, ¬ RowCount textReply.jsonBody n) ∧ ¬ CountsStrictly textReply.jsonBody := by
  have htext : DigitText (textReply.jsonBody.get (py "data")) := by
    show (parseInt [ch '7']).isSome = true
    rfl
  have hnone : ∀ n, ¬ RowCount textReply.jsonBody n := fun n =>
    not_rowCount_of_digitText (by rfl) htext
  refine ⟨by rfl, hnone, fun h => ?_⟩
  exact hnone 7 (h.wellFormed 7 (by rfl))

end SnowflakeSqlApi
