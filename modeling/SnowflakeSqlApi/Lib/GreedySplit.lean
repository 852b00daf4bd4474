import Mathlib.Order.Bounds.Basic
import Mathlib.Data.List.Basic

/-!
# Greedy splits of a list

Given a property `fits` of lists, the greedy split of a list takes the longest
non-empty prefix that fits, and goes on with the rest.

* `Split.flatten`: its parts are the list, in order.
* `isLongest_of_stop`: when every prefix of a fitting list fits, the prefix at which
  an incremental reader first fails to extend is the longest one.
* `Closed`: what an incremental reader has closed when it meets the end of its input
  with a part still open, and `Split.of_closed_nil`, `Split.of_closed_open` say how
  it relates to the greedy split of all it has read.
-/

namespace SnowflakeSqlApi.GreedySplit

variable {α : Type*} {fits : List α → Prop}

/-- `n` is the length of the longest non-empty prefix of `xs` that fits. -/
def IsLongest (fits : List α → Prop) (xs : List α) (n : Nat) : Prop :=
  IsGreatest {k | 0 < k ∧ k ≤ xs.length ∧ fits (xs.take k)} n

/-- The greedy split of a list. -/
inductive Split (fits : List α → Prop) : List α → List (List α) → Prop
  | nil : Split fits [] []
  | cons {xs : List α} {n : Nat} {parts : List (List α)} :
      IsLongest fits xs n → Split fits (xs.drop n) parts → Split fits xs (xs.take n :: parts)

/-- **No element is lost, duplicated or moved.** -/
theorem Split.flatten {xs : List α} {ps : List (List α)} (h : Split fits xs ps) :
    ps.flatten = xs := by
  induction h with
  | nil => rfl
  | cons _ _ ih => rw [List.flatten_cons, ih, List.take_append_drop]

/-- The greedy split of an image is the image of the greedy split, where `f` keeps what fits. -/
theorem Split.map {β : Type*} {fits' : List β → Prop} {f : α → β} {P : α → Prop}
    (hf : ∀ ys : List α, ys ≠ [] → (∀ y ∈ ys, P y) → (fits ys ↔ fits' (ys.map f)))
    {xs : List α} {ps : List (List α)} (hP : ∀ x ∈ xs, P x) (h : Split fits xs ps) :
    Split fits' (xs.map f) (ps.map (List.map f)) := by
  induction h with
  | nil => exact .nil
  | @cons xs n parts hn _ ih =>
    have hlongest : IsLongest fits' (xs.map f) n := by
      have hset : ∀ k, (0 < k ∧ k ≤ xs.length ∧ fits (xs.take k)) ↔
          (0 < k ∧ k ≤ (xs.map f).length ∧ fits' ((xs.map f).take k)) := by
        intro k
        rw [List.length_map, ← List.map_take]
        refine and_congr_right fun hk => and_congr_right fun hle => hf _ ?_ ?_
        · intro he
          have hlen := congrArg List.length he
          rw [List.length_take, List.length_nil] at hlen
          omega
        · exact fun y hy => hP y (List.mem_of_mem_take hy)
      refine ⟨(hset n).mp hn.1, ?_⟩
      rintro m hm
      exact hn.2 ((hset m).mpr hm)
    have htail := ih fun x hx => hP x (List.mem_of_mem_drop hx)
    rw [List.map_drop] at htail
    rw [List.map_cons, List.map_take]
    exact .cons hlongest htail

/-- Every prefix of a fitting list fits. -/
def PrefixClosed (fits : List α → Prop) : Prop := ∀ xs ys : List α, fits (xs ++ ys) → fits xs

/-- **Where an incremental reader stops is the longest prefix**: it has read `n` elements that fit,
and the list is at its end or one more element does not fit. -/
theorem isLongest_of_stop (hfits : PrefixClosed fits) {xs : List α} {n : Nat} (hpos : 0 < n)
    (hle : n ≤ xs.length) (hn : fits (xs.take n))
    (hstop : n = xs.length ∨ ¬ fits (xs.take (n + 1))) : IsLongest fits xs n := by
  refine ⟨⟨hpos, hle, hn⟩, ?_⟩
  rintro m ⟨_, hm, hfit⟩
  by_contra hlt
  rcases hstop with heq | hstop
  · omega
  · refine hstop (hfits _ ((xs.take m).drop (n + 1)) ?_)
    have htake : xs.take (n + 1) = (xs.take m).take (n + 1) := by
      rw [List.take_take, Nat.min_eq_left (by omega)]
    rw [htake, List.take_append_drop]
    exact hfit

/-! ### A reader that is cut off -/

/-- `Closed fits xs ps rest`: a reader of `xs` has closed the parts `ps`, each the longest one
at its place, and has the elements `rest` in an open part. -/
inductive Closed (fits : List α → Prop) : List α → List (List α) → List α → Prop
  | refl (rest : List α) : Closed fits rest [] rest
  | cons {xs : List α} {n : Nat} {parts : List (List α)} {rest : List α} :
      IsLongest fits xs n → Closed fits (xs.drop n) parts rest →
        Closed fits xs (xs.take n :: parts) rest

theorem Closed.snoc {xs rest : List α} {ps : List (List α)} {n : Nat}
    (h : Closed fits xs ps rest) (hn : IsLongest fits rest n) :
    Closed fits xs (ps ++ [rest.take n]) (rest.drop n) := by
  induction h with
  | refl rest => exact .cons hn (.refl _)
  | cons hm _ ih => exact .cons hm (ih hn)

/-- Nothing left open: the closed parts are the greedy split. -/
theorem Split.of_closed_nil {xs : List α} {ps : List (List α)} (h : Closed fits xs ps []) :
    Split fits xs ps := by
  generalize hr : ([] : List α) = rest at h
  induction h with
  | refl rest => subst hr; exact .nil
  | cons hn _ ih => exact .cons hn (ih hr)

/-- An open part that fits is the last part of the greedy split. -/
theorem Split.of_closed_open {xs rest : List α} {ps : List (List α)}
    (h : Closed fits xs ps rest) (hne : rest ≠ []) (hfit : fits rest) :
    Split fits xs (ps ++ [rest]) := by
  have hlongest : IsLongest fits rest rest.length := by
    refine ⟨⟨List.length_pos_iff.mpr hne, le_rfl, by rwa [List.take_length]⟩, ?_⟩
    rintro m ⟨_, hm, _⟩
    exact hm
  have hsnoc := h.snoc hlongest
  rw [List.take_length, List.drop_length] at hsnoc
  exact Split.of_closed_nil hsnoc

end SnowflakeSqlApi.GreedySplit
