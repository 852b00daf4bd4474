import Mathlib.Data.List.Basic

/-!
# A server that recognises replays

Requests carry an identity and may be marked as replays.  The server handles them in the
order they arrive and executes each one, except a replay whose identity it has already
accepted.

`executed_length_le_one` is the law of a client that replays safely: when all its requests
carry one identity and all but the first are marked, the server executes one of them at most,
whichever of them arrive.
-/

namespace SnowflakeSqlApi.Replay

/-- A request as the server sees it. -/
structure Post (α : Type*) where
  id : α
  replay : Bool

variable {α : Type*} [DecidableEq α]

/-- The requests the server executes, `accepted` being the identities it knows. -/
def executed (accepted : List α) : List (Post α) → List (Post α)
  | [] => []
  | p :: ps =>
    if p.replay ∧ p.id ∈ accepted then executed accepted ps
    else p :: executed (p.id :: accepted) ps

/-- Replays of an accepted identity are not executed. -/
theorem executed_of_accepted {accepted : List α} {id : α} (hid : id ∈ accepted) {ps : List (Post α)}
    (hids : ∀ p ∈ ps, p.id = id) (hreplay : ∀ p ∈ ps, p.replay = true) :
    executed accepted ps = [] := by
  induction ps with
  | nil => rfl
  | cons p ps ih =>
    have hp : p.replay = true ∧ p.id ∈ accepted :=
      ⟨hreplay p (by simp), by rw [hids p (by simp)]; exact hid⟩
    rw [executed, if_pos hp]
    exact ih (fun q hq => hids q (by simp [hq])) fun q hq => hreplay q (by simp [hq])

/-- **One identity, replays after the first: at most one execution.** -/
theorem executed_length_le_one (accepted : List α) {id : α} {ps : List (Post α)}
    (hids : ∀ p ∈ ps, p.id = id) (hreplay : ∀ p ∈ ps.tail, p.replay = true) :
    (executed accepted ps).length ≤ 1 := by
  cases ps with
  | nil => exact Nat.zero_le 1
  | cons p ps =>
    have htail : ∀ q ∈ ps, q.id = id := fun q hq => hids q (by simp [hq])
    rw [List.tail_cons] at hreplay
    rw [executed]
    by_cases hp : p.replay ∧ p.id ∈ accepted
    · rw [if_pos hp]
      have hid : id ∈ accepted := by rw [← hids p (by simp)]; exact hp.2
      rw [executed_of_accepted hid htail hreplay]
      exact Nat.zero_le 1
    · rw [if_neg hp]
      have hid : id ∈ p.id :: accepted := by rw [← hids p (by simp)]; exact List.mem_cons_self
      rw [List.length_cons, executed_of_accepted hid htail hreplay]
      exact Nat.le_refl 1

/-- The same of any of the requests that arrive. -/
theorem executed_length_le_one_of_sublist (accepted : List α) {id : α} {ps received : List (Post α)}
    (hsub : received.Sublist ps) (hids : ∀ p ∈ ps, p.id = id)
    (hreplay : ∀ p ∈ ps.tail, p.replay = true) : (executed accepted received).length ≤ 1 :=
  executed_length_le_one accepted (fun p hp => hids p (hsub.subset hp))
    fun p hp => hreplay p (hsub.tail.subset hp)

end SnowflakeSqlApi.Replay
