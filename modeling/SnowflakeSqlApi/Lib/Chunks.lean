import Mathlib.Data.List.Basic
import Mathlib.Tactic.Ring

/-!
# Consecutive chunks of a list

`slices size xs` cuts a list every `size` elements, `pad` fills a list of chunks up with empty
ones.  `flatten_slices` says that no element is lost or moved, `length_slices_le` how many slices
there are at most.

`IsChunks size xs chunks` says what chunks of a given size are, however they are made; there is
one such list (`IsChunks.unique`).
-/

namespace SnowflakeSqlApi.Chunks

variable {α β : Type*}

/-! ### Slices -/

/-- The slices at `0, size, 2 * size, ...`. -/
def slices (size : Nat) (xs : List α) : List (List α) :=
  (List.range ((xs.length + size - 1) / size)).map fun k => (xs.drop (k * size)).take size

def pad (count : Nat) (chunks : List (List α)) : List (List α) :=
  chunks ++ List.replicate (count - chunks.length) []

theorem length_slices (size : Nat) (xs : List α) :
    (slices size xs).length = (xs.length + size - 1) / size := by
  rw [slices, List.length_map, List.length_range]

/-- The first `count` slices are a prefix. -/
theorem flatten_slices_take (size count : Nat) (xs : List α) :
    ((List.range count).map fun k => (xs.drop (k * size)).take size).flatten =
      xs.take (count * size) := by
  induction count with
  | zero => simp
  | succ count ih =>
    rw [List.range_succ, List.map_append, List.flatten_append, ih, List.map_singleton,
      List.flatten_singleton, Nat.succ_mul, List.take_add]

/-- **No element is lost or moved.** -/
theorem flatten_slices {size : Nat} (hsize : 0 < size) (xs : List α) :
    (slices size xs).flatten = xs := by
  rw [slices, flatten_slices_take, List.take_of_length_le]
  have hlast := Nat.lt_div_mul_add (a := xs.length + size - 1) hsize
  omega

/-- So many slices at most, where they make up the length. -/
theorem length_slices_le {size count : Nat} {xs : List α} (hsize : 0 < size)
    (h : xs.length ≤ count * size) : (slices size xs).length ≤ count := by
  rw [length_slices]
  refine Nat.le_of_lt_succ ((Nat.div_lt_iff_lt_mul hsize).mpr ?_)
  rw [Nat.succ_mul]
  omega

theorem flatten_pad (count : Nat) (chunks : List (List α)) :
    (pad count chunks).flatten = chunks.flatten := by
  rw [pad, List.flatten_append, List.flatten_replicate_nil, List.append_nil]

theorem length_pad {count : Nat} {chunks : List (List α)} (h : chunks.length ≤ count) :
    (pad count chunks).length = count := by
  rw [pad, List.length_append, List.length_replicate]
  omega

/-! ### Chunks of a size -/

/-- `chunks` are the consecutive chunks of `xs`: all of the given size but the last, which is not
empty. -/
structure IsChunks (size : Nat) (xs : List α) (chunks : List (List α)) : Prop where
  flatten : chunks.flatten = xs
  full : ∀ chunk ∈ chunks.dropLast, chunk.length = size
  last : ∀ chunk ∈ chunks.getLast?, chunk ≠ [] ∧ chunk.length ≤ size

namespace IsChunks

variable {size : Nat} {xs : List α} {chunks : List (List α)}

theorem nil : IsChunks size ([] : List α) [] := ⟨rfl, by simp, by simp⟩

theorem of_le (hxs : xs ≠ []) (hle : xs.length ≤ size) : IsChunks size xs [xs] :=
  ⟨by simp, by simp, by simpa using ⟨hxs, hle⟩⟩

/-- One more full chunk before the others. -/
theorem cons (hsize : 0 < size) {chunk : List α} (hchunk : chunk.length = size)
    (h : IsChunks size xs chunks) : IsChunks size (chunk ++ xs) (chunk :: chunks) := by
  cases chunks with
  | nil =>
    have hxs : xs = [] := h.flatten.symm
    have hne : chunk ≠ [] := List.ne_nil_of_length_pos (by omega)
    rw [hxs, List.append_nil]
    exact of_le hne (by omega)
  | cons next chunks =>
    refine ⟨by rw [List.flatten_cons, h.flatten], ?_, ?_⟩
    · rw [List.dropLast_cons_of_ne_nil (by simp)]
      intro c hc
      rcases List.mem_cons.mp hc with rfl | hc
      · exact hchunk
      · exact h.full c hc
    · rw [List.getLast?_cons_cons]
      exact h.last

/-- Without its first chunk. -/
theorem tail {chunk : List α} (h : IsChunks size xs (chunk :: chunks)) :
    IsChunks size chunks.flatten chunks := by
  cases chunks with
  | nil => exact nil
  | cons next chunks =>
    refine ⟨rfl, fun c hc => h.full c ?_, fun c hc => h.last c ?_⟩
    · rw [List.dropLast_cons_of_ne_nil (by simp)]
      exact List.mem_cons_of_mem _ hc
    · rwa [List.getLast?_cons_cons]

/-- The first chunk is as long as it can be. -/
theorem head_eq_take {chunk : List α} (h : IsChunks size xs (chunk :: chunks)) :
    chunk = xs.take size := by
  rw [← h.flatten, List.flatten_cons]
  cases chunks with
  | nil =>
    have hlast := h.last chunk (by simp)
    rw [List.flatten_nil, List.append_nil, List.take_of_length_le hlast.2]
  | cons next chunks =>
    have hfull := h.full chunk (by simp)
    rw [← hfull, List.take_left]

/-- Chunks of something are something. -/
theorem eq_nil_iff (hsize : 0 < size) (h : IsChunks size xs chunks) : chunks = [] ↔ xs = [] := by
  constructor
  · rintro rfl
    exact h.flatten.symm
  · rintro rfl
    cases chunks with
    | nil => rfl
    | cons chunk chunks =>
      have hchunk : chunk = [] := by rw [h.head_eq_take, List.take_nil]
      cases chunks with
      | nil => exact absurd hchunk (h.last chunk (by simp)).1
      | cons next chunks =>
        have hfull := h.full chunk (by simp)
        rw [hchunk, List.length_nil] at hfull
        omega

/-- **There is one way to cut a list** into chunks of a size. -/
theorem unique (hsize : 0 < size) {chunks' : List (List α)} (h : IsChunks size xs chunks)
    (h' : IsChunks size xs chunks') : chunks = chunks' := by
  induction chunks generalizing xs chunks' with
  | nil => exact ((h'.eq_nil_iff hsize).mpr ((h.eq_nil_iff hsize).mp rfl)).symm
  | cons chunk chunks ih =>
    cases chunks' with
    | nil => exact absurd ((h.eq_nil_iff hsize).mpr ((h'.eq_nil_iff hsize).mp rfl)) (by simp)
    | cons chunk' chunks' =>
      have hhead : chunk = chunk' := h.head_eq_take.trans h'.head_eq_take.symm
      have hrest : chunks.flatten = chunks'.flatten := by
        have hflatten := h.flatten.trans h'.flatten.symm
        rw [List.flatten_cons, List.flatten_cons, hhead] at hflatten
        exact List.append_cancel_left hflatten
      have htail := h'.tail
      rw [← hrest] at htail
      rw [hhead, ih h.tail htail]

end IsChunks

end SnowflakeSqlApi.Chunks
