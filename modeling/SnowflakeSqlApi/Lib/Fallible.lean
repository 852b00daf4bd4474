import Mathlib.Data.List.Forall2

/-!
# Lists mapped by a fallible function

`mapM` in `Except` succeeds exactly when every element does, and then gives the list of
the results.  `List.Forall₂` is the relation between the two lists; the last section
takes it apart along appends and compositions.
-/

namespace SnowflakeSqlApi

variable {ε α β : Type}

theorem bind_eq_ok {x : Except ε α} {f : α → Except ε β} {b : β} :
    x >>= f = .ok b ↔ ∃ a, x = .ok a ∧ f a = .ok b := by
  cases x with
  | error e => simp [bind, Except.bind]
  | ok a => simp [bind, Except.bind]

theorem bind_eq_error {x : Except ε α} {f : α → Except ε β} {e : ε} :
    x >>= f = .error e ↔ x = .error e ∨ ∃ a, x = .ok a ∧ f a = .error e := by
  cases x with
  | error e' => simp [bind, Except.bind]
  | ok a => simp [bind, Except.bind]

theorem map_eq_ok {x : Except ε α} {f : α → β} {b : β} :
    x.map f = .ok b ↔ ∃ a, x = .ok a ∧ f a = b := by
  cases x with
  | error e => simp [Except.map]
  | ok a => simp [Except.map]

theorem mapM_cons_ok {f : α → Except ε β} {x : α} {xs : List α} {y : β} {ys : List β}
    (hx : f x = .ok y) (hxs : xs.mapM f = .ok ys) : (x :: xs).mapM f = .ok (y :: ys) := by
  rw [List.mapM_cons, hx, hxs]
  rfl

theorem mapM_congr {f g : α → Except ε β} {xs : List α} (h : ∀ x ∈ xs, f x = g x) :
    xs.mapM f = xs.mapM g := by
  induction xs with
  | nil => rfl
  | cons x xs ih =>
    rw [List.mapM_cons, List.mapM_cons, h x (by simp), ih fun y hy => h y (by simp [hy])]

theorem mapM_eq_ok {f : α → Except ε β} {xs : List α} {ys : List β} :
    xs.mapM f = .ok ys ↔ List.Forall₂ (fun x y => f x = .ok y) xs ys := by
  induction xs generalizing ys with
  | nil =>
    rw [List.mapM_nil]
    refine ⟨fun h => ?_, fun h => ?_⟩
    · cases h
      exact .nil
    · cases h
      rfl
  | cons x xs ih =>
    refine ⟨fun h => ?_, fun h => ?_⟩
    · rw [List.mapM_cons] at h
      cases hx : f x with
      | error e => rw [hx] at h; cases h
      | ok y =>
        cases hxs : xs.mapM f with
        | error e => rw [hx, hxs] at h; cases h
        | ok zs =>
          rw [hx, hxs] at h
          cases h
          exact .cons hx (ih.mp hxs)
    · obtain _ | ⟨hx, hxs⟩ := h
      exact mapM_cons_ok hx (ih.mpr hxs)

theorem exists_mapM_ok {f : α → Except ε β} {xs : List α} (h : ∀ x ∈ xs, ∃ y, f x = .ok y) :
    ∃ ys, xs.mapM f = .ok ys := by
  induction xs with
  | nil => exact ⟨[], rfl⟩
  | cons x xs ih =>
    obtain ⟨y, hy⟩ := h x (by simp)
    obtain ⟨ys, hys⟩ := ih fun x' hx' => h x' (by simp [hx'])
    exact ⟨y :: ys, mapM_cons_ok hy hys⟩

/-! ### Related lists -/

section Related

variable {α β γ : Type*} {R : α → β → Prop} {S : β → γ → Prop}

theorem exists_of_forall₂_left {xs : List α} {ys : List β} (h : List.Forall₂ R xs ys) {x : α}
    (hx : x ∈ xs) : ∃ y ∈ ys, R x y := by
  induction h with
  | nil => cases hx
  | cons hxy _ ih =>
    rcases List.mem_cons.mp hx with rfl | hx
    · exact ⟨_, List.mem_cons_self, hxy⟩
    · obtain ⟨y, hy, hxy⟩ := ih hx
      exact ⟨y, List.mem_cons_of_mem _ hy, hxy⟩

theorem exists_forall₂ {xs : List α} (h : ∀ x ∈ xs, ∃ y, R x y) :
    ∃ ys, List.Forall₂ R xs ys := by
  induction xs with
  | nil => exact ⟨[], .nil⟩
  | cons x xs ih =>
    obtain ⟨y, hy⟩ := h x (by simp)
    obtain ⟨ys, hys⟩ := ih fun x' hx' => h x' (by simp [hx'])
    exact ⟨y :: ys, .cons hy hys⟩

theorem forall₂_append_left {xs ys : List α} {zs : List β} :
    List.Forall₂ R (xs ++ ys) zs ↔
      ∃ as bs, List.Forall₂ R xs as ∧ List.Forall₂ R ys bs ∧ zs = as ++ bs := by
  refine ⟨fun h => ?_, fun h => ?_⟩
  · refine ⟨zs.take xs.length, zs.drop xs.length, ?_, ?_, (List.take_append_drop _ _).symm⟩
    · simpa using List.forall₂_take xs.length h
    · simpa using List.forall₂_drop xs.length h
  · obtain ⟨as, bs, hx, hy, rfl⟩ := h
    exact List.rel_append hx hy

theorem forall₂_comp {xs : List α} {zs : List γ} :
    List.Forall₂ (fun x z => ∃ y, R x y ∧ S y z) xs zs ↔
      ∃ ys, List.Forall₂ R xs ys ∧ List.Forall₂ S ys zs := by
  refine ⟨fun h => ?_, fun h => ?_⟩
  · induction h with
    | nil => exact ⟨[], .nil, .nil⟩
    | cons hxz _ ih =>
      obtain ⟨y, hx, hy⟩ := hxz
      obtain ⟨ys, hxs, hys⟩ := ih
      exact ⟨y :: ys, .cons hx hxs, .cons hy hys⟩
  · obtain ⟨ys, hx, hy⟩ := h
    induction hx generalizing zs with
    | nil =>
      cases hy
      exact .nil
    | cons hxy _ ih =>
      obtain _ | ⟨hyz, hy⟩ := hy
      exact .cons ⟨_, hxy, hyz⟩ (ih hy)

end Related

/-- Every element has its result. -/
theorem ok_of_mem_mapM {f : α → Except ε β} {xs : List α} {ys : List β} (h : xs.mapM f = .ok ys)
    {x : α} (hx : x ∈ xs) : ∃ y, f x = .ok y :=
  (exists_of_forall₂_left (mapM_eq_ok.mp h) hx).imp fun _ => And.right

/-! ### Up to the first error -/

/-- The results of a computation that stops at its first error. -/
def untilError : List (Except ε α) → List (Except ε α)
  | [] => []
  | .error e :: _ => [.error e]
  | .ok a :: results => .ok a :: untilError results

theorem untilError_append_of_ok (as : List α) (results : List (Except ε α)) :
    untilError (as.map .ok ++ results) = as.map .ok ++ untilError results := by
  induction as with
  | nil => rfl
  | cons a as ih => exact congrArg (.ok a :: ·) ih

/-- Without an error there is nothing to stop it. -/
theorem eq_of_untilError {results : List (Except ε α)} {as : List α}
    (h : untilError results = as.map .ok) : results = as.map .ok := by
  induction results generalizing as with
  | nil => exact h
  | cons result results ih =>
    cases as with
    | nil => cases result <;> cases h
    | cons a as =>
      cases result with
      | error e => cases h
      | ok b =>
        obtain ⟨hb, hrest⟩ := List.cons.inj h
        rw [List.map_cons, ← hb, ih hrest]

theorem untilError_append_of_error {results : List (Except ε α)} {as : List α} {e : ε}
    (h : untilError results = as.map .ok ++ [.error e]) (later : List (Except ε α)) :
    untilError (results ++ later) = as.map .ok ++ [.error e] := by
  induction results generalizing as with
  | nil =>
    cases as <;> cases h
  | cons result results ih =>
    cases result with
    | error e' =>
      rw [← h]
      rfl
    | ok b =>
      cases as with
      | nil => cases h
      | cons a as =>
        obtain ⟨hb, hrest⟩ := List.cons.inj h
        rw [List.map_cons, List.cons_append, ← hb]
        exact congrArg (.ok b :: ·) (ih hrest)

/-- What comes of the results does not depend on those after the first error. -/
theorem untilError_map_bind {results : List (Except ε α)} {g : α → Except ε β} {bs : List β} {e : ε}
    {later : List (Except ε β)}
    (h : results.map (fun result => result >>= g) = bs.map .ok ++ .error e :: later) :
    ∃ later', (untilError results).map (fun result => result >>= g) =
      bs.map .ok ++ .error e :: later' := by
  induction results generalizing bs with
  | nil =>
    cases bs <;> cases h
  | cons result results ih =>
    cases bs with
    | nil =>
      cases result with
      | error e' =>
        obtain ⟨he, -⟩ := List.cons.inj h
        exact ⟨[], congrArg (· :: []) he⟩
      | ok a =>
        obtain ⟨he, -⟩ := List.cons.inj h
        exact ⟨_, congrArg (· :: _) he⟩
    | cons b bs =>
      obtain ⟨hb, hrest⟩ := List.cons.inj h
      obtain ⟨later', hlater⟩ := ih hrest
      cases result with
      | error e' => cases hb
      | ok a =>
        have hfirst : (.ok a >>= g : Except ε β) = .ok b := hb
        refine ⟨later', ?_⟩
        rw [untilError, List.map_cons, hfirst, hlater]
        rfl

/-- Where all comes to something, so does every result. -/
theorem untilError_eq_self {results : List (Except ε α)} {g : α → Except ε β} {bs : List β}
    (h : results.map (fun result => result >>= g) = bs.map .ok) : untilError results = results := by
  induction results generalizing bs with
  | nil => rfl
  | cons result results ih =>
    cases bs with
    | nil => cases h
    | cons b bs =>
      obtain ⟨hb, hrest⟩ := List.cons.inj h
      cases result with
      | error e => cases hb
      | ok a => rw [untilError, ih hrest]

/-! ### Maps of maps -/

/-- Two maps one after the other. -/
theorem mapM_bind_ok {γ : Type} {f : α → Except ε β} {g : β → Except ε γ} {xs : List α}
    {zs : List γ} :
    xs.mapM (fun x => f x >>= g) = .ok zs ↔ ∃ ys, xs.mapM f = .ok ys ∧ ys.mapM g = .ok zs := by
  simp only [mapM_eq_ok, bind_eq_ok]
  exact forall₂_comp

/-- The elements of a list of lists. -/
theorem mapM_flatten_ok {f : α → Except ε β} {xss : List (List α)} {ys : List β} :
    xss.flatten.mapM f = .ok ys ↔
      ∃ yss, xss.mapM (fun xs => xs.mapM f) = .ok yss ∧ ys = yss.flatten := by
  simp only [mapM_eq_ok]
  induction xss generalizing ys with
  | nil =>
    refine ⟨fun h => ?_, fun ⟨yss, h, hys⟩ => ?_⟩
    · cases h
      exact ⟨[], .nil, rfl⟩
    · cases h
      rw [hys]
      exact .nil
  | cons xs xss ih =>
    rw [List.flatten_cons, forall₂_append_left]
    refine ⟨fun ⟨zs, rest, hzs, hrest, hys⟩ => ?_, fun ⟨yss, h, hys⟩ => ?_⟩
    · obtain ⟨yss, hyss, rfl⟩ := ih.mp hrest
      exact ⟨zs :: yss, .cons hzs hyss, hys⟩
    · obtain _ | ⟨hzs, hyss⟩ := h
      exact ⟨_, _, hzs, ih.mpr ⟨_, hyss, rfl⟩, hys⟩

end SnowflakeSqlApi
