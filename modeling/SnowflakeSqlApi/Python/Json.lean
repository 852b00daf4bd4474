import SnowflakeSqlApi.Python.Text

/-!
# JSON values

`Json` is a value of `json.loads`, and with `other` also the argument of a
`json.dumps` call, which may hold an object that has no JSON form.  Objects keep
their pairs in insertion order, as a `dict` does.

A float is known by what the code reads off it: its `repr` and its `int()`.
-/

namespace SnowflakeSqlApi

/-- A `float`: the text `repr` gives and the integer `int` truncates it to, `none` for a
NaN or an infinity. The integer has a few hundred digits at most. -/
structure PyFloat where
  repr : PyStr
  toInt : Option Int
  few : ∀ n ∈ toInt, FewDigits n
  deriving DecidableEq

namespace PyFloat

/-- A NaN or an infinity. -/
def nonFinite (repr : PyStr) : PyFloat where
  repr := repr
  toInt := none
  few := by simp

def isFinite (x : PyFloat) : Bool := x.toInt.isSome

/-- `repr` writes both zeros with the digits `0.0`. -/
def isZero (x : PyFloat) : Bool := x.repr = py "0.0" || x.repr = py "-0.0"

/-- `repr` ends in `.0`, or writes a positive exponent, exactly on the integral values. -/
def isInteger (x : PyFloat) : Bool :=
  x.repr.drop (x.repr.length - 2) = py ".0" || x.repr.contains (ch '+')

end PyFloat

inductive Json
  | null
  | bool (b : Bool)
  | int (n : Int)
  | float (x : PyFloat)
  | str (s : PyStr)
  | arr (xs : List Json)
  | obj (kvs : List (PyStr × Json))
  /-- An object of the named type, which `json.dumps` cannot serialise. -/
  | other (type : PyStr)

/-- `d[key] = value` on the pairs of a `dict`: an existing key keeps its place. -/
def assocSet {κ β : Type} [DecidableEq κ] : List (κ × β) → κ → β → List (κ × β)
  | [], key, value => [(key, value)]
  | (k, v) :: d, key, value =>
    if k = key then (k, value) :: d else (k, v) :: assocSet d key value

theorem assocSet_of_notMem {κ β : Type} [DecidableEq κ] {d : List (κ × β)} {key : κ} (value : β)
    (h : key ∉ d.map Prod.fst) : assocSet d key value = d ++ [(key, value)] := by
  induction d with
  | nil => rfl
  | cons kv d ih =>
    rw [List.map_cons, List.mem_cons, not_or] at h
    rw [assocSet, if_neg (Ne.symm h.1), ih h.2, List.cons_append]

/-- What an assignment leaves under a key. -/
theorem lookup_assocSet {β : Type} (d : List (PyStr × β)) (key key' : PyStr) (value : β) :
    (assocSet d key value).lookup key' = if key' = key then some value else d.lookup key' := by
  induction d with
  | nil =>
    rw [assocSet, List.lookup_cons]
    by_cases h : key' = key
    · rw [if_pos h, h, beq_self_eq_true]
    · rw [if_neg h, beq_eq_false_iff_ne.mpr h]
  | cons kv d ih =>
    obtain ⟨k, v⟩ := kv
    rw [assocSet]
    by_cases hk : k = key
    · rw [if_pos hk, List.lookup_cons, List.lookup_cons, hk]
      by_cases h : key' = key
      · rw [if_pos h, h, beq_self_eq_true]
      · rw [if_neg h, beq_eq_false_iff_ne.mpr h]
    · rw [if_neg hk, List.lookup_cons, List.lookup_cons, ih]
      by_cases h : key' = k
      · rw [h, beq_self_eq_true]
        exact (if_neg hk).symm
      · rw [beq_eq_false_iff_ne.mpr h]

theorem mem_assocSet {κ β : Type} [DecidableEq κ] {d : List (κ × β)} {key : κ} {value : β}
    {kv : κ × β} (h : kv ∈ assocSet d key value) : kv = (key, value) ∨ kv ∈ d := by
  induction d with
  | nil => exact .inl (List.mem_singleton.mp h)
  | cons entry d ih =>
    rw [assocSet] at h
    by_cases hk : entry.1 = key
    · rw [if_pos hk, hk] at h
      exact (List.mem_cons.mp h).imp_right (List.mem_cons_of_mem _)
    · rw [if_neg hk] at h
      rcases List.mem_cons.mp h with rfl | h
      · exact .inr List.mem_cons_self
      · exact (ih h).imp_right (List.mem_cons_of_mem _)

/-- **An assignment keeps the keys apart.** -/
theorem nodup_assocSet {κ β : Type} [DecidableEq κ] {d : List (κ × β)}
    (h : (d.map Prod.fst).Nodup) (key : κ) (value : β) :
    ((assocSet d key value).map Prod.fst).Nodup := by
  induction d with
  | nil => exact List.nodup_singleton key
  | cons entry d ih =>
    rw [List.map_cons, List.nodup_cons] at h
    rw [assocSet]
    by_cases hk : entry.1 = key
    · rw [if_pos hk]
      exact List.nodup_cons.mpr h
    · rw [if_neg hk, List.map_cons, List.nodup_cons]
      refine ⟨fun hmem => ?_, ih h.2⟩
      obtain ⟨kv, hkv, hfst⟩ := List.mem_map.mp hmem
      rcases mem_assocSet hkv with rfl | hkv
      · exact hk hfst.symm
      · exact h.1 (hfst ▸ List.mem_map_of_mem hkv)

/-- What pairs with distinct keys hold is found. -/
theorem lookup_of_nodup {κ β : Type} [BEq κ] [LawfulBEq κ] {d : List (κ × β)}
    (h : (d.map Prod.fst).Nodup) {kv : κ × β} (hkv : kv ∈ d) : d.lookup kv.1 = some kv.2 := by
  induction d with
  | nil => cases hkv
  | cons entry d ih =>
    rw [List.map_cons, List.nodup_cons] at h
    rw [List.lookup_cons]
    rcases List.mem_cons.mp hkv with rfl | hkv
    · rw [beq_self_eq_true]
    · have hne : kv.1 ≠ entry.1 := fun he => h.1 (he ▸ List.mem_map_of_mem hkv)
      rw [beq_eq_false_iff_ne.mpr hne]
      exact ih h.2 hkv

/-- A `dict` with text keys, in insertion order. -/
abbrev Dict := List (PyStr × Json)

namespace Dict

/-- `d.get(key)` without a default, `none` where the key is missing. -/
def get? (d : Dict) (key : PyStr) : Option Json := d.lookup key

/-- `d.get(key, default)`. -/
def getD (d : Dict) (key : PyStr) (default : Json) : Json := (d.get? key).getD default

/-- `d.get(key)`. -/
def get (d : Dict) (key : PyStr) : Json := d.getD key .null

/-- `d[key] = value`. -/
def set (d : Dict) (key : PyStr) (value : Json) : Dict := assocSet d key value

/-- `del d[key]`. -/
def del (d : Dict) (key : PyStr) : Dict := d.filter fun kv => kv.1 ≠ key

theorem get?_concat {d : Dict} {key : PyStr} (h : key ∉ d.map Prod.fst) (value : Json) :
    get? (d ++ [(key, value)]) key = some value := by
  induction d with
  | nil => simp [get?]
  | cons kv d ih =>
    rw [List.map_cons, List.mem_cons, not_or] at h
    have hne : (key == kv.1) = false := beq_eq_false_iff_ne.mpr h.1
    rw [get?, List.cons_append, List.lookup_cons, hne]
    exact ih h.2

theorem get?_of_mem {d : Dict} (h : (d.map Prod.fst).Nodup) {kv : PyStr × Json} (hkv : kv ∈ d) :
    d.get? kv.1 = some kv.2 := lookup_of_nodup h hkv

end Dict

/-- A hashable JSON value as a `dict` key: `1`, `1.0` and `True` are one key. -/
inductive Key
  | none
  | int (n : Int)
  | float (repr : PyStr)
  | str (s : PyStr)
  deriving DecidableEq

namespace Json

/-- The key of a value, `none` where it is unhashable. -/
def key? : Json → Option Key
  | null => some .none
  | bool b => some (.int (if b then 1 else 0))
  | int n => some (.int n)
  | float x =>
    some (match x.isInteger, x.toInt with
      | true, some n => .int n
      | _, _ => .float x.repr)
  | str s => some (.str s)
  | arr _ | obj _ => Option.none
  | other type => some (.str type)

/-- `bool(value)`. -/
def truthy : Json → Bool
  | null => false
  | bool b => b
  | int n => n ≠ 0
  | float x => !x.isZero
  | str s => !s.isEmpty
  | arr xs => !xs.isEmpty
  | obj kvs => !kvs.isEmpty
  | other _ => true

/-- `value or fallback`. -/
def orElse (value fallback : Json) : Json := if value.truthy then value else fallback

theorem orElse_of_truthy {value : Json} (h : value.truthy = true) (fallback : Json) :
    value.orElse fallback = value := if_pos h

theorem orElse_of_not_truthy {value : Json} (h : value.truthy = false) (fallback : Json) :
    value.orElse fallback = fallback := if_neg (by simp [h])

@[simp] theorem truthy_null : truthy null = false := rfl

end Json

end SnowflakeSqlApi
