import Mathlib.Algebra.Order.Field.Rat
import Mathlib.Tactic.Positivity
import SnowflakeSqlApi.Exceptions
import SnowflakeSqlApi.Lib.Fallible

/-!
# The retry policy

`retry.py`: which statuses are retried and how long to wait before a retry.  Lengths of
time are rational numbers here; of the floating-point behaviour only the overflow of
`**` is kept, which raises.

A wait depends on the draw of `random` and on what `parsedate_to_datetime` makes of an
HTTP date and the clock; both are given by a `Draw`.  `sleep` is where the two clients
differ: `time.sleep` refuses a negative or a too long wait, `asyncio.sleep` does not.
-/

namespace SnowflakeSqlApi

/-- `RetryPolicy`, with the checks of `__post_init__`. -/
structure RetryPolicy where
  maxAttempts : Int := 3
  baseBackoff : ℚ := 1 / 2
  maxBackoff : ℚ := 8
  multiplier : ℚ := 2
  jitter : Bool := true
  retryStatuses : List Nat := [408, 429, 500, 502, 503, 504]
  rateLimitBackoffMultiplier : ℚ := 10
  maxRetryAfter : ℚ := 60
  rateLimitBackoffMultiplier_nonneg : 0 ≤ rateLimitBackoffMultiplier := by decide
  maxRetryAfter_nonneg : 0 ≤ maxRetryAfter := by decide

/-- The surroundings of one wait. -/
structure Draw where
  /-- `random.random()`. -/
  unit : ℚ
  /-- The seconds from now to the time a header names, where it can be parsed. -/
  secondsUntil : PyStr → Option ℚ
  unit_nonneg : 0 ≤ unit
  unit_lt : unit < 1

/-- The lowest draw, at which no date can be read. -/
def idleDraw : Draw := ⟨0, fun _ => none, le_rfl, zero_lt_one⟩

/-- Floats from here on are infinite. -/
def floatBound : ℚ := 2 ^ 1024 - 2 ^ 970

/-- `base ** exponent` on floats. -/
def floatPow (base : ℚ) (exponent : Nat) : Except Exc ℚ :=
  if floatBound ≤ |base ^ exponent| then
    .error (.overflowError [lit "Numerical result out of range"])
  else .ok (base ^ exponent)

namespace RetryPolicy

variable (policy : RetryPolicy)

/-- `ceiling_for`, the base multiplied by `factor`. -/
def ceilingFor (factor : ℚ) (attempt : Nat) : Except Exc ℚ := do
  let growth ← floatPow policy.multiplier attempt
  pure (min (policy.baseBackoff * factor * growth) policy.maxBackoff)

/-- `random.uniform(0.0, ceiling) if self.jitter else ceiling`. -/
def spread (draw : Draw) (ceiling : ℚ) : ℚ := if policy.jitter then ceiling * draw.unit else ceiling

def backoffFor (draw : Draw) (attempt : Nat) : Except Exc ℚ := do
  let ceiling ← policy.ceilingFor 1 attempt
  pure (policy.spread draw ceiling)

/-- `re.fullmatch(r"[0-9]+", value)`, as the number. -/
def delaySeconds (value : PyStr) : Option Nat :=
  if value.all fun c => (digitValue c).isSome then digitRun 0 false value else none

/-- The wait a `Retry-After` header asks for: delay-seconds, or an HTTP date. -/
def retryAfterDelay (policy : RetryPolicy) (draw : Draw) (header : PyStr) : Option ℚ :=
  let value := stripBy (fun c => c = ch ' ' || c = ch '\t') header
  match delaySeconds value with
  | some seconds => some (min (seconds : ℚ) policy.maxRetryAfter)
  | none => (draw.secondsUntil value).map fun delay => min (max 0 delay) policy.maxRetryAfter

def delayFor (draw : Draw) (attempt : Nat) (statusCode : Option Nat) (retryAfter : Option PyStr) :
    Except Exc ℚ :=
  match retryAfter.bind (policy.retryAfterDelay draw) with
  | some delay => .ok delay
  | none =>
    if statusCode ≠ some 429 then policy.backoffFor draw attempt
    else do
      let ceiling ← policy.ceilingFor policy.rateLimitBackoffMultiplier attempt
      pure (policy.spread draw ceiling)

def shouldRetryStatus (statusCode : Nat) : Bool := statusCode ∈ policy.retryStatuses

end RetryPolicy

/-- `DEFAULT_RETRY_POLICY`. -/
def defaultRetryPolicy : RetryPolicy := {}

/-! ### Waiting -/

/-- Which of the two clients waits. -/
inductive Mode
  | sync
  | async
  deriving DecidableEq

/-- The longest wait `time.sleep` takes. -/
def longestSleep : ℚ := 9223372036854775807 / 1000000000

/-- `time.sleep` and `asyncio.sleep`. -/
def sleep : Mode → ℚ → Except Exc Unit
  | .async, _ => .ok ()
  | .sync, delay =>
    if delay < 0 then .error (.valueError [lit "sleep length must be non-negative"])
    else if longestSleep < delay then
      .error (.overflowError [lit "timestamp too large to convert to C PyTime_t"])
    else .ok ()

theorem sleep_error_builtin {mode : Mode} {delay : ℚ} {e : Exc} (h : sleep mode delay = .error e) :
    e.IsBuiltin := by
  cases mode with
  | async => cases h
  | sync =>
    rw [sleep] at h
    split at h
    · cases h
      exact ⟨"ValueError", _, List.cons_ne_nil _ _, rfl⟩
    · split at h
      · cases h
        exact ⟨"OverflowError", _, List.cons_ne_nil _ _, rfl⟩
      · cases h

namespace RetryPolicy

variable (policy : RetryPolicy)

/-- The waits of the policy between its attempts all succeed. -/
def CanWait (mode : Mode) : Prop :=
  ∀ attempt : Nat, (attempt : Int) + 1 < policy.maxAttempts → ∀ draw statusCode retryAfter,
    ∃ delay, policy.delayFor draw attempt statusCode retryAfter = .ok delay ∧
      sleep mode delay = .ok ()

variable {policy}

theorem spread_bounds (draw : Draw) {ceiling : ℚ} (h : 0 ≤ ceiling) :
    0 ≤ policy.spread draw ceiling ∧ policy.spread draw ceiling ≤ ceiling := by
  rw [spread]
  by_cases hj : policy.jitter = true
  · rw [if_pos hj]
    exact ⟨mul_nonneg h draw.unit_nonneg, mul_le_of_le_one_right h draw.unit_lt.le⟩
  · rw [if_neg hj]
    exact ⟨h, le_rfl⟩

theorem sleep_of_bounds (mode : Mode) {delay : ℚ} (h : 0 ≤ delay) (hle : delay ≤ longestSleep) :
    sleep mode delay = .ok () := by
  cases mode with
  | async => rfl
  | sync => rw [sleep, if_neg (not_lt.mpr h), if_neg (not_lt.mpr hle)]

/-- A header never asks for more than the cap, nor for less than nothing. -/
theorem retryAfterDelay_bounds {draw : Draw} {header : PyStr} {delay : ℚ}
    (h : policy.retryAfterDelay draw header = some delay) :
    0 ≤ delay ∧ delay ≤ policy.maxRetryAfter := by
  rw [retryAfterDelay] at h
  split at h
  · cases h
    exact ⟨le_min (Nat.cast_nonneg _) policy.maxRetryAfter_nonneg, min_le_right _ _⟩
  · obtain ⟨seconds, _, rfl⟩ := Option.map_eq_some_iff.mp h
    exact ⟨le_min (le_max_left _ _) policy.maxRetryAfter_nonneg, min_le_right _ _⟩

variable (policy) in
/-- The factor of the base in the schedule of a status. -/
def factor (statusCode : Option Nat) : ℚ :=
  if statusCode = some 429 then policy.rateLimitBackoffMultiplier else 1

theorem factor_nonneg (statusCode : Option Nat) : 0 ≤ policy.factor statusCode := by
  unfold factor
  split
  · exact policy.rateLimitBackoffMultiplier_nonneg
  · exact zero_le_one

section Delay

variable {draw : Draw} {attempt : Nat} {statusCode : Option Nat} {retryAfter : Option PyStr}

theorem delayFor_of_header {delay : ℚ}
    (h : retryAfter.bind (policy.retryAfterDelay draw) = some delay) :
    policy.delayFor draw attempt statusCode retryAfter = .ok delay := by
  rw [delayFor, h]

/-- Both schedules, as one. -/
theorem delayFor_of_schedule (h : retryAfter.bind (policy.retryAfterDelay draw) = none) :
    policy.delayFor draw attempt statusCode retryAfter = (do
      let ceiling ← policy.ceilingFor (policy.factor statusCode) attempt
      pure (policy.spread draw ceiling)) := by
  rw [delayFor, h, factor]
  by_cases hstatus : statusCode = some 429
  · simp only [hstatus, ne_eq, not_true_eq_false, if_false, if_true]
  · simp only [hstatus, ne_eq, not_false_eq_true, if_false, if_true]
    rfl

/-- **Every wait** is what a header asks for, or the spread of a ceiling. -/
theorem delayFor_cases {delay : ℚ}
    (h : policy.delayFor draw attempt statusCode retryAfter = .ok delay) :
    (∃ header, retryAfter = some header ∧ policy.retryAfterDelay draw header = some delay) ∨
      retryAfter.bind (policy.retryAfterDelay draw) = none ∧
        ∃ ceiling, policy.ceilingFor (policy.factor statusCode) attempt = .ok ceiling ∧
          delay = policy.spread draw ceiling := by
  cases hheader : retryAfter.bind (policy.retryAfterDelay draw) with
  | some seconds =>
    rw [delayFor_of_header hheader] at h
    cases h
    exact .inl (Option.bind_eq_some_iff.mp hheader)
  | none =>
    rw [delayFor_of_schedule hheader] at h
    obtain ⟨ceiling, hceiling, h⟩ := bind_eq_ok.mp h
    cases h
    exact .inr ⟨rfl, ceiling, hceiling, rfl⟩

theorem delayFor_error_builtin {e : Exc}
    (h : policy.delayFor draw attempt statusCode retryAfter = .error e) : e.IsBuiltin := by
  cases hheader : retryAfter.bind (policy.retryAfterDelay draw) with
  | some seconds =>
    rw [delayFor_of_header hheader] at h
    cases h
  | none =>
    rw [delayFor_of_schedule hheader] at h
    rcases bind_eq_error.mp h with h | ⟨_, _, h⟩
    · rw [ceilingFor, floatPow] at h
      split at h
      · cases h
        exact ⟨"OverflowError", _, List.cons_ne_nil _ _, rfl⟩
      · cases h
    · cases h

end Delay

theorem ceilingFor_ok {factor : ℚ} {attempt : Nat} {ceiling : ℚ} :
    policy.ceilingFor factor attempt = .ok ceiling ↔ |policy.multiplier ^ attempt| < floatBound ∧
      ceiling =
        min (policy.baseBackoff * factor * policy.multiplier ^ attempt) policy.maxBackoff := by
  unfold ceilingFor floatPow
  by_cases hgrowth : floatBound ≤ |policy.multiplier ^ attempt|
  · rw [if_pos hgrowth]
    constructor
    · intro h
      cases h
    · intro h
      exact absurd hgrowth (not_le.mpr h.1)
  · rw [if_neg hgrowth]
    constructor
    · intro h
      cases h
      exact ⟨not_le.mp hgrowth, rfl⟩
    · rintro ⟨_, rfl⟩
      rfl

/-- **When a policy can wait**: its lengths of time are not negative nor too long, and its
growth does not overflow within the attempts. -/
theorem canWait_of_bounds (hbase : 0 ≤ policy.baseBackoff) (hmultiplier : 0 ≤ policy.multiplier)
    (hmax : 0 ≤ policy.maxBackoff) (hlong : policy.maxBackoff ≤ longestSleep)
    (hafter : policy.maxRetryAfter ≤ longestSleep)
    (hgrowth : ∀ attempt : Nat, (attempt : Int) + 1 < policy.maxAttempts →
      policy.multiplier ^ attempt < floatBound) (mode : Mode) : policy.CanWait mode := by
  intro attempt hattempt draw statusCode retryAfter
  cases hheader : retryAfter.bind (policy.retryAfterDelay draw) with
  | some delay =>
    obtain ⟨header, _, hdelay⟩ := Option.bind_eq_some_iff.mp hheader
    obtain ⟨hnonneg, hle⟩ := retryAfterDelay_bounds hdelay
    exact ⟨delay, delayFor_of_header hheader, sleep_of_bounds mode hnonneg (hle.trans hafter)⟩
  | none =>
    have hpow : 0 ≤ policy.multiplier ^ attempt := pow_nonneg hmultiplier attempt
    have hbound : |policy.multiplier ^ attempt| < floatBound := by
      rw [abs_of_nonneg hpow]
      exact hgrowth attempt hattempt
    obtain ⟨ceiling, hceiling⟩ : ∃ ceiling,
        policy.ceilingFor (policy.factor statusCode) attempt = .ok ceiling :=
      ⟨_, ceilingFor_ok.mpr ⟨hbound, rfl⟩⟩
    obtain ⟨_, hvalue⟩ := ceilingFor_ok.mp hceiling
    have hnonneg : 0 ≤ ceiling := by
      rw [hvalue]
      exact le_min (mul_nonneg (mul_nonneg hbase (factor_nonneg statusCode)) hpow) hmax
    have hle : ceiling ≤ longestSleep := by
      rw [hvalue]
      exact (min_le_right _ _).trans hlong
    have hspread : 0 ≤ policy.spread draw ceiling ∧ policy.spread draw ceiling ≤ ceiling :=
      spread_bounds draw hnonneg
    refine ⟨_, ?_, sleep_of_bounds mode hspread.1 (hspread.2.trans hle)⟩
    rw [delayFor_of_schedule hheader, hceiling]
    rfl

end RetryPolicy

end SnowflakeSqlApi
