import SnowflakeSqlApi.TransportSpec

/-!
# The waits of a call

`steps` is a call of `_send` as the list of what it does: its attempts, and its calls of
`sleep` with their lengths.  Without the waits it is the list of the requests that `send`
gives (`steps_exchanges`).

`Resumes` says how a call goes on after an attempt.  What it should do is `Paced`, and
`paces_iff` says which policies do so: the schedule of a policy is not checked to be
without negative lengths.
-/

namespace SnowflakeSqlApi

/-- A step of a call. -/
inductive Step
  /-- An attempt, and its request unless signing the token failed. -/
  | attempt (sent : Option Exchange)
  /-- A wait. -/
  | slept (delay : ℚ)
  /-- A wait that `sleep` refused for its length. -/
  | refused (delay : ℚ)

namespace Step

def exchange? : Step → Option Exchange
  | attempt sent => sent
  | slept _ | refused _ => none

/-- The length that `sleep` is called with. -/
def delay? : Step → Option ℚ
  | attempt _ => none
  | slept delay | refused delay => some delay

def isRefused : Step → Bool
  | refused _ => true
  | _ => false

end Step

/-- The lengths of the waits of a call, in order. -/
def waits (steps : List Step) : List ℚ := steps.filterMap Step.delay?

namespace RetryPolicy

/-- The wait before an attempt, and whether the attempt is made. -/
def pause (policy : RetryPolicy) (mode : Mode) (draw : Draw) (attempt : Nat)
    (retryResponse : Option Response) : List Step × Bool :=
  match attempt with
  | 0 => ([], true)
  | attempt + 1 =>
    match policy.delayFor draw attempt (retryResponse.map (·.statusCode))
      (retryResponse.bind (·.retryAfter)) with
    | .error _ => ([], false)
    | .ok delay =>
      match sleep mode delay with
      | .error _ => ([.refused delay], false)
      | .ok () => ([.slept delay], true)

end RetryPolicy

/-- The loop of `_send` from attempt `attempt` on, `n` attempts being left, step by step. -/
def stepsFrom (policy : RetryPolicy) (mode : Mode) (request : Request) (script : Script) :
    Nat → Nat → Option Response → List Step
  | 0, _, _ => []
  | n + 1, attempt, retryResponse =>
    let pause := policy.pause mode (script attempt).draw attempt retryResponse
    let exchange := ⟨request.attempt attempt, (script attempt).event⟩
    pause.1 ++ if pause.2 then
      match (script attempt).event with
      | .tokenError _ => [.attempt none]
      | .failed _ => [.attempt (some exchange)]
      | .lost _ =>
        .attempt (some exchange) :: stepsFrom policy mode request script n (attempt + 1) none
      | .answered r =>
        .attempt (some exchange) ::
          if policy.shouldRetryStatus r.statusCode then
            stepsFrom policy mode request script n (attempt + 1) (some r)
          else []
    else []

/-- A call of `_send`, step by step. -/
def steps (policy : RetryPolicy) (mode : Mode) (request : Request) (script : Script) : List Step :=
  stepsFrom policy mode request script policy.maxAttempts.toNat 0 none

section Steps

variable {policy : RetryPolicy} {mode : Mode} {request : Request} {script : Script}

/-! ### The steps and the loop -/

/-- **What a pause does**: nothing, a wait that is refused, or a wait. -/
theorem pause_succ_cases {draw : Draw} {k : Nat} {retryResponse : Option Response} :
    ((∃ e, policy.delayFor draw k (retryResponse.map (·.statusCode))
          (retryResponse.bind (·.retryAfter)) = .error e) ∧
        policy.pause mode draw (k + 1) retryResponse = ([], false)) ∨
      ∃ delay, policy.delayFor draw k (retryResponse.map (·.statusCode))
          (retryResponse.bind (·.retryAfter)) = .ok delay ∧
        ((∃ e, sleep mode delay = .error e) ∧
            policy.pause mode draw (k + 1) retryResponse = ([.refused delay], false) ∨
          sleep mode delay = .ok () ∧
            policy.pause mode draw (k + 1) retryResponse = ([.slept delay], true)) := by
  unfold RetryPolicy.pause
  cases hdelay : policy.delayFor draw k (retryResponse.map (·.statusCode))
      (retryResponse.bind (·.retryAfter)) with
  | error e => exact .inl ⟨⟨e, rfl⟩, by simp only [hdelay]⟩
  | ok delay =>
    refine .inr ⟨delay, rfl, ?_⟩
    cases hsleep : sleep mode delay with
    | error e => exact .inl ⟨⟨e, rfl⟩, by simp only [hdelay, hsleep]⟩
    | ok _ => exact .inr ⟨rfl, by simp only [hdelay, hsleep]⟩

theorem exchanges_pause {draw : Draw} {k : Nat} {retryResponse : Option Response} :
    (policy.pause mode draw k retryResponse).1.filterMap Step.exchange? = [] := by
  cases k with
  | zero => rfl
  | succ k =>
    rcases pause_succ_cases with ⟨_, hpause⟩ | ⟨_, _, ⟨_, hpause⟩ | ⟨_, hpause⟩⟩
    · rw [hpause]
      rfl
    · rw [hpause]
      rfl
    · rw [hpause]
      rfl

/-- The attempt is made exactly where the wait of the loop succeeds. -/
theorem pause_of_wait {draw : Draw} {k : Nat} {retryResponse : Option Response} :
    (∃ e, policy.wait mode draw k retryResponse = .error e) ∧
        (policy.pause mode draw k retryResponse).2 = false ∨
      policy.wait mode draw k retryResponse = .ok () ∧
        (policy.pause mode draw k retryResponse).2 = true := by
  cases k with
  | zero => exact .inr ⟨rfl, rfl⟩
  | succ k =>
    rw [RetryPolicy.wait]
    rcases pause_succ_cases with ⟨⟨e, hdelay⟩, hpause⟩ |
      ⟨delay, hdelay, ⟨⟨e, hsleep⟩, hpause⟩ | ⟨hsleep, hpause⟩⟩
    · rw [hpause, hdelay]
      exact .inl ⟨⟨e, rfl⟩, rfl⟩
    · rw [hpause, hdelay]
      exact .inl ⟨⟨e, hsleep⟩, rfl⟩
    · rw [hpause, hdelay]
      exact .inr ⟨hsleep, rfl⟩

theorem stepsFrom_exchanges {n k : Nat} {st : LoopState} :
    (stepsFrom policy mode request script n k st.retryResponse).filterMap Step.exchange? =
      (attemptFrom policy mode request script n k st).1 := by
  induction n generalizing k st with
  | zero => rfl
  | succ n ih =>
    unfold stepsFrom attemptFrom
    dsimp only
    rw [List.filterMap_append, exchanges_pause, List.nil_append]
    rcases @pause_of_wait policy mode (script k).draw k st.retryResponse with
      ⟨⟨e, hwait⟩, hpause⟩ | ⟨hwait, hpause⟩
    · rw [hwait, hpause]
      rfl
    · rw [if_pos hpause, hwait]
      dsimp only
      cases (script k).event with
      | tokenError name => rfl
      | failed name => rfl
      | lost name =>
        have hrest := @ih (k + 1) { st with
          attempts := st.attempts + 1
          retryResponse := none
          lastExc := some (transportError name) }
        exact congrArg (List.cons _) hrest
      | answered r =>
        by_cases hretry : policy.shouldRetryStatus r.statusCode = true
        · have hrest := @ih (k + 1) { st with
            attempts := st.attempts + 1
            lastExc := some r.retryError
            retryResponse := some r
            knownHandle :=
              if request.isSubmit && r.handle.truthy then r.handle else st.knownHandle }
          simp only [if_pos hretry]
          exact congrArg (List.cons _) hrest
        · simp only [if_neg hretry]
          rfl

/-- **The steps of a call issue the requests of the call.** -/
theorem steps_exchanges : (steps policy mode request script).filterMap Step.exchange? =
    (send policy mode request script).1 :=
  @stepsFrom_exchanges policy mode request script policy.maxAttempts.toNat 0 {}

/-! ### How a call goes on -/

/-- The wait after attempt `k`. -/
def RetryPolicy.delayAfter (policy : RetryPolicy) (script : Script) (k : Nat) : Except Exc ℚ :=
  policy.delayFor (script (k + 1)).draw k ((script k).event.response.map (·.statusCode))
    ((script k).event.response.bind (·.retryAfter))

/-- The steps of a call after attempt `k`, where at most `n` attempts are left. -/
inductive Resumes (policy : RetryPolicy) (mode : Mode) (script : Script) :
    Nat → Nat → List Step → Prop
  | done {n k : Nat} : Resumes policy mode script n k []
  | refused {n k : Nat} {delay : ℚ} {e : Exc} : policy.delayAfter script k = .ok delay →
      sleep mode delay = .error e → Resumes policy mode script (n + 1) k [.refused delay]
  | slept {n k : Nat} {delay : ℚ} {sent : Option Exchange} {rest : List Step} :
      policy.delayAfter script k = .ok delay → sleep mode delay = .ok () →
      Resumes policy mode script n (k + 1) rest →
      Resumes policy mode script (n + 1) k (.slept delay :: .attempt sent :: rest)

/-- An attempt, and what the loop does after it. -/
theorem stepsFrom_succ {n k : Nat} {retryResponse : Option Response} : ∃ sent rest,
    (rest = [] ∨
      rest = stepsFrom policy mode request script n (k + 1) (script.retryResponse (k + 1))) ∧
    stepsFrom policy mode request script (n + 1) k retryResponse =
      (policy.pause mode (script k).draw k retryResponse).1 ++
        if (policy.pause mode (script k).draw k retryResponse).2 then .attempt sent :: rest
        else [] := by
  rw [stepsFrom, Script.retryResponse]
  cases hevent : (script k).event with
  | tokenError name => exact ⟨none, [], .inl rfl, rfl⟩
  | failed name => exact ⟨_, [], .inl rfl, rfl⟩
  | lost name => exact ⟨_, _, .inr rfl, rfl⟩
  | answered r =>
    by_cases hretry : policy.shouldRetryStatus r.statusCode = true
    · simp only [if_pos hretry]
      exact ⟨_, _, .inr rfl, rfl⟩
    · simp only [if_neg hretry]
      exact ⟨_, [], .inl rfl, rfl⟩

theorem resumes_stepsFrom {n k : Nat} : Resumes policy mode script n k
    (stepsFrom policy mode request script n (k + 1) (script.retryResponse (k + 1))) := by
  induction n generalizing k with
  | zero => exact .done
  | succ n ih =>
    obtain ⟨sent, rest, hrest, hsteps⟩ := @stepsFrom_succ policy mode request script n (k + 1)
      (script.retryResponse (k + 1))
    have hresumes : Resumes policy mode script n (k + 1) rest := by
      rcases hrest with rfl | rfl
      · exact .done
      · exact ih
    rw [hsteps]
    rcases pause_succ_cases with ⟨_, hpause⟩ |
      ⟨delay, hdelay, ⟨⟨e, hsleep⟩, hpause⟩ | ⟨hsleep, hpause⟩⟩
    · rw [hpause]
      exact .done
    · rw [hpause]
      exact .refused hdelay hsleep
    · rw [hpause]
      exact .slept hdelay hsleep hresumes

/-- **How a call goes**: one attempt, and on from there. -/
theorem steps_cases : (policy.maxAttempts ≤ 0 ∧ steps policy mode request script = []) ∨
    ∃ (n : Nat) (sent : Option Exchange) (rest : List Step), policy.maxAttempts = (n : Int) + 1 ∧
      Resumes policy mode script n 0 rest ∧
      steps policy mode request script = .attempt sent :: rest := by
  rcases le_or_gt policy.maxAttempts 0 with hle | hpos
  · refine .inl ⟨hle, ?_⟩
    rw [steps, Int.toNat_of_nonpos hle]
    rfl
  · obtain ⟨n, hn⟩ : ∃ n, policy.maxAttempts.toNat = n + 1 :=
      ⟨policy.maxAttempts.toNat - 1, by omega⟩
    obtain ⟨sent, rest, hrest, hsteps⟩ := @stepsFrom_succ policy mode request script n 0 none
    refine .inr ⟨n, sent, rest, by omega, ?_, ?_⟩
    · rcases hrest with rfl | rfl
      · exact .done
      · exact resumes_stepsFrom
    · rw [steps, hn, hsteps]
      rfl

/-! ### Waits as they should be -/

/-- Attempts with one wait between each two of them, and none after the last. -/
inductive Alternates : List Step → Prop
  | last {sent : Option Exchange} : Alternates [.attempt sent]
  | next {sent : Option Exchange} {delay : ℚ} {rest : List Step} : Alternates rest →
      Alternates (.attempt sent :: .slept delay :: rest)

theorem Resumes.alternates {n k : Nat} {rest : List Step} (h : Resumes policy mode script n k rest)
    (sent : Option Exchange) :
    Alternates (.attempt sent :: rest.filter fun step => !step.isRefused) := by
  induction h generalizing sent with
  | done => exact .last
  | refused _ _ => exact .last
  | slept _ _ _ ih => exact .next (ih _)

theorem Resumes.sleep_error {n k : Nat} {rest : List Step} (h : Resumes policy mode script n k rest)
    {delay : ℚ} (hmem : .refused delay ∈ rest) : ∃ e, sleep mode delay = .error e := by
  induction h with
  | done => cases hmem
  | refused _ hsleep =>
    rcases List.mem_singleton.mp hmem with ⟨rfl⟩
    exact ⟨_, hsleep⟩
  | slept _ _ _ ih =>
    rcases List.mem_cons.mp hmem with hmem | hmem
    · cases hmem
    · rcases List.mem_cons.mp hmem with hmem | hmem
      · cases hmem
      · exact ih hmem

/-- **The `i`-th wait from here** is the one after the `i`-th attempt from here. -/
theorem Resumes.delayAfter {n k : Nat} {rest : List Step} (h : Resumes policy mode script n k rest)
    {i : Nat} {delay : ℚ} (hdelay : (waits rest)[i]? = some delay) :
    i < n ∧ policy.delayAfter script (k + i) = .ok delay := by
  induction h generalizing i with
  | done => simp [waits] at hdelay
  | refused hok _ =>
    cases i with
    | zero =>
      cases hdelay
      exact ⟨Nat.succ_pos _, hok⟩
    | succ i => simp [waits, Step.delay?] at hdelay
  | @slept n k _ _ _ hok _ _ ih =>
    cases i with
    | zero =>
      cases hdelay
      exact ⟨Nat.succ_pos _, hok⟩
    | succ i =>
      obtain ⟨hi, hafter⟩ := ih hdelay
      refine ⟨Nat.succ_lt_succ hi, ?_⟩
      rw [← Nat.add_assoc, Nat.add_right_comm]
      exact hafter

theorem Resumes.length_waits {n k : Nat} {rest : List Step}
    (h : Resumes policy mode script n k rest) : (waits rest).length ≤ n := by
  by_contra hlong
  have hlast : (waits rest)[n]? = some (waits rest)[n] :=
    List.getElem?_eq_getElem (not_le.mp hlong)
  exact absurd (h.delayAfter hlast).1 (Nat.lt_irrefl n)

end Steps

/-- A `Retry-After` value that says how long to wait: delay-seconds, or a date that can be read. -/
def Draw.usable (draw : Draw) (header : PyStr) : Bool :=
  let value := stripBy (fun c => c = ch ' ' || c = ch '\t') header
  (RetryPolicy.delaySeconds value).isSome || (draw.secondsUntil value).isSome

namespace RetryPolicy

/-- The cap of the wait after an event. -/
def cap (policy : RetryPolicy) (draw : Draw) (event : Event) : ℚ :=
  match event.response.bind (·.retryAfter) with
  | some header => if draw.usable header then policy.maxRetryAfter else policy.maxBackoff
  | none => policy.maxBackoff

end RetryPolicy

/-- **The steps of a call as they should be.** A wait that is refused is none, but its length counts
as the others do. -/
structure Paced (policy : RetryPolicy) (script : Script) (steps : List Step) : Prop where
  alternates : policy.maxAttempts ≤ 0 ∧ steps = [] ∨
    Alternates (steps.filter fun step => !step.isRefused)
  refused : ∀ delay, .refused delay ∈ steps → longestSleep < delay
  nonneg : ∀ delay ∈ waits steps, 0 ≤ delay
  capped : ∀ i delay, (waits steps)[i]? = some delay →
    delay ≤ policy.cap (script (i + 1)).draw (script i).event
  total : (waits steps).sum ≤
    ((policy.maxAttempts : ℚ) - 1) * max policy.maxBackoff policy.maxRetryAfter

namespace RetryPolicy

/-- **A policy whose waits are as they should be** in every call of either client, each wait being
settled by the outcome before it. -/
structure Paces (policy : RetryPolicy) : Prop where
  paced : ∀ mode request script, Paced policy script (steps policy mode request script)
  lastOutcome : ∀ mode mode' request request' (script script' : Script) i delay delay',
    (script i).event = (script' i).event → (script (i + 1)).draw = (script' (i + 1)).draw →
    (waits (steps policy mode request script))[i]? = some delay →
    (waits (steps policy mode' request' script'))[i]? = some delay' → delay = delay'

/-- The schedule has no negative length within the attempts, which only the first two waits need:
where these are not negative, no further one is. Without attempts, nothing is waited. -/
structure NonnegSchedule (policy : RetryPolicy) : Prop where
  noAttempt : policy.maxAttempts ≤ 0 → max policy.maxBackoff policy.maxRetryAfter = 0
  first : 2 ≤ policy.maxAttempts → 0 ≤ policy.baseBackoff ∧ 0 ≤ policy.maxBackoff
  second : 3 ≤ policy.maxAttempts →
    0 ≤ policy.baseBackoff * policy.multiplier ∨ floatBound ≤ |policy.multiplier|

variable {policy : RetryPolicy}

theorem isSome_retryAfterDelay {draw : Draw} {header : PyStr} :
    (policy.retryAfterDelay draw header).isSome = draw.usable header := by
  rw [retryAfterDelay, Draw.usable]
  cases delaySeconds (stripBy (fun c => c = ch ' ' || c = ch '\t') header) with
  | some seconds => rfl
  | none => exact Option.isSome_map

theorem cap_of_header {draw : Draw} {event : Event} {header : PyStr} {delay : ℚ}
    (hheader : event.response.bind (·.retryAfter) = some header)
    (hdelay : policy.retryAfterDelay draw header = some delay) :
    policy.cap draw event = policy.maxRetryAfter := by
  have husable : draw.usable header = true := by
    rw [← @isSome_retryAfterDelay policy, hdelay]
    rfl
  simp only [cap, hheader, husable, if_true]

theorem cap_of_schedule {draw : Draw} {event : Event}
    (h : (event.response.bind (·.retryAfter)).bind (policy.retryAfterDelay draw) = none) :
    policy.cap draw event = policy.maxBackoff := by
  cases hheader : event.response.bind (·.retryAfter) with
  | none => simp only [cap, hheader]
  | some header =>
    have husable : draw.usable header = false := by
      have hnone : policy.retryAfterDelay draw header = none := by
        rw [hheader] at h
        exact h
      rw [← @isSome_retryAfterDelay policy, hnone]
      rfl
    simp [cap, hheader, husable]

theorem cap_le {draw : Draw} {event : Event} :
    policy.cap draw event ≤ max policy.maxBackoff policy.maxRetryAfter := by
  rw [cap]
  split
  · split
    · exact le_max_right _ _
    · exact le_max_left _ _
  · exact le_max_left _ _

theorem one_lt_floatBound : (1 : ℚ) < floatBound := by decide +kernel

theorem growth_zero : |policy.multiplier ^ 0| < floatBound := by
  rw [pow_zero, abs_one]
  exact one_lt_floatBound

theorem NonnegSchedule.growth_nonneg (h : policy.NonnegSchedule) {k : Nat}
    (hk : (k : Int) + 1 < policy.maxAttempts) (hgrowth : |policy.multiplier ^ k| < floatBound) :
    0 ≤ policy.baseBackoff * policy.multiplier ^ k := by
  have hbase : 0 ≤ policy.baseBackoff := (h.first (by omega)).1
  cases k with
  | zero =>
    rw [pow_zero, mul_one]
    exact hbase
  | succ k =>
    rcases h.second (by omega) with hsecond | hover
    · rcases hbase.eq_or_lt with hzero | hpos
      · rw [← hzero, zero_mul]
      · have hmultiplier : 0 ≤ policy.multiplier := (mul_nonneg_iff_of_pos_left hpos).mp hsecond
        exact mul_nonneg hbase (pow_nonneg hmultiplier _)
    · -- where the first power is out of range, every further one is
      have hle : |policy.multiplier| ≤ |policy.multiplier| ^ (k + 1) :=
        le_self_pow₀ (one_lt_floatBound.le.trans hover) (Nat.succ_ne_zero k)
      rw [abs_pow] at hgrowth
      exact absurd (hover.trans hle) (not_le.mpr hgrowth)

theorem NonnegSchedule.ceiling_nonneg (h : policy.NonnegSchedule) {k : Nat}
    (hk : (k : Int) + 1 < policy.maxAttempts) {statusCode : Option Nat} {ceiling : ℚ}
    (hceiling : policy.ceilingFor (policy.factor statusCode) k = .ok ceiling) : 0 ≤ ceiling := by
  obtain ⟨hgrowth, rfl⟩ := ceilingFor_ok.mp hceiling
  refine le_min ?_ (h.first (by omega)).2
  rw [mul_right_comm]
  exact mul_nonneg (h.growth_nonneg hk hgrowth) (factor_nonneg statusCode)

/-- **The bounds of one wait.** -/
theorem NonnegSchedule.delayAfter_bounds (h : policy.NonnegSchedule) {script : Script} {k : Nat}
    (hk : (k : Int) + 1 < policy.maxAttempts) {delay : ℚ}
    (hdelay : policy.delayAfter script k = .ok delay) :
    0 ≤ delay ∧ delay ≤ policy.cap (script (k + 1)).draw (script k).event := by
  rcases delayFor_cases hdelay with ⟨header, hheader, hafter⟩ | ⟨hnone, ceiling, hceiling, rfl⟩
  · rw [cap_of_header hheader hafter]
    exact retryAfterDelay_bounds hafter
  · obtain ⟨hnonneg, hle⟩ : _ ∧ policy.spread _ ceiling ≤ ceiling :=
      spread_bounds (script (k + 1)).draw (h.ceiling_nonneg hk hceiling)
    obtain ⟨_, hvalue⟩ := ceilingFor_ok.mp hceiling
    rw [cap_of_schedule hnone]
    refine ⟨hnonneg, hle.trans ?_⟩
    rw [hvalue]
    exact min_le_right _ _

theorem sleep_error_long {mode : Mode} {delay : ℚ} {e : Exc} (hnonneg : 0 ≤ delay)
    (h : sleep mode delay = .error e) : longestSleep < delay := by
  by_contra hle
  rw [sleep_of_bounds mode hnonneg (not_lt.mp hle)] at h
  cases h

theorem waits_attempt (sent : Option Exchange) (rest : List Step) :
    waits (.attempt sent :: rest) = waits rest := rfl

theorem mem_waits_of_refused {delay : ℚ} {rest : List Step} (h : .refused delay ∈ rest) :
    delay ∈ waits rest := List.mem_filterMap.mpr ⟨_, h, rfl⟩

section Paced

variable {mode : Mode} {script : Script} {n : Nat} {rest : List Step}

theorem NonnegSchedule.waits_bounds (h : policy.NonnegSchedule)
    (hn : policy.maxAttempts = (n : Int) + 1) (hresumes : Resumes policy mode script n 0 rest)
    {i : Nat} {delay : ℚ} (hi : (waits rest)[i]? = some delay) :
    0 ≤ delay ∧ delay ≤ policy.cap (script (i + 1)).draw (script i).event := by
  obtain ⟨hlt, hafter⟩ := hresumes.delayAfter hi
  rw [Nat.zero_add] at hafter
  exact h.delayAfter_bounds (by omega) hafter

/-- **The bound of all waits**: at most one for each attempt but the first, none above both caps. -/
theorem NonnegSchedule.sum_waits_le (h : policy.NonnegSchedule)
    (hn : policy.maxAttempts = (n : Int) + 1) (hresumes : Resumes policy mode script n 0 rest) :
    (waits rest).sum ≤ ((policy.maxAttempts : ℚ) - 1) *
      max policy.maxBackoff policy.maxRetryAfter := by
  have hattempts : (policy.maxAttempts : ℚ) - 1 = n := by
    rw [hn]
    push_cast
    ring
  have hcap : 0 ≤ max policy.maxBackoff policy.maxRetryAfter :=
    policy.maxRetryAfter_nonneg.trans (le_max_right _ _)
  have hlength : ((waits rest).length : ℚ) ≤ n := Nat.cast_le.mpr hresumes.length_waits
  rw [hattempts]
  calc (waits rest).sum
      ≤ (waits rest).length • max policy.maxBackoff policy.maxRetryAfter := by
        refine List.sum_le_card_nsmul _ _ fun delay hmem => ?_
        obtain ⟨i, hi⟩ := List.mem_iff_getElem?.mp hmem
        exact (h.waits_bounds hn hresumes hi).2.trans cap_le
    _ = (waits rest).length * max policy.maxBackoff policy.maxRetryAfter := nsmul_eq_mul _ _
    _ ≤ n * max policy.maxBackoff policy.maxRetryAfter := mul_le_mul_of_nonneg_right hlength hcap

end Paced

/-- **The calls of a policy without negative lengths are paced.** -/
theorem NonnegSchedule.paced (h : policy.NonnegSchedule) (mode : Mode) (request : Request)
    (script : Script) : Paced policy script (steps policy mode request script) := by
  rcases @steps_cases policy mode request script with
    ⟨hle, hsteps⟩ | ⟨n, sent, rest, hn, hresumes, hsteps⟩
  · rw [hsteps]
    refine ⟨.inl ⟨hle, rfl⟩, by simp, by simp [waits], by simp [waits], ?_⟩
    rw [h.noAttempt hle, mul_zero]
    exact le_rfl
  · have hnonneg : ∀ delay ∈ waits rest, 0 ≤ delay := by
      intro delay hmem
      obtain ⟨i, hi⟩ := List.mem_iff_getElem?.mp hmem
      exact (h.waits_bounds hn hresumes hi).1
    rw [hsteps]
    constructor
    · exact .inr (hresumes.alternates sent)
    · intro delay hmem
      -- a refused wait is not negative, so it is too long
      rcases List.mem_cons.mp hmem with hmem | hmem
      · cases hmem
      · obtain ⟨e, hsleep⟩ := hresumes.sleep_error hmem
        exact sleep_error_long (hnonneg delay (mem_waits_of_refused hmem)) hsleep
    · exact hnonneg
    · intro i delay hi
      exact (h.waits_bounds hn hresumes hi).2
    · rw [waits_attempt]
      exact h.sum_waits_le hn hresumes

/-- A wait depends on the outcome before it only. -/
theorem delayAfter_congr {script script' : Script} {k : Nat}
    (hevent : (script k).event = (script' k).event)
    (hdraw : (script (k + 1)).draw = (script' (k + 1)).draw) :
    policy.delayAfter script k = policy.delayAfter script' k := by
  rw [delayAfter, delayAfter, hevent, hdraw]

theorem delayAfter_of_waits {mode : Mode} {request : Request} {script : Script} {i : Nat}
    {delay : ℚ} (h : (waits (steps policy mode request script))[i]? = some delay) :
    policy.delayAfter script i = .ok delay := by
  rcases @steps_cases policy mode request script with
    ⟨_, hsteps⟩ | ⟨n, sent, rest, _, hresumes, hsteps⟩
  · rw [hsteps] at h
    simp [waits] at h
  · rw [hsteps, waits_attempt] at h
    rw [← Nat.zero_add i]
    exact (hresumes.delayAfter h).2

/-! ### Which policies pace themselves -/

/-- Every attempt is lost. -/
def alwaysLost : Script := fun _ =>
  ⟨⟨1 / 2, fun _ => none, by norm_num, by norm_num⟩, .lost (py "ConnectError")⟩

theorem nonneg_of_spread {draw : Draw} {ceiling : ℚ} (hunit : 0 < draw.unit)
    (h : 0 ≤ policy.spread draw ceiling) : 0 ≤ ceiling := by
  rw [spread] at h
  split at h
  · exact nonneg_of_mul_nonneg_left h hunit
  · exact h

theorem delayAfter_alwaysLost {k : Nat} (hgrowth : |policy.multiplier ^ k| < floatBound) :
    policy.delayAfter alwaysLost k = .ok (policy.spread (alwaysLost (k + 1)).draw
      (min (policy.baseBackoff * policy.multiplier ^ k) policy.maxBackoff)) := by
  have hceiling : policy.ceilingFor (policy.factor none) k =
      .ok (min (policy.baseBackoff * policy.multiplier ^ k) policy.maxBackoff) := by
    rw [ceilingFor_ok, factor, if_neg (by simp), mul_one]
    exact ⟨hgrowth, rfl⟩
  show policy.delayFor (alwaysLost (k + 1)).draw k none none = _
  rw [delayFor_of_schedule rfl, hceiling]
  rfl

/-- The asynchronous client waits whatever the length is, so it goes on to the next attempt. -/
theorem waits_alwaysLost {request : Request} {n k : Nat} {delay : ℚ}
    (h : policy.delayAfter alwaysLost k = .ok delay) :
    waits (stepsFrom policy .async request alwaysLost (n + 1) (k + 1) none) =
      delay :: waits (stepsFrom policy .async request alwaysLost n (k + 2) none) := by
  have hdelay : policy.delayFor (alwaysLost (k + 1)).draw k none none = .ok delay := h
  have hpause : policy.pause .async (alwaysLost (k + 1)).draw (k + 1) none =
      ([.slept delay], true) := by
    simp only [pause, Option.map_none, Option.bind_none, hdelay, sleep]
  rw [stepsFrom, hpause]
  rfl

/-- The ceilings of the first waits are not negative where their waits never are. -/
theorem Paces.ceiling_nonneg (h : policy.Paces) {k : Nat} (hk : k ≤ 1)
    (hattempts : (k : Int) + 2 ≤ policy.maxAttempts)
    (hgrowth : |policy.multiplier ^ k| < floatBound) :
    0 ≤ min (policy.baseBackoff * policy.multiplier ^ k) policy.maxBackoff := by
  have hunit : 0 < (alwaysLost (k + 1)).draw.unit := one_half_pos
  suffices hmem : policy.spread (alwaysLost (k + 1)).draw
      (min (policy.baseBackoff * policy.multiplier ^ k) policy.maxBackoff) ∈
        waits (steps policy .async submitRequest alwaysLost) from
    nonneg_of_spread hunit ((h.paced .async submitRequest alwaysLost).nonneg _ hmem)
  obtain ⟨n, hn⟩ : ∃ n, policy.maxAttempts.toNat = n + k + 2 :=
    ⟨policy.maxAttempts.toNat - k - 2, by omega⟩
  have hwaits : waits (steps policy .async submitRequest alwaysLost) =
      waits (stepsFrom policy .async submitRequest alwaysLost (n + k + 1) 1 none) := by
    rw [steps, hn]
    rfl
  rw [hwaits, waits_alwaysLost (delayAfter_alwaysLost growth_zero)]
  obtain rfl | rfl : k = 0 ∨ k = 1 := by omega
  · exact List.mem_cons_self
  · rw [waits_alwaysLost (delayAfter_alwaysLost hgrowth)]
    exact List.mem_cons_of_mem _ List.mem_cons_self

/-- **Which policies pace their waits**: those whose schedule has no negative length. -/
theorem paces_iff (policy : RetryPolicy) : policy.Paces ↔ policy.NonnegSchedule := by
  constructor
  · intro h
    refine ⟨fun hle => ?_, fun htwo => ?_, fun hthree => ?_⟩
    · -- nothing is waited, so the bound of the total is not negative
      have htotal := (h.paced .sync submitRequest alwaysLost).total
      rw [steps, Int.toNat_of_nonpos hle] at htotal
      have hattempts : ((policy.maxAttempts : ℚ) - 1) < 0 := by
        have hcast : (policy.maxAttempts : ℚ) ≤ 0 := by exact_mod_cast hle
        linarith
      have hnonpos : max policy.maxBackoff policy.maxRetryAfter ≤ 0 :=
        nonpos_of_mul_nonneg_right htotal hattempts
      exact le_antisymm hnonpos (policy.maxRetryAfter_nonneg.trans (le_max_right _ _))
    · have hceiling := h.ceiling_nonneg zero_le_one (by simpa using htwo) growth_zero
      rw [pow_zero, mul_one] at hceiling
      exact le_min_iff.mp hceiling
    · rcases lt_or_ge |policy.multiplier| floatBound with hlt | hge
      · have hceiling := h.ceiling_nonneg le_rfl (by simpa using hthree) (by rwa [pow_one])
        rw [pow_one] at hceiling
        exact .inl (le_min_iff.mp hceiling).1
      · exact .inr hge
  · intro h
    refine ⟨h.paced, ?_⟩
    intro mode mode' request request' script script' i delay delay' hevent hdraw hdelay hdelay'
    have hafter := delayAfter_of_waits hdelay
    rw [delayAfter_congr hevent hdraw, delayAfter_of_waits hdelay'] at hafter
    exact (Except.ok.inj hafter).symm

/-- The default policy is one of them. -/
example : ({} : RetryPolicy).NonnegSchedule :=
  ⟨fun h => absurd h (by decide), fun _ => by decide +kernel, fun _ => .inl (by decide +kernel)⟩

/-- **A negative wait**: the first attempt is lost, and `sleep` is called with a length below zero,
which the synchronous client refuses. -/
theorem not_paces_negativePolicy :
    waits (steps negativePolicy .sync submitRequest recoveringScript) = [-1] ∧
      waits (steps negativePolicy .async submitRequest recoveringScript) = [-1] ∧
      ¬ Paced negativePolicy recoveringScript
        (steps negativePolicy .sync submitRequest recoveringScript) ∧ ¬ negativePolicy.Paces := by
  have hsync : waits (steps negativePolicy .sync submitRequest recoveringScript) = [-1] := by
    decide +kernel
  have hasync : waits (steps negativePolicy .async submitRequest recoveringScript) = [-1] := by
    decide +kernel
  have hpaced : ¬ Paced negativePolicy recoveringScript
      (steps negativePolicy .sync submitRequest recoveringScript) := by
    intro h
    have hnonneg := h.nonneg (-1) (by rw [hsync]; exact List.mem_singleton_self _)
    exact absurd hnonneg (by norm_num)
  exact ⟨hsync, hasync, hpaced, fun h => hpaced (h.paced _ _ _)⟩

end RetryPolicy

end SnowflakeSqlApi
