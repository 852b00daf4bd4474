import Mathlib.Data.Finset.Insert
import SnowflakeSqlApi.Poll

/-!
# Cancel requests of cancelled tasks

`_cancel_after_task_cancel` and `_settle_cancel` on an event loop: any number of calls of the
helper, each with the task of its request, over the one set `_abandoned_cancels`.  What runs between
two `await`s is one step; where a call stands between them is its `CallPhase`.  A request may end
in any way and at any time, its done callback runs some time later, and a wait may be left
because the request has ended, because time is up, or by a cancellation of the waiting task.

`Invariant` says what a call has come to in each phase, and that the set holds the abandoned
requests whose callback has not run (`Sound.held`); every step keeps it (`Invariant.step`).
-/

namespace SnowflakeSqlApi

inductive TaskOutcome
  | returned
  | failed
  | cancelled
  deriving DecidableEq

/-- The task of a cancel request. It is `settled` when its done callback has run. -/
structure CancelTask where
  outcome : Option TaskOutcome := none
  cancelRequested : Bool := false
  settled : Bool := false

namespace CancelTask

/-- `task.done()`. -/
def done (task : CancelTask) : Bool := task.outcome.isSome

/-- `task.cancel()`. -/
def cancel (task : CancelTask) : CancelTask := { task with cancelRequested := true }

end CancelTask

/-- Where a call stands: in `asyncio.wait`, past its loop, returned from inside it, or left by an
exception. -/
inductive CallPhase
  | waiting
  | finished
  | abandoned
  | raised (name : PyStr)
  deriving DecidableEq

/-- A call of `_cancel_after_task_cancel`. -/
structure CancelCall where
  task : CancelTask := {}
  deadline : ℚ
  phase : CallPhase := .waiting

def CancelCall.Returned (call : CancelCall) : Prop := call.phase = .finished ∨ call.phase = .abandoned

/-- The calls so far, and `_abandoned_cancels`; a task is known by its call. -/
structure EventLoop where
  time : ℚ
  calls : List CancelCall := []
  abandonedCancels : Finset Nat := ∅

/-- How `await asyncio.wait(...)` ends. -/
inductive Wake
  | returned
  | raised (name : PyStr)
  deriving DecidableEq

namespace Wake

/-- What `asyncio.wait` can do: it raises nothing of its own. -/
def Possible (wake : Wake) : Prop := wake = returned ∨ wake = raised (py "CancelledError")

instance (wake : Wake) : Decidable wake.Possible := inferInstanceAs (Decidable (_ ∨ _))

/-- `with contextlib.suppress(asyncio.CancelledError)`. -/
def suppressed : Wake → Wake
  | raised name => if name = py "CancelledError" then returned else raised name
  | returned => returned

end Wake

inductive LoopEvent
  /-- `_cancel_after_task_cancel(transport, handle)`, up to its first `await`. -/
  | called (started now : ℚ)
  /-- The wait of a call is left, and the call goes on to the next. -/
  | woken (i : Nat) (wake : Wake) (now : ℚ)
  /-- The request of a call ends. -/
  | completed (i : Nat) (outcome : TaskOutcome)
  /-- `_settle_cancel(task)`. -/
  | callback (i : Nat)

namespace EventLoop

variable (loop : EventLoop)

def put (i : Nat) (call : CancelCall) : EventLoop := { loop with calls := loop.calls.set i call }

/-- A call from the head of its loop on, up to its next `await` or its end. -/
def enter (i : Nat) (call : CancelCall) (now : ℚ) : EventLoop :=
  if call.task.done then loop.put i { call with phase := .finished }
  else if call.deadline - now ≤ 0 then
    { loop.put i { call with phase := .abandoned, task := call.task.cancel } with
      abandonedCancels := insert i loop.abandonedCancels }
  else loop.put i { call with phase := .waiting }

/-- What happens next, `none` where it cannot. -/
def step : LoopEvent → Option EventLoop
  | .called started now =>
    if loop.time ≤ started ∧ started ≤ now then
      let call : CancelCall := { deadline := started + cancelOnTaskCancelTimeout }
      let loop := { loop with time := now, calls := loop.calls ++ [call] }
      some (loop.enter (loop.calls.length - 1) call now)
    else none
  | .woken i wake now =>
    match loop.calls[i]? with
    | none => none
    | some call =>
      if call.phase = .waiting ∧ loop.time ≤ now ∧ wake.Possible then
        let loop := { loop with time := now }
        match wake.suppressed with
        | .raised name => some (loop.put i { call with phase := .raised name })
        | .returned => some (loop.enter i call now)
      else none
  | .completed i outcome =>
    match loop.calls[i]? with
    | none => none
    | some call =>
      if call.task.done then none
      else some (loop.put i { call with task := { call.task with outcome := some outcome } })
  | .callback i =>
    match loop.calls[i]? with
    | none => none
    | some call =>
      if call.task.done ∧ call.task.settled = false then
        some { loop.put i { call with task := { call.task with settled := true } } with
          abandonedCancels := loop.abandonedCancels.erase i }
      else none

/-- What happens in turn. -/
def run : EventLoop → List LoopEvent → Option EventLoop
  | loop, [] => some loop
  | loop, event :: events => (loop.step event).bind fun next => run next events

/-- The loop with one more call, at its first `while`. -/
def begin (started now : ℚ) : EventLoop :=
  { loop with time := now
              calls := loop.calls ++ [{ deadline := started + cancelOnTaskCancelTimeout }] }

/-- What a step does; no exception of a wait gets out. -/
inductive StepTo : LoopEvent → EventLoop → Prop
  | called {started now : ℚ} (hstarted : loop.time ≤ started) (hnow : started ≤ now) :
    StepTo (.called started now) ((loop.begin started now).enter loop.calls.length
      { deadline := started + cancelOnTaskCancelTimeout } now)
  | woken {i : Nat} {wake : Wake} {now : ℚ} {call : CancelCall} (hcall : loop.calls[i]? = some call)
    (hwaiting : call.phase = .waiting) (hnow : loop.time ≤ now) :
    StepTo (.woken i wake now) (EventLoop.enter { loop with time := now } i call now)
  | completed {i : Nat} {outcome : TaskOutcome} {call : CancelCall}
    (hcall : loop.calls[i]? = some call) (hpending : call.task.done = false) :
    StepTo (.completed i outcome)
      (loop.put i { call with task := { call.task with outcome := some outcome } })
  | callback {i : Nat} {call : CancelCall} (hcall : loop.calls[i]? = some call)
    (hdone : call.task.done = true) :
    StepTo (.callback i)
      { loop.put i { call with task := { call.task with settled := true } } with
        abandonedCancels := loop.abandonedCancels.erase i }

theorem step_stepTo {loop next : EventLoop} {event : LoopEvent} (h : loop.step event = some next) :
    loop.StepTo event next := by
  cases event with
  | called started now =>
    rw [step] at h
    split at h
    · next htimes =>
      cases h
      have hlast : (loop.calls ++ [({ deadline := started + cancelOnTaskCancelTimeout } :
          CancelCall)]).length - 1 = loop.calls.length := by simp
      dsimp only
      rw [hlast]
      exact .called htimes.1 htimes.2
    · cases h
  | woken i wake now =>
    rw [step] at h
    split at h
    · cases h
    next call hcall =>
    split at h
    · next hwoken =>
      have hsuppressed : wake.suppressed = .returned := by
        rcases hwoken.2.2 with rfl | rfl
        · rfl
        · rw [Wake.suppressed, if_pos rfl]
      dsimp only at h
      rw [hsuppressed] at h
      cases h
      exact .woken hcall hwoken.1 hwoken.2.1
    · cases h
  | completed i outcome =>
    rw [step] at h
    split at h
    · cases h
    next call hcall =>
    split at h
    · cases h
    · next hpending =>
      cases h
      exact .completed hcall (Bool.eq_false_iff.mpr hpending)
  | callback i =>
    rw [step] at h
    split at h
    · cases h
    next call hcall =>
    split at h
    · next hdone =>
      cases h
      exact .callback hcall hdone.1
    · cases h

/-! ### The invariant -/

/-- What a call has come to. -/
structure Sound (i : Nat) (call : CancelCall) : Prop where
  raises : ∀ name, call.phase ≠ .raised name
  finished : call.phase = .finished → call.task.done = true
  abandoned : call.phase = .abandoned → call.deadline ≤ loop.time ∧ call.task.cancelRequested = true
  settled : call.task.settled = true → call.task.done = true
  held : i ∈ loop.abandonedCancels ↔ call.phase = .abandoned ∧ call.task.settled = false

/-- All calls are sound, and the set holds no other task. -/
structure Invariant : Prop where
  sound : ∀ i call, loop.calls[i]? = some call → loop.Sound i call
  known : ∀ i ∈ loop.abandonedCancels, i < loop.calls.length

variable {loop}

theorem put_get {i : Nat} {call : CancelCall} (h : loop.calls[i]? = some call) (call' : CancelCall)
    (j : Nat) : (loop.put i call').calls[j]? = if i = j then some call' else loop.calls[j]? := by
  have hi : i < loop.calls.length := (List.getElem?_eq_some_iff.mp h).1
  rw [put, List.getElem?_set, if_pos hi]

/-- A call stays sound as time goes on, as long as the set is the same for it. -/
theorem Sound.later {i : Nat} {call : CancelCall} (h : loop.Sound i call) {next : EventLoop}
    (htime : loop.time ≤ next.time)
    (hmem : i ∈ next.abandonedCancels ↔ i ∈ loop.abandonedCancels) : next.Sound i call where
  raises := h.raises
  finished := h.finished
  abandoned hphase := by
    obtain ⟨hdeadline, hcancelled⟩ := h.abandoned hphase
    exact ⟨hdeadline.trans htime, hcancelled⟩
  settled := h.settled
  held := hmem.trans h.held

/-- A step that changes one call, and the set at most for that one. -/
theorem Invariant.put (h : loop.Invariant) {i : Nat} {call call' : CancelCall}
    (hcall : loop.calls[i]? = some call) {next : EventLoop}
    (hcalls : next.calls = (loop.put i call').calls) (htime : loop.time ≤ next.time)
    (hothers : ∀ j, j ≠ i → (j ∈ next.abandonedCancels ↔ j ∈ loop.abandonedCancels))
    (hsound : next.Sound i call') : next.Invariant := by
  have hi : i < loop.calls.length := (List.getElem?_eq_some_iff.mp hcall).1
  refine ⟨fun j other hother => ?_, fun j hj => ?_⟩
  · rw [hcalls, put_get hcall] at hother
    by_cases hji : i = j
    · rw [if_pos hji] at hother
      cases hother
      exact hji ▸ hsound
    · rw [if_neg hji] at hother
      exact (h.sound j other hother).later htime (hothers j (Ne.symm hji))
  · rw [hcalls, EventLoop.put, List.length_set]
    by_cases hji : j = i
    · rw [hji]
      exact hi
    · exact h.known j ((hothers j hji).mp hj)

/-- A call that goes on keeps the invariant; if it returns, the request is done, or it is abandoned at
the deadline. -/
theorem Invariant.enter (h : loop.Invariant) {i : Nat} {call : CancelCall}
    (hcall : loop.calls[i]? = some call) (hwaiting : call.phase = .waiting) {now : ℚ}
    (hnow : loop.time = now) : (loop.enter i call now).Invariant := by
  have hold := h.sound i call hcall
  have hout : i ∉ loop.abandonedCancels := by
    intro hmem
    have hphase := (hold.held.mp hmem).1
    rw [hwaiting] at hphase
    cases hphase
  rw [EventLoop.enter]
  by_cases hdone : call.task.done = true
  · rw [if_pos hdone]
    refine h.put hcall rfl le_rfl (fun j _ => Iff.rfl) ⟨?_, fun _ => hdone, ?_, hold.settled, ?_⟩
    · exact fun name hphase => CallPhase.noConfusion hphase
    · exact fun hphase => CallPhase.noConfusion hphase
    · exact ⟨fun hmem => absurd hmem hout, fun hheld => CallPhase.noConfusion hheld.1⟩
  rw [if_neg hdone]
  by_cases hlate : call.deadline - now ≤ 0
  · rw [if_pos hlate]
    have hunsettled : call.task.settled = false := by
      by_contra hsettled
      exact hdone (hold.settled (Bool.not_eq_false _ ▸ hsettled))
    refine h.put hcall rfl le_rfl (fun j hj => ?_) ⟨?_, ?_, fun _ => ⟨?_, rfl⟩, hold.settled, ?_⟩
    · rw [Finset.mem_insert]
      exact ⟨fun hmem => hmem.resolve_left hj, .inr⟩
    · exact fun name hphase => CallPhase.noConfusion hphase
    · exact fun hphase => CallPhase.noConfusion hphase
    · show call.deadline ≤ loop.time
      linarith
    · exact ⟨fun _ => ⟨rfl, hunsettled⟩, fun _ => Finset.mem_insert_self i _⟩
  · rw [if_neg hlate]
    refine h.put hcall rfl le_rfl (fun j _ => Iff.rfl) ⟨?_, ?_, ?_, hold.settled, ?_⟩
    · exact fun name hphase => CallPhase.noConfusion hphase
    · exact fun hphase => CallPhase.noConfusion hphase
    · exact fun hphase => CallPhase.noConfusion hphase
    · exact ⟨fun hmem => absurd hmem hout, fun hheld => CallPhase.noConfusion hheld.1⟩

theorem begin_get (loop : EventLoop) (started now : ℚ) :
    (loop.begin started now).calls[loop.calls.length]? =
      some { deadline := started + cancelOnTaskCancelTimeout } := by
  rw [EventLoop.begin, List.getElem?_append_right le_rfl, Nat.sub_self]
  rfl

/-- A call after a new one is the new one, or one from before. -/
theorem begin_cases {started now : ℚ} {i : Nat} {call : CancelCall}
    (h : (loop.begin started now).calls[i]? = some call) :
    loop.calls[i]? = some call ∨
      i = loop.calls.length ∧ call = { deadline := started + cancelOnTaskCancelTimeout } := by
  rw [EventLoop.begin, List.getElem?_append] at h
  split at h
  · exact .inl h
  · rw [List.getElem?_singleton] at h
    split at h
    · cases h
      exact .inr ⟨by omega, rfl⟩
    · cases h

/-- The new call is in its wait, and not in the set. -/
theorem Invariant.begin (h : loop.Invariant) {started now : ℚ} (hstarted : loop.time ≤ started)
    (hnow : started ≤ now) : (loop.begin started now).Invariant := by
  refine ⟨fun i call hcall => ?_, fun i hi => ?_⟩
  · rcases begin_cases hcall with hold | ⟨hlast, rfl⟩
    · exact (h.sound i call hold).later (hstarted.trans hnow) Iff.rfl
    · have hout : i ∉ loop.abandonedCancels := by
        intro hmem
        have hknown := h.known i hmem
        omega
      refine ⟨?_, ?_, ?_, ?_, ?_⟩
      · exact fun name hphase => CallPhase.noConfusion hphase
      · exact fun hphase => CallPhase.noConfusion hphase
      · exact fun hphase => CallPhase.noConfusion hphase
      · exact fun hsettled => Bool.noConfusion hsettled
      · exact ⟨fun hmem => absurd hmem hout, fun hheld => CallPhase.noConfusion hheld.1⟩
  · have hold := h.known i hi
    rw [EventLoop.begin, List.length_append]
    omega

/-- **Every step keeps the invariant.** -/
theorem Invariant.step (h : loop.Invariant) {event : LoopEvent} {next : EventLoop}
    (hstep : loop.step event = some next) : next.Invariant := by
  cases step_stepTo hstep with
  | called hstarted hnow =>
    exact (h.begin hstarted hnow).enter (begin_get loop _ _) rfl rfl
  | @woken i wake now call hcall hwaiting hnow =>
    have hlater : Invariant { loop with time := now } :=
      ⟨fun j other hother => (h.sound j other hother).later hnow Iff.rfl, h.known⟩
    exact hlater.enter hcall hwaiting rfl
  | completed hcall hpending =>
    have hold := h.sound _ _ hcall
    exact h.put hcall rfl le_rfl (fun j _ => Iff.rfl)
      ⟨hold.raises, fun _ => rfl, hold.abandoned, fun _ => rfl, hold.held⟩
  | callback hcall hdone =>
    have hold := h.sound _ _ hcall
    refine h.put hcall rfl le_rfl (fun j hj => ?_)
      ⟨hold.raises, hold.finished, hold.abandoned, fun _ => hdone, ?_⟩
    · rw [Finset.mem_erase]
      exact ⟨fun hmem => hmem.2, fun hmem => ⟨hj, hmem⟩⟩
    · exact ⟨fun hmem => absurd rfl (Finset.mem_erase.mp hmem).1, fun hheld => Bool.noConfusion hheld.2⟩

theorem Invariant.run (h : loop.Invariant) {events : List LoopEvent} {next : EventLoop}
    (hrun : loop.run events = some next) : next.Invariant := by
  induction events generalizing loop with
  | nil =>
    cases hrun
    exact h
  | cons event events ih =>
    obtain ⟨middle, hstep, hrest⟩ := Option.bind_eq_some_iff.mp hrun
    exact ih (h.step hstep) hrest

theorem invariant_start (time : ℚ) : Invariant { time } := by
  refine ⟨fun i call hcall => ?_, fun i hi => ?_⟩
  · cases hcall
  · exact absurd hi (Finset.notMem_empty i)

/-! ### Returns -/

theorem enter_other {i j : Nat} {call : CancelCall} (hcall : loop.calls[i]? = some call) (now : ℚ)
    (hj : i ≠ j) : (loop.enter i call now).calls[j]? = loop.calls[j]? := by
  rw [EventLoop.enter]
  split
  · rw [put_get hcall, if_neg hj]
  split
  · show (loop.put i _).calls[j]? = _
    rw [put_get hcall, if_neg hj]
  · rw [put_get hcall, if_neg hj]

/-- A call is abandoned with its request still running. -/
theorem enter_abandoned {i : Nat} {call call' : CancelCall} (hcall : loop.calls[i]? = some call)
    {now : ℚ} (h : (loop.enter i call now).calls[i]? = some call')
    (hphase : call'.phase = .abandoned) : call'.task.done = false := by
  rw [EventLoop.enter] at h
  split at h
  · rw [put_get hcall, if_pos rfl] at h
    cases h
    cases hphase
  next hdone =>
  split at h
  · have hget : (loop.put i { call with phase := .abandoned, task := call.task.cancel }).calls[i]? =
        some call' := h
    rw [put_get hcall, if_pos rfl] at hget
    cases hget
    exact Bool.eq_false_iff.mpr hdone
  · rw [put_get hcall, if_pos rfl] at h
    cases h
    cases hphase

/-- **A return** comes with the request, or at the deadline, which leaves it running, cancelled and
held. -/
theorem Invariant.returns (h : loop.Invariant) {event : LoopEvent} {next : EventLoop}
    (hstep : loop.step event = some next) {i : Nat} {call' : CancelCall}
    (hcall' : next.calls[i]? = some call') (hreturned : call'.Returned)
    (hbefore : ∀ call, loop.calls[i]? = some call → ¬ call.Returned) :
    call'.task.done = true ∨ call'.task.done = false ∧ call'.deadline ≤ next.time ∧
      call'.task.cancelRequested = true ∧ i ∈ next.abandonedCancels := by
  have hsound := (h.step hstep).sound i call' hcall'
  rcases hreturned with hfinished | habandoned
  · exact .inl (hsound.finished hfinished)
  have hpending : call'.task.done = false := by
    cases step_stepTo hstep with
    | @called started now hstarted hnow =>
      by_cases hi : loop.calls.length = i
      · subst hi
        exact enter_abandoned (begin_get loop _ _) hcall' habandoned
      · rw [enter_other (begin_get loop _ _) _ hi] at hcall'
        have hold := (begin_cases hcall').resolve_right fun hnew => hi hnew.1.symm
        exact absurd (.inr habandoned) (hbefore call' hold)
    | @woken j wake now call hcall hwaiting hnow =>
      have hlater : ({ loop with time := now } : EventLoop).calls[j]? = some call := hcall
      by_cases hi : j = i
      · subst hi
        exact enter_abandoned hlater hcall' habandoned
      · rw [enter_other hlater _ hi] at hcall'
        exact absurd (.inr habandoned) (hbefore call' hcall')
    | @completed j outcome call hcall hpending =>
      rw [put_get hcall] at hcall'
      split at hcall'
      · next hi =>
        cases hcall'
        exact absurd (.inr habandoned) (hbefore call (hi ▸ hcall))
      · exact absurd (.inr habandoned) (hbefore call' hcall')
    | @callback j call hcall hdone =>
      have hput : (loop.put j { call with task := { call.task with settled := true } }).calls[i]? =
          some call' := hcall'
      rw [put_get hcall] at hput
      split at hput
      · next hi =>
        cases hput
        exact absurd (.inr habandoned) (hbefore call (hi ▸ hcall))
      · exact absurd (.inr habandoned) (hbefore call' hput)
  have hunsettled : call'.task.settled = false := by
    by_contra hsettled
    have hdone := hsound.settled (Bool.not_eq_false _ ▸ hsettled)
    rw [hpending] at hdone
    cases hdone
  obtain ⟨hdeadline, hcancelled⟩ := hsound.abandoned habandoned
  exact .inr ⟨hpending, hdeadline, hcancelled, hsound.held.mpr ⟨habandoned, hunsettled⟩⟩

/-! ### One call -/

/-- The wait of a call that is left: whether its request is done, and the time. -/
def wakeOf (loop : EventLoop) (i : Nat) : LoopEvent → List (Bool × ℚ)
  | .woken j _ now =>
    if j = i then [((loop.calls[i]?.map fun call => call.task.done).getD false, now)] else []
  | _ => []

/-- The waits of a call that are left, in order. -/
def wakes (i : Nat) : EventLoop → List LoopEvent → List (Bool × ℚ)
  | _, [] => []
  | loop, event :: events =>
    wakeOf loop i event ++ ((loop.step event).map fun next => wakes i next events).getD []

/-- The rounds of the loop: the clock at the head of each, and whether the request was done after its
wait. The last one is still waiting. -/
def rounds : ℚ → List (Bool × ℚ) → List Turn
  | now, [] => [⟨now, false⟩]
  | now, (finished, later) :: rest => ⟨now, finished⟩ :: rounds later rest

/-- Where a call stands at the head of its loop. -/
def headPhase (call : CancelCall) (now : ℚ) : CallPhase :=
  if call.task.done then .finished else if call.deadline - now ≤ 0 then .abandoned else .waiting

theorem enter_self {i : Nat} {call : CancelCall} (hcall : loop.calls[i]? = some call) (now : ℚ) :
    ∃ call', (loop.enter i call now).calls[i]? = some call' ∧ call'.phase = headPhase call now ∧
      call'.deadline = call.deadline := by
  rw [EventLoop.enter, headPhase]
  split
  · exact ⟨{ call with phase := .finished }, by rw [put_get hcall, if_pos rfl], rfl, rfl⟩
  split
  · refine ⟨{ call with phase := .abandoned, task := call.task.cancel }, ?_, rfl, rfl⟩
    show (loop.put i _).calls[i]? = _
    rw [put_get hcall, if_pos rfl]
  · exact ⟨{ call with phase := .waiting }, by rw [put_get hcall, if_pos rfl], rfl, rfl⟩

/-- What a step does to a call: it stays where it is, unless its wait is left. -/
theorem step_call {i : Nat} {call : CancelCall} (hcall : loop.calls[i]? = some call)
    {event : LoopEvent} {next : EventLoop} (hstep : loop.step event = some next) :
    ∃ call', next.calls[i]? = some call' ∧ call'.deadline = call.deadline ∧
      ((∀ wake now, event ≠ .woken i wake now) ∧ call'.phase = call.phase ∨
        ∃ wake now, event = .woken i wake now ∧ call.phase = .waiting ∧
          call'.phase = headPhase call now) := by
  cases step_stepTo hstep with
  | @called started now hstarted hnow =>
    have hi : i < loop.calls.length := (List.getElem?_eq_some_iff.mp hcall).1
    refine ⟨call, ?_, rfl, .inl ⟨fun wake now' he => LoopEvent.noConfusion he, rfl⟩⟩
    rw [enter_other (begin_get loop _ _) _ (by omega)]
    show (loop.calls ++ _)[i]? = _
    rw [List.getElem?_append_left hi, hcall]
  | @woken j wake now other hother hwaiting hnow =>
    have hlater : ({ loop with time := now } : EventLoop).calls[j]? = some other := hother
    by_cases hi : j = i
    · subst hi
      rw [hcall] at hother
      cases hother
      obtain ⟨call', hcall', hphase, hdeadline⟩ := enter_self hlater now
      exact ⟨call', hcall', hdeadline, .inr ⟨wake, now, rfl, hwaiting, hphase⟩⟩
    · refine ⟨call, ?_, rfl, .inl ⟨?_, rfl⟩⟩
      · rw [enter_other hlater _ hi]
        exact hcall
      · rintro wake' now' he
        cases he
        exact hi rfl
  | @completed j outcome other hother hpending =>
    by_cases hi : j = i
    · subst hi
      rw [hcall] at hother
      cases hother
      refine ⟨{ call with task := { call.task with outcome := some outcome } }, ?_, rfl, .inl ⟨?_, rfl⟩⟩
      · rw [put_get hcall, if_pos rfl]
      · exact fun wake now he => LoopEvent.noConfusion he
    · refine ⟨call, ?_, rfl, .inl ⟨fun wake now he => LoopEvent.noConfusion he, rfl⟩⟩
      rw [put_get hother, if_neg hi, hcall]
  | @callback j other hother hdone =>
    by_cases hi : j = i
    · subst hi
      rw [hcall] at hother
      cases hother
      refine ⟨{ call with task := { call.task with settled := true } }, ?_, rfl, .inl ⟨?_, rfl⟩⟩
      · show (loop.put j _).calls[j]? = _
        rw [put_get hcall, if_pos rfl]
      · exact fun wake now he => LoopEvent.noConfusion he
    · refine ⟨call, ?_, rfl, .inl ⟨fun wake now he => LoopEvent.noConfusion he, rfl⟩⟩
      show (loop.put j _).calls[i]? = _
      rw [put_get hother, if_neg hi, hcall]

/-- A call that has returned stays so. -/
theorem run_returned {i : Nat} {call : CancelCall} (hcall : loop.calls[i]? = some call)
    (hphase : call.phase ≠ .waiting) {events : List LoopEvent} {next : EventLoop}
    (hrun : loop.run events = some next) :
    ∃ call', next.calls[i]? = some call' ∧ call'.phase = call.phase := by
  induction events generalizing loop call with
  | nil =>
    cases hrun
    exact ⟨call, hcall, rfl⟩
  | cons event events ih =>
    obtain ⟨middle, hstep, hrest⟩ := Option.bind_eq_some_iff.mp hrun
    obtain ⟨call', hcall', -, ⟨-, hsame⟩ | ⟨wake, now, -, hwaiting, -⟩⟩ := step_call hcall hstep
    · obtain ⟨last, hlast, hkept⟩ := ih hcall' (hsame ▸ hphase) hrest
      exact ⟨last, hlast, hkept.trans hsame⟩
    · exact absurd hwaiting hphase

theorem wakes_other {i : Nat} {event : LoopEvent} {middle : EventLoop}
    (hstep : loop.step event = some middle) (h : ∀ wake now, event ≠ .woken i wake now)
    (events : List LoopEvent) : wakes i loop (event :: events) = wakes i middle events := by
  have hnone : wakeOf loop i event = [] := by
    cases event with
    | woken j wake now =>
      have hj : j ≠ i := by
        rintro rfl
        exact h wake now rfl
      exact if_neg hj
    | _ => rfl
  rw [wakes, hstep, hnone]
  rfl

theorem wakes_self {i : Nat} {call : CancelCall} (hcall : loop.calls[i]? = some call) {wake : Wake}
    {now : ℚ} {middle : EventLoop} (hstep : loop.step (.woken i wake now) = some middle)
    (events : List LoopEvent) :
    wakes i loop (.woken i wake now :: events) = (call.task.done, now) :: wakes i middle events := by
  rw [wakes, hstep, wakeOf, if_pos rfl, hcall]
  rfl

theorem rounds_head (now : ℚ) (waits : List (Bool × ℚ)) :
    ∃ finished rest, rounds now waits = ⟨now, finished⟩ :: rest := by
  cases waits with
  | nil => exact ⟨_, _, rfl⟩
  | cons wait waits => exact ⟨_, _, rfl⟩

/-- **A call is the loop of the poll's cleanup** (`awaitCancel`), whatever else goes on. The induction
is on the events; those of other calls, and those of the request, leave the call in its wait. -/
theorem awaitCancel_of_run {i : Nat} {call : CancelCall} (hcall : loop.calls[i]? = some call)
    (hwaiting : call.phase = .waiting) {clock : ℚ} (hclock : clock < call.deadline)
    {events : List LoopEvent} {next : EventLoop} (hrun : loop.run events = some next)
    (issued : List Exchange) (begun : Bool) :
    ∃ call', next.calls[i]? = some call' ∧
      ((awaitCancel call.deadline (.cancel issued) begun (rounds clock (wakes i loop events))).2 = true ↔
        call'.phase ≠ .waiting) ∧
      (.abandoned ∈
          (awaitCancel call.deadline (.cancel issued) begun (rounds clock (wakes i loop events))).1 ↔
        call'.phase = .abandoned) := by
  have hopen : ¬ call.deadline ≤ clock := not_le.mpr hclock
  induction events generalizing loop call clock begun with
  | nil =>
    cases hrun
    refine ⟨call, hcall, ?_⟩
    rw [wakes, rounds, awaitCancel, if_neg hopen, hwaiting]
    cases begun <;> simp [awaitCancel]
  | cons event events ih =>
    obtain ⟨middle, hstep, hrest⟩ := Option.bind_eq_some_iff.mp hrun
    obtain ⟨call', hcall', hdeadline, ⟨hother, hsame⟩ | ⟨wake, now, rfl, -, hphase⟩⟩ :=
      step_call hcall hstep
    · rw [wakes_other hstep hother, ← hdeadline]
      rw [← hdeadline] at hclock hopen
      exact ih hcall' (hsame.trans hwaiting) hclock hrest begun hopen
    rw [wakes_self hcall hstep, rounds, awaitCancel, if_neg hopen]
    dsimp only
    by_cases hdone : call.task.done = true
    · rw [headPhase, if_pos hdone] at hphase
      have hreturned : call'.phase ≠ .waiting := by
        rw [hphase]
        exact fun he => CallPhase.noConfusion he
      obtain ⟨last, hlast, hkept⟩ := run_returned hcall' hreturned hrest
      refine ⟨last, hlast, ?_⟩
      rw [if_pos hdone, hkept, hphase]
      cases begun <;> simp
    rw [headPhase, if_neg hdone] at hphase
    rw [if_neg hdone]
    by_cases hlate : call.deadline - now ≤ 0
    · rw [if_pos hlate] at hphase
      have hreturned : call'.phase ≠ .waiting := by
        rw [hphase]
        exact fun he => CallPhase.noConfusion he
      obtain ⟨last, hlast, hkept⟩ := run_returned hcall' hreturned hrest
      obtain ⟨finished, rest, hrounds⟩ := rounds_head now (wakes i middle events)
      refine ⟨last, hlast, ?_⟩
      rw [hrounds, awaitCancel, if_pos (sub_nonpos.mp hlate), hkept, hphase]
      cases begun <;> simp
    · rw [if_neg hlate] at hphase
      have hearly : now < call'.deadline := by
        rw [hdeadline]
        linarith
      obtain ⟨last, hlast, hended, habandoned⟩ :=
        ih hcall' hphase hearly hrest true (not_le.mpr hearly)
      rw [hdeadline] at hended habandoned
      refine ⟨last, hlast, hended, ?_⟩
      rw [← habandoned]
      cases begun <;> simp

end EventLoop

open EventLoop

/-- **The helper neither loses nor leaks its request**, in every state that any number of calls can
reach: it never raises, it returns with the request or at the deadline, where the request is
cancelled and held, and held are the abandoned requests whose callback has not run. -/
theorem abandonedCancels_sound {time : ℚ} {events : List LoopEvent} {loop : EventLoop}
    (h : EventLoop.run { time } events = some loop) :
    (∀ (i : Nat) call, loop.calls[i]? = some call → ∀ name, call.phase ≠ .raised name) ∧
    (∀ event next, loop.step event = some next → ∀ i call', next.calls[i]? = some call' →
      call'.Returned → (∀ call, loop.calls[i]? = some call → ¬ call.Returned) →
        call'.task.done = true ∨ call'.task.done = false ∧ call'.deadline ≤ next.time ∧
          call'.task.cancelRequested = true ∧ i ∈ next.abandonedCancels) ∧
    (∀ i, i ∈ loop.abandonedCancels ↔ ∃ call, loop.calls[i]? = some call ∧
      call.phase = .abandoned ∧ call.task.settled = false) ∧
    ∀ i call, loop.calls[i]? = some call → call.task.done = true → call.task.settled = true →
      i ∉ loop.abandonedCancels := by
  have hinv := (invariant_start time).run h
  refine ⟨?_, ?_, fun i => ⟨fun hi => ?_, ?_⟩, ?_⟩
  · intro i call hcall name
    exact (hinv.sound i call hcall).raises name
  · intro event next hstep i call' hcall' hreturned hbefore
    exact hinv.returns hstep hcall' hreturned hbefore
  · have hlength := hinv.known i hi
    have hcall : loop.calls[i]? = some loop.calls[i] := List.getElem?_eq_getElem hlength
    obtain ⟨hphase, hsettled⟩ := (hinv.sound i _ hcall).held.mp hi
    exact ⟨_, hcall, hphase, hsettled⟩
  · rintro ⟨call, hcall, hheld⟩
    exact (hinv.sound i call hcall).held.mpr hheld
  · intro i call hcall _ hsettled hi
    have hheld := (hinv.sound i call hcall).held.mp hi
    rw [hsettled] at hheld
    exact Bool.noConfusion hheld.2

/-- A call whose task is cancelled once more, and that is abandoned at its deadline. -/
def lateRequest : List LoopEvent :=
  [.called 0 0, .woken 0 (.raised (py "CancelledError")) 1, .woken 0 .returned 5]

theorem run_lateRequest : EventLoop.run { time := 0 } lateRequest = some {
    time := 5
    calls := [⟨⟨none, true, false⟩, 5, .abandoned⟩]
    abandonedCancels := {0} } := by
  norm_num [EventLoop.run, lateRequest, EventLoop.step, EventLoop.enter, EventLoop.put, CancelTask.done,
    CancelTask.cancel, Wake.Possible, Wake.suppressed, cancelOnTaskCancelTimeout]

theorem abandonedCancels_sound_late :
    ∃ loop, EventLoop.run { time := 0 } lateRequest = some loop ∧ 0 ∈ loop.abandonedCancels :=
  ⟨_, run_lateRequest, ((abandonedCancels_sound run_lateRequest).2.2.1 0).mpr ⟨_, rfl, rfl, rfl⟩⟩

end SnowflakeSqlApi
