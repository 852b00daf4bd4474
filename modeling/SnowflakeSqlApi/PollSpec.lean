import SnowflakeSqlApi.Poll

/-!
# Who owns a statement that is polled

Both polls go through the same rounds and leave them in the same ways; they differ in
where a task cancellation can enter.  `Polls` states this once: rounds that were waited out
change nothing (`Polls.append`), and the first other round decides how the poll leaves
(`Stops`).

`poll_ownership` is what follows for the statement: who cancels it, and when.  The request
made after a task cancellation runs in a task of its own, and the wait for it is
bounded; if the event loop's clock has passed the bound at the first look, that task is cancelled
before it has begun (`scheduled_not_begun`).
-/

namespace SnowflakeSqlApi

section Rounds

variable (c : PollCall) (mode : Mode) (cancelCall : AsyncCall) (cleanup : Cleanup)

namespace AsyncRound

variable (round : AsyncRound)

/-- The reply says that the statement is running. -/
def Running : Prop :=
  round.cutOff = none ∧
    ∃ response, (c.get mode round.reply).2 = .ok response ∧ response.isRunning = true

/-- A running reply, and the clock after it has reached the deadline. -/
def TimesOut : Prop := round.Running c mode ∧ c.deadline ≤ round.clock

/-- A running reply in time. -/
def InTime : Prop := round.Running c mode ∧ round.clock < c.deadline

/-- A running reply in time, and a sleep. -/
def Waited : Prop :=
  round.InTime c mode ∧ round.sleepCutOff = false ∧ sleep mode c.pollInterval = .ok ()

/-- The task is cancelled at an `await` of the round, or of the cancel of its timeout. -/
def CutOff : Prop :=
  round.cutOff ≠ none ∨ (round.InTime c mode ∧ round.sleepCutOff = true) ∨
    (round.TimesOut c mode ∧ c.cancelOnTimeout = true ∧ cancelCall.cutOff ≠ none)

end AsyncRound

/-- What the poll does in rounds that are waited out. -/
def waitedActions (rounds : List AsyncRound) : List PollAction :=
  rounds.flatMap fun round => [.get (c.get mode round.reply).1, .sleep]

/-- How a poll leaves in a round that is not waited out. -/
inductive Stops (round : AsyncRound) : PollRun → Prop
  | returned {response : StatementResponse} : round.cutOff = none →
      (c.get mode round.reply).2 = .ok response → response.isRunning = false →
      Stops round ⟨[.get (c.get mode round.reply).1], .returned response⟩
  | failed {e : Exc} : round.cutOff = none → (c.get mode round.reply).2 = .error e →
      Stops round ⟨[.get (c.get mode round.reply).1], .raised e⟩
  | sleepFailed {e : Exc} : round.InTime c mode → round.sleepCutOff = false →
      sleep mode c.pollInterval = .error e →
      Stops round ⟨[.get (c.get mode round.reply).1, .sleep], .raised e⟩
  | timedOut : round.TimesOut c mode → c.cancelOnTimeout = false →
      Stops round ⟨[.get (c.get mode round.reply).1], .raised c.timeoutError⟩
  | timedOutOwned : round.TimesOut c mode → c.cancelOnTimeout = true → cancelCall.cutOff = none →
      Stops round ⟨[.get (c.get mode round.reply).1, .cancel (c.cancel mode cancelCall.reply).1],
        .raised (c.timeoutAfter (c.cancel mode cancelCall.reply).2)⟩
  | cutAtGet {n : Nat} : round.cutOff = some n →
      Stops round ((onTaskCancel c cleanup).after [.get ((c.get mode round.reply).1.take n)])
  | cutAtSleep : round.InTime c mode → round.sleepCutOff = true →
      Stops round ((onTaskCancel c cleanup).after [.get (c.get mode round.reply).1, .sleep])
  | cutAtCancel {n : Nat} : round.TimesOut c mode → c.cancelOnTimeout = true →
      cancelCall.cutOff = some n →
      Stops round ((onTaskCancel c cleanup).after [.get (c.get mode round.reply).1,
        .cancel ((c.cancel mode cancelCall.reply).1.take n)])

/-- How a poll leaves in a round; it sleeps at the end of one that is waited out. -/
def leave (round : AsyncRound) : PollRun :=
  let issued := (c.get mode round.reply).1
  match round.cutOff with
  | some n => (onTaskCancel c cleanup).after [.get (issued.take n)]
  | none =>
    match (c.get mode round.reply).2 with
    | .error e => ⟨[.get issued], .raised e⟩
    | .ok response =>
      if !response.isRunning then ⟨[.get issued], .returned response⟩
      else if c.deadline ≤ round.clock then
        if c.cancelOnTimeout then
          let cancelIssued := (c.cancel mode cancelCall.reply).1
          match cancelCall.cutOff with
          | some n => (onTaskCancel c cleanup).after [.get issued, .cancel (cancelIssued.take n)]
          | none =>
            ⟨[.get issued, .cancel cancelIssued],
              .raised (c.timeoutAfter (c.cancel mode cancelCall.reply).2)⟩
        else ⟨[.get issued], .raised c.timeoutError⟩
      else if round.sleepCutOff then (onTaskCancel c cleanup).after [.get issued, .sleep]
      else
        match sleep mode c.pollInterval with
        | .error e => ⟨[.get issued, .sleep], .raised e⟩
        | .ok () => ⟨[.get issued, .sleep], .waiting⟩

/-- What the two clients have in common: `run` polls through rounds of the type `ρ`. -/
structure Polls {ρ : Type} (view : ρ → AsyncRound) (run : List ρ → PollRun) : Prop where
  nil : run [] = ⟨[], .waiting⟩
  waited : ∀ round rest, (view round).Waited c mode →
    run (round :: rest) = (run rest).after [.get (c.get mode (view round).reply).1, .sleep]
  stops : ∀ round rest, ¬ (view round).Waited c mode →
    run (round :: rest) = leave c mode cancelCall cleanup (view round)

end Rounds

/-! ### Both clients poll so -/

/-- A round of the synchronous client, where no task can be cancelled. -/
def Round.uncut (round : Round) : AsyncRound := { toRound := round }

section Clients

variable {c : PollCall}

theorem poll_polls (c : PollCall) (cancelReply : Script) (cleanup : Cleanup) :
    Polls c .sync { reply := cancelReply } cleanup Round.uncut (poll c cancelReply) where
  nil := rfl
  waited round rest h := by
    obtain ⟨⟨⟨_, response, hreply, hrunning⟩, hclock⟩, _, hsleep⟩ := h
    rw [Round.uncut] at hreply hclock ⊢
    dsimp only at hreply hclock ⊢
    rw [poll, hreply]
    dsimp only
    rw [if_neg (by simp [hrunning]), if_neg (not_le.mpr hclock), hsleep]
  stops round rest h := by
    rw [Round.uncut] at h ⊢
    rw [poll, leave]
    dsimp only
    cases hreply : (c.get .sync round.reply).2 with
    | error e => rfl
    | ok response =>
      cases hrunning : response.isRunning with
      | false => simp only [hrunning, Bool.not_false, ↓reduceIte]
      | true =>
        simp only [hrunning, Bool.not_true, Bool.false_eq_true, ↓reduceIte]
        by_cases hclock : c.deadline ≤ round.clock
        · simp only [hclock, ↓reduceIte]
        · simp only [hclock, ↓reduceIte]
          cases hsleep : sleep .sync c.pollInterval with
          | error e => rfl
          | ok _ =>
            exact absurd ⟨⟨⟨rfl, response, hreply, hrunning⟩, not_le.mp hclock⟩, rfl, hsleep⟩ h

/-- The actions of a round that was waited out come before those of the rest. -/
theorem asyncPoll_waited (cancelCall : AsyncCall) (cleanup : Cleanup) {round : AsyncRound}
    {rest : List AsyncRound} {actions : List PollAction}
    (h : asyncPollLoop c (round :: rest) =
      (actions ++ (asyncPollLoop c rest).1, (asyncPollLoop c rest).2)) :
    asyncPoll c cancelCall cleanup (round :: rest) =
      (asyncPoll c cancelCall cleanup rest).after actions := by
  rw [asyncPoll, asyncPoll, h]
  dsimp only
  cases (asyncPollLoop c rest).2 with
  | returned response => rfl
  | raised e => rfl
  | waiting => rfl
  | cancelled => exact (PollRun.after_after _ _ _).symm
  | broke =>
    dsimp only
    by_cases hown : c.cancelOnTimeout = true
    · rw [if_pos hown, if_pos hown]
      cases cancelCall.cutOff with
      | none => simp [PollRun.after]
      | some n => simp [PollRun.after]
    · rw [if_neg hown, if_neg hown]
      rfl

theorem asyncPoll_polls (c : PollCall) (cancelCall : AsyncCall) (cleanup : Cleanup) :
    Polls c .async cancelCall cleanup id (asyncPoll c cancelCall cleanup) where
  nil := rfl
  waited round rest h := by
    obtain ⟨⟨⟨hcut, response, hreply, hrunning⟩, hclock⟩, hsleepCut, hsleep⟩ := h
    dsimp only [id] at hcut hreply hclock hsleepCut ⊢
    apply asyncPoll_waited
    rw [asyncPollLoop, hcut, hreply]
    dsimp only
    rw [if_neg (by simp [hrunning]), if_neg (not_le.mpr hclock), if_neg (by simp [hsleepCut]), hsleep]
  stops round rest h := by
    show asyncPoll c cancelCall cleanup (round :: rest) = leave c .async cancelCall cleanup round
    rw [asyncPoll, asyncPollLoop, leave]
    cases hcut : round.cutOff with
    | some n => rfl
    | none =>
      dsimp only
      cases hreply : (c.get .async round.reply).2 with
      | error e => rfl
      | ok response =>
        cases hrunning : response.isRunning with
        | false => simp only [hrunning, Bool.not_false, ↓reduceIte]
        | true =>
          simp only [hrunning, Bool.not_true, Bool.false_eq_true, ↓reduceIte]
          by_cases hclock : c.deadline ≤ round.clock
          · simp only [hclock, ↓reduceIte]
            rfl
          · simp only [hclock, ↓reduceIte]
            by_cases hsleepCut : round.sleepCutOff = true
            · simp only [hsleepCut, ↓reduceIte]
            · exact absurd ⟨⟨⟨hcut, response, hreply, hrunning⟩, not_le.mp hclock⟩,
                by simpa using hsleepCut, rfl⟩ h

end Clients

/-! ### After a task cancellation -/

namespace Cleanup

variable (cleanup : Cleanup)

/-- The clock has not passed the bound at the first look. -/
def Begins : Prop := ∃ turn ∈ cleanup.turns.head?, turn.clock < cleanup.deadline

/-- The request finishes, or the clock passes the bound. -/
def Ends : Prop := ∃ turn ∈ cleanup.turns, turn.finished = true ∨ cleanup.deadline ≤ turn.clock

end Cleanup

theorem awaitCancel_ended {deadline : ℚ} {request : PollAction} {begun : Bool} {turns : List Turn} :
    (awaitCancel deadline request begun turns).2 = true ↔
      ∃ turn ∈ turns, turn.finished = true ∨ deadline ≤ turn.clock := by
  induction turns generalizing begun with
  | nil => simp [awaitCancel]
  | cons turn turns ih =>
    rw [awaitCancel]
    by_cases hclock : deadline ≤ turn.clock
    · simp [hclock]
    · by_cases hfinished : turn.finished = true
      · simp [hclock, hfinished]
      · simp [hclock, hfinished, ih]

/-- Once the request has begun, it is not begun again. -/
theorem countP_awaitCancel_begun {deadline : ℚ} {request : PollAction} {turns : List Turn} :
    (awaitCancel deadline request true turns).1.countP PollAction.isCancel = 0 := by
  induction turns with
  | nil => rfl
  | cons turn turns ih =>
    rw [awaitCancel]
    by_cases hclock : deadline ≤ turn.clock
    · rw [if_pos hclock]
      rfl
    · rw [if_neg hclock]
      by_cases hfinished : turn.finished = true
      · rw [if_pos hfinished]
        rfl
      · rw [if_neg hfinished]
        exact ih

theorem countP_awaitCancel {deadline : ℚ} {issued : List Exchange} {turn : Turn}
    {turns : List Turn} (hclock : turn.clock < deadline) :
    (awaitCancel deadline (.cancel issued) false (turn :: turns)).1.countP PollAction.isCancel = 1 := by
  rw [awaitCancel, if_neg (not_le.mpr hclock)]
  by_cases hfinished : turn.finished = true
  · rw [if_pos hfinished]
    rfl
  · rw [if_neg hfinished]
    dsimp only
    rw [if_neg (by simp), List.countP_append, countP_awaitCancel_begun]
    rfl

theorem mem_awaitCancel {deadline : ℚ} {request action : PollAction} {begun : Bool}
    {turns : List Turn} (h : action ∈ (awaitCancel deadline request begun turns).1) :
    action = request ∨ action = .abandoned := by
  induction turns generalizing begun with
  | nil => cases h
  | cons turn turns ih =>
    rw [awaitCancel] at h
    by_cases hclock : deadline ≤ turn.clock
    · rw [if_pos hclock] at h
      exact .inr (List.mem_singleton.mp h)
    · rw [if_neg hclock] at h
      have hbegins : action ∈ (if begun then [] else [request]) → action = request := by
        cases begun <;> simp
      by_cases hfinished : turn.finished = true
      · rw [if_pos hfinished] at h
        exact .inl (hbegins h)
      · rw [if_neg hfinished] at h
        rcases List.mem_append.mp h with h | h
        · exact .inl (hbegins h)
        · exact ih h

theorem cancelAfterTaskCancel_ended {c : PollCall} {cleanup : Cleanup} :
    (cancelAfterTaskCancel c cleanup).2 = true ↔ cleanup.Ends := awaitCancel_ended

theorem countP_cancelAfterTaskCancel (c : PollCall) {cleanup : Cleanup} (h : cleanup.Begins) :
    (cancelAfterTaskCancel c cleanup).1.countP PollAction.isCancel = 1 := by
  obtain ⟨turn, hhead, hclock⟩ := h
  rw [cancelAfterTaskCancel]
  dsimp only
  rw [List.countP_cons_of_neg (by simp [PollAction.isCancel])]
  cases hturns : cleanup.turns with
  | nil => simp [hturns] at hhead
  | cons first turns =>
    rw [hturns] at hhead
    cases hhead
    exact countP_awaitCancel hclock

/-- Where the clock has passed the bound at the first look, no request is made. -/
theorem countP_cancelAfterTaskCancel_of_not_begins (c : PollCall) {cleanup : Cleanup}
    (h : ¬ cleanup.Begins) :
    (cancelAfterTaskCancel c cleanup).1.countP PollAction.isCancel = 0 := by
  rw [cancelAfterTaskCancel]
  dsimp only
  rw [List.countP_cons_of_neg (by simp [PollAction.isCancel])]
  cases hturns : cleanup.turns with
  | nil => rfl
  | cons first turns =>
    have hclock : cleanup.deadline ≤ first.clock := by
      by_contra hclock
      exact h ⟨first, by rw [hturns]; rfl, not_le.mp hclock⟩
    rw [awaitCancel, if_pos hclock]
    rfl

/-- **What follows a task cancellation**: the statement of an owner is given to a request, which is
made once if it begins in time and else not at all, and the `CancelledError` is raised again as soon
as the wait ends. -/
structure CancelsFor (c : PollCall) (cleanup : Cleanup) (later : List PollAction)
    (outcome : PollEnd) : Prop where
  scheduled : c.cancelOnTimeout = true → .scheduled ∈ later
  begins : c.cancelOnTimeout = true → cleanup.Begins → later.countP PollAction.isCancel = 1
  notBegun : ¬ cleanup.Begins → later.countP PollAction.isCancel = 0
  notOwned : c.cancelOnTimeout = false → later = []
  reraised : c.cancelOnTimeout = false ∨ cleanup.Ends → outcome = .cancelled
  waits : outcome = .cancelled ∨ outcome = .waiting

theorem onTaskCancel_spec (c : PollCall) (cleanup : Cleanup) : ∃ later,
    (onTaskCancel c cleanup).actions = .taskCancelled :: later ∧
      CancelsFor c cleanup later (onTaskCancel c cleanup).outcome := by
  rw [onTaskCancel]
  by_cases hown : c.cancelOnTimeout = true
  · have hended : ∀ {p : Prop}, c.cancelOnTimeout = false → p := by
      intro p h
      rw [hown] at h
      cases h
    rw [if_pos hown]
    refine ⟨_, rfl, ⟨fun _ => ?_, fun _ => countP_cancelAfterTaskCancel c,
      countP_cancelAfterTaskCancel_of_not_begins c, hended, ?_, ?_⟩⟩
    · rw [cancelAfterTaskCancel]
      exact List.mem_cons_self
    · rintro (h | h)
      · exact hended h
      · exact if_pos (cancelAfterTaskCancel_ended.mpr h)
    · dsimp only
      split
      · exact .inl rfl
      · exact .inr rfl
  · rw [if_neg hown]
    exact ⟨[], rfl, ⟨fun h => absurd h hown, fun h => absurd h hown, fun _ => rfl, fun _ => rfl,
      fun _ => rfl, .inl rfl⟩⟩

/-- The request is for the statement of the poll. -/
theorem about_onTaskCancel (c : PollCall) (cleanup : Cleanup) :
    ∀ action ∈ (onTaskCancel c cleanup).actions, action.About c.handle := by
  intro action h
  rw [onTaskCancel] at h
  by_cases hown : c.cancelOnTimeout = true
  · rw [if_pos hown, cancelAfterTaskCancel] at h
    rcases List.mem_cons.mp h with rfl | h
    · trivial
    rcases List.mem_cons.mp h with rfl | h
    · trivial
    rcases mem_awaitCancel h with rfl | rfl
    · exact fun x hx => send_target x (List.mem_of_mem_take hx)
    · trivial
  · rw [if_neg hown] at h
    obtain rfl := List.mem_singleton.mp h
    trivial

/-! ### What a poll comes to -/

section Polls

variable {c : PollCall} {mode : Mode} {cancelCall : AsyncCall} {cleanup : Cleanup} {ρ : Type}
  {view : ρ → AsyncRound} {run : List ρ → PollRun}

/-- Rounds that are waited out come before the rest of the run. -/
theorem Polls.append (hrun : Polls c mode cancelCall cleanup view run) {before : List ρ}
    (hbefore : ∀ round ∈ before, (view round).Waited c mode) (rest : List ρ) :
    run (before ++ rest) = (run rest).after (waitedActions c mode (before.map view)) := by
  induction before with
  | nil => rfl
  | cons round before ih =>
    have hround := hbefore round (by simp)
    rw [List.cons_append, hrun.waited _ _ hround, ih fun r hr => hbefore r (by simp [hr]),
      PollRun.after_after]
    rfl

/-- A list of rounds, up to the first that is not waited out. -/
theorem exists_waited_append (c : PollCall) (mode : Mode) (view : ρ → AsyncRound) (rounds : List ρ) :
    (∀ round ∈ rounds, (view round).Waited c mode) ∨
      ∃ before round rest, rounds = before ++ round :: rest ∧
        (∀ r ∈ before, (view r).Waited c mode) ∧ ¬ (view round).Waited c mode := by
  induction rounds with
  | nil => exact .inl (by simp)
  | cons round rounds ih =>
    by_cases hround : (view round).Waited c mode
    · rcases ih with hall | ⟨before, stop, rest, rfl, hbefore, hstop⟩
      · exact .inl (by simpa [hround] using hall)
      · exact .inr ⟨round :: before, stop, rest, rfl, by simpa [hround] using hbefore, hstop⟩
    · exact .inr ⟨[], round, rounds, rfl, by simp, hround⟩

theorem countP_isCancel_waitedActions (rounds : List AsyncRound) :
    (waitedActions c mode rounds).countP PollAction.isCancel = 0 := by
  induction rounds with
  | nil => rfl
  | cons round rounds ih => exact ih

theorem countP_isGet_waitedActions (rounds : List AsyncRound) :
    (waitedActions c mode rounds).countP PollAction.isGet = rounds.length := by
  induction rounds with
  | nil => rfl
  | cons round rounds ih =>
    show List.countP _ ([_, _] ++ waitedActions c mode rounds) = _
    rw [List.countP_append, ih, List.length_cons, Nat.add_comm]
    rfl

theorem taskCancelled_notMem_waitedActions (rounds : List AsyncRound) :
    .taskCancelled ∉ waitedActions c mode rounds := by
  simp [waitedActions]

theorem about_waitedActions (rounds : List AsyncRound) :
    ∀ action ∈ waitedActions c mode rounds, action.About c.handle := by
  intro action h
  obtain ⟨round, _, haction⟩ := List.mem_flatMap.mp h
  rcases List.mem_cons.mp haction with rfl | haction
  · exact fun x hx => send_target x hx
  · obtain rfl := List.mem_singleton.mp haction
    trivial

theorem about_after {handle : Json} {actions : List PollAction} {run : PollRun}
    (hactions : ∀ action ∈ actions, action.About handle)
    (hrun : ∀ action ∈ run.actions, action.About handle) :
    ∀ action ∈ (run.after actions).actions, action.About handle := by
  intro action haction
  rcases List.mem_append.mp haction with haction | haction
  · exact hactions action haction
  · exact hrun action haction

/-- The poll leaves in one of these ways. -/
theorem leave_stops {round : AsyncRound} (h : ¬ round.Waited c mode) :
    Stops c mode cancelCall cleanup round (leave c mode cancelCall cleanup round) := by
  rw [leave]
  cases hcut : round.cutOff with
  | some n => exact .cutAtGet hcut
  | none =>
    cases hreply : (c.get mode round.reply).2 with
    | error e => exact .failed hcut hreply
    | ok response =>
      cases hrunning : response.isRunning with
      | false =>
        simp only [hrunning, Bool.not_false, ↓reduceIte]
        exact .returned hcut hreply hrunning
      | true =>
        have hround : round.Running c mode := ⟨hcut, response, hreply, hrunning⟩
        simp only [hrunning, Bool.not_true, Bool.false_eq_true, ↓reduceIte]
        by_cases hclock : c.deadline ≤ round.clock
        · rw [if_pos hclock]
          cases hown : c.cancelOnTimeout with
          | false => exact .timedOut ⟨hround, hclock⟩ hown
          | true =>
            cases hcancel : cancelCall.cutOff with
            | none => exact .timedOutOwned ⟨hround, hclock⟩ hown hcancel
            | some n => exact .cutAtCancel ⟨hround, hclock⟩ hown hcancel
        · have hin : round.InTime c mode := ⟨hround, not_le.mp hclock⟩
          rw [if_neg hclock]
          cases hsleepCut : round.sleepCutOff with
          | true => exact .cutAtSleep hin hsleepCut
          | false =>
            cases hsleep : sleep mode c.pollInterval with
            | error e => exact .sleepFailed hin hsleepCut hsleep
            | ok _ => exact absurd ⟨hin, hsleepCut, hsleep⟩ h

/-- A finished reply is returned. -/
theorem leave_of_finished {round : AsyncRound} {response : StatementResponse}
    (hcut : round.cutOff = none) (hreply : (c.get mode round.reply).2 = .ok response)
    (hfinished : response.isRunning = false) :
    leave c mode cancelCall cleanup round =
      ⟨[.get (c.get mode round.reply).1], .returned response⟩ := by
  rw [leave, hcut, hreply]
  simp only [hfinished, Bool.not_false, ↓reduceIte]

/-- The error of a GET is raised. -/
theorem leave_of_error {round : AsyncRound} {e : Exc} (hcut : round.cutOff = none)
    (hreply : (c.get mode round.reply).2 = .error e) :
    leave c mode cancelCall cleanup round = ⟨[.get (c.get mode round.reply).1], .raised e⟩ := by
  rw [leave, hcut, hreply]

theorem timeoutAfter_cls (c : PollCall) (result : Except Exc StatementResponse) :
    (c.timeoutAfter result).cls = .timeout := by
  cases result with
  | error e => rfl
  | ok response => rfl

theorem leave_of_timesOut {round : AsyncRound} (h : round.TimesOut c mode)
    (hcancel : c.cancelOnTimeout = true → cancelCall.cutOff = none) :
    ∃ e, (leave c mode cancelCall cleanup round).outcome = .raised e ∧ e.cls = .timeout := by
  obtain ⟨⟨hcut, response, hreply, hrunning⟩, hclock⟩ := h
  rw [leave, hcut, hreply]
  simp only [hrunning, Bool.not_true, Bool.false_eq_true, ↓reduceIte]
  rw [if_pos hclock]
  cases hown : c.cancelOnTimeout with
  | false => exact ⟨_, rfl, rfl⟩
  | true =>
    rw [hcancel hown]
    exact ⟨_, rfl, timeoutAfter_cls c _⟩

theorem taskCancelled_mem_after (actions : List PollAction) :
    .taskCancelled ∈ ((onTaskCancel c cleanup).after actions).actions := by
  obtain ⟨later, hlater, _⟩ := onTaskCancel_spec c cleanup
  rw [PollRun.after, hlater]
  simp

theorem leave_of_cutOff {round : AsyncRound} (h : round.CutOff c mode cancelCall) :
    .taskCancelled ∈ (leave c mode cancelCall cleanup round).actions := by
  rw [leave]
  rcases h with h | ⟨⟨⟨hcut, response, hreply, hrunning⟩, hclock⟩, hsleepCut⟩ |
    ⟨⟨⟨hcut, response, hreply, hrunning⟩, hclock⟩, hown, hcancel⟩
  · obtain ⟨n, hcut⟩ := Option.ne_none_iff_exists'.mp h
    rw [hcut]
    exact taskCancelled_mem_after _
  · rw [hcut, hreply]
    simp only [hrunning, Bool.not_true, Bool.false_eq_true, ↓reduceIte]
    rw [if_neg (not_le.mpr hclock), if_pos hsleepCut]
    exact taskCancelled_mem_after _
  · obtain ⟨n, hcancel⟩ := Option.ne_none_iff_exists'.mp hcancel
    rw [hcut, hreply]
    simp only [hrunning, Bool.not_true, Bool.false_eq_true, ↓reduceIte]
    rw [if_pos hclock, if_pos hown, hcancel]
    exact taskCancelled_mem_after _

/-! ### Ownership -/

/-- The first round that is not waited out, with those before it. -/
structure Stopped (c : PollCall) (mode : Mode) (view : ρ → AsyncRound) (rounds : List ρ) (run : PollRun)
    (before : List ρ) (round : ρ) : Prop where
  rounds_eq : ∃ rest, rounds = before ++ round :: rest
  running : ∀ r ∈ before, (view r).Running c mode
  latest : run.gets = before.length + 1

/-- **Ownership of a polled statement.** `reached` is about any round the poll gets to. -/
structure Ownership (c : PollCall) (mode : Mode) (cancelCall : AsyncCall) (cleanup : Cleanup)
    (view : ρ → AsyncRound) (rounds : List ρ) (run : PollRun) : Prop where
  /-- What is returned is the first finished reply, and there was no cancel. -/
  returned : ∀ response, run.outcome = .returned response → run.cancels = 0 ∧
    ∃ before round, Stopped c mode view rounds run before round ∧ (view round).cutOff = none ∧
      (c.get mode (view round).reply).2 = .ok response ∧ response.isRunning = false
  /-- A timeout comes after a running reply past the deadline, and cancels what the client owns once. -/
  timedOut : ∀ e, run.outcome = .raised e → e.cls = .timeout →
    run.cancels = (if c.cancelOnTimeout then 1 else 0) ∧
      ∃ before round, Stopped c mode view rounds run before round ∧ (view round).TimesOut c mode
  reached : ∀ before round rest, rounds = before ++ round :: rest →
    (∀ r ∈ before, (view r).Waited c mode) →
    (∀ response, (view round).cutOff = none → (c.get mode (view round).reply).2 = .ok response →
      response.isRunning = false → run.outcome = .returned response) ∧
    (∀ e, (view round).cutOff = none → (c.get mode (view round).reply).2 = .error e →
      run.outcome = .raised e ∧ run.cancels = 0) ∧
    ((view round).TimesOut c mode → (c.cancelOnTimeout = true → cancelCall.cutOff = none) →
      ∃ e, run.outcome = .raised e ∧ e.cls = .timeout) ∧
    ((view round).CutOff c mode cancelCall → .taskCancelled ∈ run.actions)
  taskCancelled : .taskCancelled ∈ run.actions → ∃ first later,
    run.actions = first ++ .taskCancelled :: later ∧ CancelsFor c cleanup later run.outcome
  notOwned : c.cancelOnTimeout = false → run.cancels = 0
  /-- Every request is for the statement: a GET of its status, or a cancel of it. -/
  requests : ∀ action ∈ run.actions, action.About c.handle

namespace AsyncRound

variable {round : AsyncRound}

theorem not_waited_of_finished {response : StatementResponse}
    (hreply : (c.get mode round.reply).2 = .ok response) (hfinished : response.isRunning = false) :
    ¬ round.Waited c mode := by
  rintro ⟨⟨⟨_, response', hreply', hrunning⟩, _⟩, _⟩
  rw [hreply] at hreply'
  cases hreply'
  rw [hfinished] at hrunning
  cases hrunning

theorem not_waited_of_error {e : Exc} (hreply : (c.get mode round.reply).2 = .error e) :
    ¬ round.Waited c mode := by
  rintro ⟨⟨⟨_, response, hreply', _⟩, _⟩, _⟩
  rw [hreply] at hreply'
  cases hreply'

theorem not_waited_of_timesOut (h : round.TimesOut c mode) : ¬ round.Waited c mode :=
  fun hwaited => absurd hwaited.1.2 (not_lt.mpr h.2)

theorem not_waited_of_cutOff (h : round.CutOff c mode cancelCall) : ¬ round.Waited c mode := by
  intro hwaited
  rcases h with h | ⟨_, h⟩ | ⟨h, _, _⟩
  · exact h hwaited.1.1.1
  · rw [hwaited.2.1] at h
    cases h
  · exact not_waited_of_timesOut h hwaited

end AsyncRound

/-- A poll that was cancelled neither returns nor raises an error. -/
theorem onTaskCancel_outcome (c : PollCall) (cleanup : Cleanup) :
    (onTaskCancel c cleanup).outcome = .cancelled ∨ (onTaskCancel c cleanup).outcome = .waiting := by
  obtain ⟨later, _, hlater⟩ := onTaskCancel_spec c cleanup
  exact hlater.waits

/-- The cancels of a poll that was cancelled, if the client does not own the statement. -/
theorem onTaskCancel_cancels (hown : c.cancelOnTimeout = false) :
    (onTaskCancel c cleanup).cancels = 0 := by
  obtain ⟨later, hactions, hlater⟩ := onTaskCancel_spec c cleanup
  rw [PollRun.cancels, hactions, hlater.notOwned hown]
  rfl

namespace Stops

variable {round : AsyncRound} {r : PollRun}

theorem of_returned (h : Stops c mode cancelCall cleanup round r) {response : StatementResponse}
    (hr : r.outcome = .returned response) : r.cancels = 0 ∧ r.gets = 1 ∧ round.cutOff = none ∧
      (c.get mode round.reply).2 = .ok response ∧ response.isRunning = false := by
  cases h with
  | returned hcut hreply hfinished =>
    cases hr
    exact ⟨rfl, rfl, hcut, hreply, hfinished⟩
  | failed _ _ => cases hr
  | sleepFailed _ _ _ => cases hr
  | timedOut _ _ => cases hr
  | timedOutOwned _ _ _ => cases hr
  | cutAtGet _ | cutAtSleep _ _ | cutAtCancel _ _ _ =>
    rcases onTaskCancel_outcome c cleanup with h | h
    · cases h.symm.trans hr
    · cases h.symm.trans hr

theorem of_timeout (h : Stops c mode cancelCall cleanup round r) {e : Exc}
    (hr : r.outcome = .raised e) (he : e.cls = .timeout) :
    r.cancels = (if c.cancelOnTimeout then 1 else 0) ∧ r.gets = 1 ∧ round.TimesOut c mode := by
  cases h with
  | returned _ _ _ => cases hr
  | failed _ hreply =>
    cases hr
    exact absurd he (send_cls_ne_timeout hreply)
  | sleepFailed _ _ hsleep =>
    cases hr
    obtain ⟨name, hname⟩ := (sleep_error_builtin hsleep).foreign
    rw [hname] at he
    cases he
  | timedOut hround hown =>
    rw [hown]
    exact ⟨rfl, rfl, hround⟩
  | timedOutOwned hround hown _ =>
    rw [hown]
    exact ⟨rfl, rfl, hround⟩
  | cutAtGet _ | cutAtSleep _ _ | cutAtCancel _ _ _ =>
    rcases onTaskCancel_outcome c cleanup with h | h
    · cases h.symm.trans hr
    · cases h.symm.trans hr

theorem of_taskCancelled (h : Stops c mode cancelCall cleanup round r)
    (hr : .taskCancelled ∈ r.actions) : ∃ first later,
      r.actions = first ++ .taskCancelled :: later ∧ CancelsFor c cleanup later r.outcome := by
  obtain ⟨later, hactions, hlater⟩ := onTaskCancel_spec c cleanup
  cases h with
  | returned _ _ _ | failed _ _ | sleepFailed _ _ _ | timedOut _ _ | timedOutOwned _ _ _ =>
    simp at hr
  | cutAtGet _ | cutAtSleep _ _ | cutAtCancel _ _ _ =>
    exact ⟨_, later, by rw [PollRun.after, hactions], hlater⟩

theorem of_notOwned (h : Stops c mode cancelCall cleanup round r)
    (hown : c.cancelOnTimeout = false) : r.cancels = 0 := by
  cases h with
  | returned _ _ _ | failed _ _ | sleepFailed _ _ _ | timedOut _ _ => rfl
  | timedOutOwned _ h _ | cutAtCancel _ h _ =>
    rw [hown] at h
    cases h
  | cutAtGet _ | cutAtSleep _ _ =>
    rw [PollRun.cancels_after, onTaskCancel_cancels hown]
    rfl

theorem about (h : Stops c mode cancelCall cleanup round r) :
    ∀ action ∈ r.actions, action.About c.handle := by
  have hget : ∀ n, PollAction.About c.handle (.get ((c.get mode round.reply).1.take n)) :=
    fun n x hx => send_target x (List.mem_of_mem_take hx)
  have hgets : PollAction.About c.handle (.get (c.get mode round.reply).1) :=
    fun x hx => send_target x hx
  have hcancel : ∀ n, PollAction.About c.handle (.cancel ((c.cancel mode cancelCall.reply).1.take n)) :=
    fun n x hx => send_target x (List.mem_of_mem_take hx)
  have hcancels : PollAction.About c.handle (.cancel (c.cancel mode cancelCall.reply).1) :=
    fun x hx => send_target x hx
  have hsleep : PollAction.About c.handle .sleep := trivial
  cases h with
  | returned _ _ _ | failed _ _ | sleepFailed _ _ _ | timedOut _ _ | timedOutOwned _ _ _ =>
    simp [hgets, hcancels, hsleep]
  | cutAtGet _ | cutAtSleep _ _ | cutAtCancel _ _ _ =>
    exact about_after (by simp [hget, hgets, hcancel, hsleep]) (about_onTaskCancel c cleanup)

end Stops

variable (hrun : Polls c mode cancelCall cleanup view run)
include hrun

/-- A run that gets to a round that is not waited out. -/
theorem Polls.run_eq {before : List ρ} {round : ρ} (rest : List ρ)
    (hbefore : ∀ r ∈ before, (view r).Waited c mode) (hround : ¬ (view round).Waited c mode) :
    run (before ++ round :: rest) =
      (leave c mode cancelCall cleanup (view round)).after
        (waitedActions c mode (before.map view)) := by
  rw [hrun.append hbefore, hrun.stops round rest hround]

/-- A run goes through all its rounds, or leaves in the first that is not waited out. -/
theorem Polls.cases (rounds : List ρ) :
    ((∀ r ∈ rounds, (view r).Waited c mode) ∧
        run rounds = ⟨waitedActions c mode (rounds.map view), .waiting⟩) ∨
      ∃ before round rest left, rounds = before ++ round :: rest ∧
        (∀ r ∈ before, (view r).Waited c mode) ∧
        Stops c mode cancelCall cleanup (view round) left ∧
        run rounds = left.after (waitedActions c mode (before.map view)) := by
  rcases exists_waited_append c mode view rounds with hall | ⟨before, round, rest, rfl, hbefore, hround⟩
  · refine .inl ⟨hall, ?_⟩
    have happend := hrun.append hall []
    rw [List.append_nil, hrun.nil, PollRun.after, List.append_nil] at happend
    exact happend
  · exact .inr ⟨before, round, rest, _, rfl, hbefore, leave_stops hround,
      hrun.run_eq rest hbefore hround⟩

theorem Polls.ownership (rounds : List ρ) :
    Ownership c mode cancelCall cleanup view rounds (run rounds) where
  returned response hresponse := by
    rcases hrun.cases rounds with ⟨_, hall⟩ | ⟨before, round, rest, left, hrounds, hbefore, hleft, hend⟩
    · rw [hall] at hresponse
      cases hresponse
    · rw [hend] at hresponse ⊢
      obtain ⟨hcancels, hgets, hround⟩ := hleft.of_returned hresponse
      refine ⟨?_, before, round, ⟨⟨rest, hrounds⟩, fun r hr => (hbefore r hr).1.1, ?_⟩, hround⟩
      · rw [PollRun.cancels_after, hcancels, countP_isCancel_waitedActions]
      · rw [PollRun.gets_after, hgets, countP_isGet_waitedActions, List.length_map]
  timedOut e hraised he := by
    rcases hrun.cases rounds with ⟨_, hall⟩ | ⟨before, round, rest, left, hrounds, hbefore, hleft, hend⟩
    · rw [hall] at hraised
      cases hraised
    · rw [hend] at hraised ⊢
      obtain ⟨hcancels, hgets, hround⟩ := hleft.of_timeout hraised he
      refine ⟨?_, before, round, ⟨⟨rest, hrounds⟩, fun r hr => (hbefore r hr).1.1, ?_⟩, hround⟩
      · rw [PollRun.cancels_after, hcancels, countP_isCancel_waitedActions, Nat.zero_add]
      · rw [PollRun.gets_after, hgets, countP_isGet_waitedActions, List.length_map]
  reached before round rest hrounds hbefore := by
    subst hrounds
    refine ⟨fun response hcut hreply hfinished => ?_, fun e hcut hreply => ?_, fun hround hcancel => ?_,
      fun hround => ?_⟩
    · rw [hrun.run_eq rest hbefore (AsyncRound.not_waited_of_finished hreply hfinished),
        leave_of_finished hcut hreply hfinished]
      rfl
    · rw [hrun.run_eq rest hbefore (AsyncRound.not_waited_of_error hreply),
        leave_of_error hcut hreply]
      refine ⟨rfl, ?_⟩
      rw [PollRun.cancels_after, countP_isCancel_waitedActions]
      rfl
    · rw [hrun.run_eq rest hbefore (AsyncRound.not_waited_of_timesOut hround)]
      exact leave_of_timesOut hround hcancel
    · rw [hrun.run_eq rest hbefore (AsyncRound.not_waited_of_cutOff hround)]
      exact List.mem_append_right _ (leave_of_cutOff hround)
  taskCancelled htask := by
    rcases hrun.cases rounds with ⟨_, hall⟩ | ⟨before, round, rest, left, hrounds, hbefore, hleft, hend⟩
    · rw [hall] at htask
      exact absurd htask (taskCancelled_notMem_waitedActions _)
    · rw [hend] at htask ⊢
      rcases List.mem_append.mp htask with htask | htask
      · exact absurd htask (taskCancelled_notMem_waitedActions _)
      · obtain ⟨first, later, hactions, hlater⟩ := hleft.of_taskCancelled htask
        refine ⟨waitedActions c mode (before.map view) ++ first, later, ?_, hlater⟩
        rw [PollRun.after, hactions, List.append_assoc]
  notOwned hown := by
    rcases hrun.cases rounds with ⟨_, hall⟩ | ⟨before, round, rest, left, hrounds, hbefore, hleft, hend⟩
    · rw [hall, PollRun.cancels]
      exact countP_isCancel_waitedActions _
    · rw [hend, PollRun.cancels_after, hleft.of_notOwned hown, countP_isCancel_waitedActions]
  requests action haction := by
    rcases hrun.cases rounds with ⟨_, hall⟩ | ⟨before, round, rest, left, hrounds, hbefore, hleft, hend⟩
    · rw [hall] at haction
      exact about_waitedActions _ action haction
    · rw [hend] at haction
      exact about_after (about_waitedActions _) hleft.about action haction

end Polls

/-- **Statement ownership in polling**, on both clients. -/
theorem poll_ownership (c : PollCall) (cancelReply : Script) (rounds : List Round)
    (cancelCall : AsyncCall) (cleanup : Cleanup) (asyncRounds : List AsyncRound) :
    Ownership c .sync { reply := cancelReply } cleanup Round.uncut rounds
        (poll c cancelReply rounds) ∧
      Ownership c .async cancelCall cleanup id asyncRounds
        (asyncPoll c cancelCall cleanup asyncRounds) :=
  ⟨(poll_polls c cancelReply cleanup).ownership rounds,
    (asyncPoll_polls c cancelCall cleanup).ownership asyncRounds⟩

/-! ### A cancel that does not begin -/

def ownedCall : PollCall where
  policy := defaultRetryPolicy
  pollInterval := 1
  handle := .str (py "01b2-statement")
  timeout := none
  cancelOnTimeout := true
  started := 0

/-- The statement is running, at every attempt. -/
def runningScript : Script := fun _ =>
  ⟨idleDraw, .answered { statusCode := 202, json := some (.obj []) }⟩

/-- The task is cancelled at the first GET. -/
def cutRound : AsyncRound where
  reply := runningScript
  clock := 1
  cutOff := some 1

/-- The event loop stands still for five seconds before the first look at its clock. -/
def stalledCleanup : Cleanup where
  started := 1
  reply := runningScript
  issued := 0
  turns := [⟨6, false⟩]

/-- **No cancel begins** after this cancellation of the task, though the client owns the statement
and the clocks do not run backwards. -/
theorem scheduled_not_begun :
    ownedCall.cancelOnTimeout = true ∧
      ownedCall.started ≤ stalledCleanup.started ∧
      (∀ turn ∈ stalledCleanup.turns, stalledCleanup.started ≤ turn.clock) ∧
      .taskCancelled ∈ (asyncPoll ownedCall { reply := runningScript } stalledCleanup
        [cutRound]).actions ∧
      (asyncPoll ownedCall { reply := runningScript } stalledCleanup [cutRound]).cancels = 0 := by
  refine ⟨rfl, by decide +kernel, ?_, ?_, by decide +kernel⟩
  · intro turn hturn
    obtain rfl : turn = ⟨6, false⟩ := by simpa [stalledCleanup] using hturn
    show (1 : ℚ) ≤ 6
    norm_num
  · exact taskCancelled_mem_after _

end SnowflakeSqlApi
