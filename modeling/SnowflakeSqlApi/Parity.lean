import SnowflakeSqlApi.Batches.Evidence
import SnowflakeSqlApi.TransportSpec

/-!
# The two clients

The synchronous and the asynchronous client run one program on two transports, which differ in
`time.sleep` and in the places where a task can be cancelled.  Where the waits of the one come to
those of the other, a call is the same (`send_async`), and a poll is the same or cut short:
`asyncPoll_cutShort` says that a cancelled task has issued the requests of the synchronous poll up
to some point, and then at most requests to cancel the statement.

The waits of a synchronous client come to those of the same client on the other side where no sleep
raises; those of one that never waits (`calm`) do so always.
-/

namespace SnowflakeSqlApi

/-! ### Waits -/

namespace RetryPolicy

/-- The waits of `full` on the synchronous client come to what those of `policy` come to on the
asynchronous one. -/
structure WaitsAs (policy full : RetryPolicy) : Prop where
  attempts : full.maxAttempts = policy.maxAttempts
  statuses : full.retryStatuses = policy.retryStatuses
  waits : ∀ k < policy.maxAttempts.toNat, ∀ draw retryResponse,
    full.wait .sync draw k retryResponse = policy.wait .async draw k retryResponse

variable {policy full : RetryPolicy}

theorem WaitsAs.shouldRetryStatus (h : policy.WaitsAs full) :
    full.shouldRetryStatus = policy.shouldRetryStatus := by
  funext statusCode
  rw [RetryPolicy.shouldRetryStatus, h.statuses]
  rfl

theorem waitsAs_of_canWait (hwaits : policy.CanWait .sync) : policy.WaitsAs policy := by
  refine ⟨rfl, rfl, fun k hk draw retryResponse => ?_⟩
  have hasync : policy.CanWait .async := by
    intro attempt hattempt draw statusCode retryAfter
    obtain ⟨delay, hdelay, -⟩ := hwaits attempt hattempt draw statusCode retryAfter
    exact ⟨delay, hdelay, rfl⟩
  rw [wait_of_canWait hwaits hk, wait_of_canWait hasync hk]

/-- The policy, without its waits. -/
def calm (policy : RetryPolicy) : RetryPolicy :=
  { policy with baseBackoff := 0, maxBackoff := 0, maxRetryAfter := 0
                maxRetryAfter_nonneg := Rat.le_refl }

theorem ceilingFor_calm (factor : ℚ) (attempt : Nat) :
    policy.calm.ceilingFor factor attempt = (policy.ceilingFor factor attempt).map fun _ => 0 := by
  rw [ceilingFor, ceilingFor]
  show (floatPow policy.multiplier attempt >>= fun growth => pure (min (0 * factor * growth) 0)) = _
  cases floatPow policy.multiplier attempt with
  | error e => rfl
  | ok growth =>
    show Except.ok (min (0 * factor * growth) 0) = .ok 0
    rw [zero_mul, zero_mul, min_self]

theorem retryAfterDelay_calm (draw : Draw) (header : PyStr) :
    policy.calm.retryAfterDelay draw header =
      (policy.retryAfterDelay draw header).map fun _ => 0 := by
  rw [retryAfterDelay, retryAfterDelay]
  split
  · next seconds _ =>
    show some (min (seconds : ℚ) 0) = some 0
    rw [min_eq_right (Nat.cast_nonneg seconds)]
  · rw [Option.map_map]
    congr 1
    funext delay
    exact min_eq_right (le_max_left 0 delay)

/-- Each wait is over at once, and raises where the other does. -/
theorem delayFor_calm (draw : Draw) (attempt : Nat) (statusCode : Option Nat)
    (retryAfter : Option PyStr) : policy.calm.delayFor draw attempt statusCode retryAfter =
      (policy.delayFor draw attempt statusCode retryAfter).map fun _ => 0 := by
  have hheader : retryAfter.bind (policy.calm.retryAfterDelay draw) =
      (retryAfter.bind (policy.retryAfterDelay draw)).map fun _ => 0 := by
    cases retryAfter with
    | none => rfl
    | some header => exact retryAfterDelay_calm draw header
  cases hdelay : retryAfter.bind (policy.retryAfterDelay draw) with
  | some delay =>
    rw [hdelay] at hheader
    rw [delayFor_of_header hheader, delayFor_of_header hdelay]
    rfl
  | none =>
    rw [hdelay] at hheader
    rw [delayFor_of_schedule hheader, delayFor_of_schedule hdelay, ceilingFor_calm]
    show ((policy.ceilingFor (policy.factor statusCode) attempt).map _ >>= _) = _
    cases policy.ceilingFor (policy.factor statusCode) attempt with
    | error e => rfl
    | ok ceiling =>
      show Except.ok (policy.calm.spread draw 0) = .ok 0
      rw [spread, zero_mul, ite_self]

theorem sleep_zero : sleep .sync 0 = .ok () := sleep_of_bounds .sync le_rfl (by norm_num [longestSleep])

theorem waitsAs_calm (policy : RetryPolicy) : policy.WaitsAs policy.calm := by
  refine ⟨rfl, rfl, fun k _ draw retryResponse => ?_⟩
  cases k with
  | zero => rfl
  | succ k =>
    rw [wait, wait, delayFor_calm]
    cases policy.delayFor draw k (retryResponse.map (·.statusCode))
      (retryResponse.bind (·.retryAfter)) with
    | error e => rfl
    | ok delay => exact sleep_zero

end RetryPolicy

/-! ### Calls -/

section Calls

variable {policy full : RetryPolicy} (hwaits : policy.WaitsAs full)

include hwaits

theorem attemptFrom_async (request : Request) (script : Script) {n k : Nat}
    (hn : k + n = policy.maxAttempts.toNat) (st : LoopState) :
    attemptFrom policy .async request script n k st =
      attemptFrom full .sync request script n k st := by
  induction n generalizing k st with
  | zero =>
    rw [attemptFrom, attemptFrom, hwaits.attempts]
  | succ n ih =>
    have hk : k < policy.maxAttempts.toNat := by omega
    have hnext : k + 1 + n = policy.maxAttempts.toNat := by omega
    rw [attemptFrom, attemptFrom, hwaits.waits k hk, hwaits.shouldRetryStatus]
    cases policy.wait .async (script k).draw k st.retryResponse with
    | error e => rfl
    | ok _ =>
      dsimp only
      cases (script k).event with
      | tokenError name => rfl
      | failed name => rfl
      | lost name =>
        dsimp only
        rw [ih hnext]
      | answered r =>
        dsimp only
        rw [ih hnext]

/-- **A call is the same for both clients** if their waits come to the same. -/
theorem send_async (request : Request) (script : Script) :
    send policy .async request script = send full .sync request script := by
  rw [send, send, hwaits.attempts, attemptFrom_async hwaits request script (Nat.zero_add _)]

end Calls

/-! ### Polls -/

namespace PollRun

/-- The requests of a run. -/
def exchanges (run : PollRun) : List Exchange := run.actions.flatMap PollAction.exchanges

theorem exchanges_after (run : PollRun) (actions : List PollAction) :
    (run.after actions).exchanges = actions.flatMap PollAction.exchanges ++ run.exchanges :=
  List.flatMap_append

end PollRun

/-- How a run of the asynchronous poll compares with the synchronous one: it is the same, or the task
was cancelled, and it has issued the first requests of the other and requests to cancel the statement. -/
inductive PollRun.CutShort (handle : Json) (full : PollRun) : PollRun → Prop
  | whole : CutShort handle full full
  | cut {run : PollRun} (issued later : List Exchange) : .taskCancelled ∈ run.actions →
      run.outcome = .cancelled ∨ run.outcome = .waiting → run.exchanges = issued ++ later →
      issued <+: full.exchanges → (∀ x ∈ later, x.request.target = .cancel handle) →
      CutShort handle full run

/-- The poll, with other waits. -/
def PollCall.withWaits (c : PollCall) (policy : RetryPolicy) (interval : ℚ) : PollCall :=
  { c with policy := policy, pollInterval := interval }

@[simp] theorem PollCall.withWaits_deadline (c : PollCall) (policy : RetryPolicy) (interval : ℚ) :
    (c.withWaits policy interval).deadline = c.deadline := rfl

@[simp] theorem PollCall.withWaits_cancelOnTimeout (c : PollCall) (policy : RetryPolicy)
    (interval : ℚ) : (c.withWaits policy interval).cancelOnTimeout = c.cancelOnTimeout := rfl

section Polls

variable {c : PollCall} {policy : RetryPolicy} {interval : ℚ}

theorem PollCall.get_async (h : c.policy.WaitsAs policy) (interval : ℚ) (reply : Script) :
    c.get .async reply = (c.withWaits policy interval).get .sync reply := send_async h _ _

theorem PollCall.cancel_async (h : c.policy.WaitsAs policy) (interval : ℚ) (reply : Script) :
    c.cancel .async reply = (c.withWaits policy interval).cancel .sync reply := send_async h _ _

theorem awaitCancel_exchanges {deadline : ℚ} {request : PollAction} {begun : Bool}
    {turns : List Turn} : ∀ x ∈ (awaitCancel deadline request begun turns).1.flatMap
      PollAction.exchanges, x ∈ request.exchanges := by
  intro x hx
  obtain ⟨action, haction, hmem⟩ := List.mem_flatMap.mp hx
  rcases mem_awaitCancel haction with rfl | rfl
  · exact hmem
  · cases hmem

/-- After a task cancellation only the statement is cancelled. -/
theorem onTaskCancel_exchanges (c : PollCall) (cleanup : Cleanup) :
    ∀ x ∈ (onTaskCancel c cleanup).exchanges, x.request.target = .cancel c.handle := by
  intro x hx
  rw [PollRun.exchanges, onTaskCancel] at hx
  by_cases hown : c.cancelOnTimeout = true
  · rw [if_pos hown, cancelAfterTaskCancel] at hx
    have hmem := awaitCancel_exchanges x hx
    exact send_target x (List.mem_of_mem_take hmem)
  · rw [if_neg hown] at hx
    simp [PollAction.exchanges] at hx

/-- A poll begins with its first GET. -/
theorem get_prefix_poll (c : PollCall) (cancelReply : Script) (round : Round) (rounds : List Round) :
    (c.get .sync round.reply).1 <+: (poll c cancelReply (round :: rounds)).exchanges := by
  rw [poll]
  cases (c.get .sync round.reply).2 with
  | error e => exact List.prefix_append _ _
  | ok response =>
    dsimp only
    by_cases hrunning : (!response.isRunning) = true
    · rw [if_pos hrunning]
      exact List.prefix_append _ _
    · rw [if_neg hrunning]
      by_cases hclock : c.deadline ≤ round.clock
      · rw [if_pos hclock]
        by_cases hown : c.cancelOnTimeout = true
        · rw [if_pos hown]
          exact List.prefix_append _ _
        · rw [if_neg hown]
          exact List.prefix_append _ _
      · rw [if_neg hclock]
        cases sleep .sync c.pollInterval with
        | error e => exact List.prefix_append _ _
        | ok _ =>
          dsimp only
          rw [PollRun.exchanges_after]
          exact (List.prefix_append _ _).trans (List.prefix_append _ _)

/-- No task of the synchronous client is cancelled. -/
theorem poll_ne_cancelled (c : PollCall) (cancelReply : Script) (rounds : List Round) :
    (poll c cancelReply rounds).outcome ≠ .cancelled := by
  induction rounds with
  | nil => exact fun h => PollEnd.noConfusion h
  | cons round rounds ih =>
    rw [poll]
    split
    · exact fun h => PollEnd.noConfusion h
    · split
      · exact fun h => PollEnd.noConfusion h
      · split
        · split
          · exact fun h => PollEnd.noConfusion h
          · exact fun h => PollEnd.noConfusion h
        · split
          · exact fun h => PollEnd.noConfusion h
          · exact ih

namespace PollRun.CutShort

variable {handle : Json} {full run : PollRun}

theorem after (h : CutShort handle full run) (actions : List PollAction) :
    CutShort handle (full.after actions) (run.after actions) := by
  cases h with
  | whole => exact .whole
  | cut issued later hmem houtcome hexchanges hissued hlater =>
    refine .cut (actions.flatMap PollAction.exchanges ++ issued) later
      (List.mem_append_right _ hmem) houtcome ?_ ?_ hlater
    · rw [exchanges_after, hexchanges, ← List.append_assoc]
    · rw [exchanges_after]
      exact (List.prefix_append_right_inj _).mpr hissued

/-- A task cancellation after some actions of the poll. -/
theorem of_taskCancel (cleanup : Cleanup) {actions : List PollAction}
    (h : actions.flatMap PollAction.exchanges <+: full.exchanges) :
    CutShort c.handle full ((onTaskCancel c cleanup).after actions) :=
  .cut _ _ (taskCancelled_mem_after actions) (onTaskCancel_outcome c cleanup) (exchanges_after _ _) h
    (onTaskCancel_exchanges c cleanup)

end PollRun.CutShort

/-- **A task cancellation only cuts a poll short.** The induction is on the rounds; the first that is
not waited out by both clients decides. -/
theorem asyncPoll_cutShort (h : c.policy.WaitsAs policy) (hsleep : sleep .sync interval = .ok ())
    (cancelCall : AsyncCall) (cleanup : Cleanup) (rounds : List AsyncRound) :
    PollRun.CutShort c.handle
      (poll (c.withWaits policy interval) cancelCall.reply (rounds.map AsyncRound.toRound))
      (asyncPoll c cancelCall cleanup rounds) := by
  induction rounds with
  | nil => exact .whole
  | cons round rounds ih =>
    have hget := PollCall.get_async h interval round.reply
    have hcancelled := PollCall.cancel_async h interval cancelCall.reply
    have hprefix := get_prefix_poll (c.withWaits policy interval) cancelCall.reply round.toRound
      (rounds.map AsyncRound.toRound)
    rw [List.map_cons]
    by_cases hwaited : round.Waited c .async
    · obtain ⟨⟨⟨_, response, hreply, hrunning⟩, hclock⟩, _, _⟩ := id hwaited
      rw [(asyncPoll_polls c cancelCall cleanup).waited round rounds hwaited]
      have hsync : (round.toRound.uncut).Waited (c.withWaits policy interval) .sync :=
        ⟨⟨⟨rfl, response, hget ▸ hreply, hrunning⟩, hclock⟩, rfl, hsleep⟩
      rw [(poll_polls (c.withWaits policy interval) cancelCall.reply cleanup).waited round.toRound _
        hsync]
      show PollRun.CutShort _ _ (PollRun.after _ [.get (c.get .async round.reply).1, .sleep])
      rw [hget]
      exact ih.after _
    · rw [(asyncPoll_polls c cancelCall cleanup).stops round rounds hwaited]
      have hstops := @leave_stops c .async cancelCall cleanup round hwaited
      dsimp only [id]
      generalize leave c .async cancelCall cleanup round = run at hstops
      cases hstops with
      | returned hcut hreply hrunning =>
        rw [hget] at hreply ⊢
        rw [poll, hreply]
        dsimp only
        rw [hrunning]
        exact .whole
      | failed hcut hreply =>
        rw [hget] at hreply ⊢
        rw [poll, hreply]
        exact .whole
      | sleepFailed _ _ hsleep => cases hsleep
      | timedOut htimesOut hown =>
        obtain ⟨⟨_, response, hreply, hrunning⟩, hclock⟩ := htimesOut
        rw [hget] at hreply ⊢
        rw [poll, hreply]
        dsimp only
        rw [hrunning, if_neg (by simp), PollCall.withWaits_deadline, if_pos hclock,
          if_neg (by simp [hown])]
        exact .whole
      | timedOutOwned htimesOut hown hcancel =>
        obtain ⟨⟨_, response, hreply, hrunning⟩, hclock⟩ := htimesOut
        rw [hget] at hreply ⊢
        rw [poll, hreply]
        dsimp only
        rw [hrunning, if_neg (by simp), PollCall.withWaits_deadline, if_pos hclock,
          PollCall.withWaits_cancelOnTimeout, if_pos hown, hcancelled]
        exact .whole
      | cutAtGet hcut =>
        apply PollRun.CutShort.of_taskCancel
        rw [List.flatMap_singleton, hget]
        exact (List.take_prefix _ _).trans hprefix
      | cutAtSleep hin hsleepCut =>
        apply PollRun.CutShort.of_taskCancel
        rw [hget]
        simpa [PollAction.exchanges] using hprefix
      | cutAtCancel htimesOut hown hcancel =>
        obtain ⟨⟨_, response, hreply, hrunning⟩, hclock⟩ := htimesOut
        apply PollRun.CutShort.of_taskCancel
        rw [hget] at hreply ⊢
        rw [poll, hreply]
        dsimp only
        rw [hrunning, if_neg (by simp), PollCall.withWaits_deadline, if_pos hclock,
          PollCall.withWaits_cancelOnTimeout, if_pos hown, hcancelled]
        simpa [PollRun.exchanges, PollAction.exchanges] using List.take_prefix _ _

/-- The task is not cancelled in the round. -/
def AsyncRound.Undisturbed (round : AsyncRound) : Prop :=
  round.cutOff = none ∧ round.sleepCutOff = false

/-- A poll at whose `await`s the task is not cancelled. -/
theorem taskCancelled_notMem_asyncPoll (c : PollCall) {cancelCall : AsyncCall} (cleanup : Cleanup)
    {rounds : List AsyncRound} (hcancel : cancelCall.cutOff = none)
    (hrounds : ∀ round ∈ rounds, round.Undisturbed) :
    .taskCancelled ∉ (asyncPoll c cancelCall cleanup rounds).actions := by
  induction rounds with
  | nil => exact List.not_mem_nil
  | cons round rounds ih =>
    obtain ⟨hcut, hsleepCut⟩ := hrounds round List.mem_cons_self
    have hrest := ih fun r hr => hrounds r (List.mem_cons_of_mem _ hr)
    by_cases hwaited : round.Waited c .async
    · rw [(asyncPoll_polls c cancelCall cleanup).waited round rounds hwaited]
      simpa [PollRun.after] using hrest
    · rw [(asyncPoll_polls c cancelCall cleanup).stops round rounds hwaited]
      have hstops := @leave_stops c .async cancelCall cleanup round hwaited
      dsimp only [id]
      generalize leave c .async cancelCall cleanup round = run at hstops
      cases hstops with
      | returned _ _ _ | failed _ _ | sleepFailed _ _ _ | timedOut _ _ | timedOutOwned _ _ _ => simp
      | cutAtGet h =>
        rw [hcut] at h
        cases h
      | cutAtSleep _ h =>
        rw [hsleepCut] at h
        cases h
      | cutAtCancel _ _ h =>
        rw [hcancel] at h
        cases h

end Polls

end SnowflakeSqlApi
