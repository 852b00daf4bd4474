import SnowflakeSqlApi.Transport

/-!
# The retry loop and its specification

`SendSpec` says what a call of the transport is to do with a script: issue the requests
up to the first event that is not retried, or `max_attempts` of them, and expose the
number of these requests and the latest handle on what it returns or raises.

`send_spec_iff` says exactly when `_send` does that.  `RetryPolicy` does not check its
backoff, and `time.sleep` refuses a negative wait: then the loop ends early, and the
exception of the wait is what the call raises.  And an error keeps an empty handle of its
reply as it is, where a result would read it as none.
-/

namespace SnowflakeSqlApi

/-- The handle on a result or on an exception. -/
def exposedHandle : Except Exc StatementResponse → Json
  | .ok result => result.statementHandle
  | .error e => e.statementHandle

/-- `submission_attempts` of a result or an exception. -/
def exposedAttempts : Except Exc StatementResponse → Option Nat
  | .ok result => result.submissionAttempts
  | .error e => e.submissionAttempts

/-- `outcome` is `plain` but for the two attributes the transport writes. -/
def SameOutcome : Except Exc StatementResponse → Except Exc StatementResponse → Prop
  | .ok plain, .ok result => result.statusCode = plain.statusCode ∧ result.body = plain.body
  | .error plain, .error e => e = { plain with
      submissionAttempts := e.submissionAttempts
      statementHandle := e.statementHandle }
  | _, _ => False

/-- What a call exposes: the outcome `plain`, with the number of requests of a submit, and the handle
of the final reply, else of an earlier one, else none. -/
structure Exposes (isSubmit : Bool) (attempts : Nat) (final earlier : Json)
    (plain outcome : Except Exc StatementResponse) : Prop where
  same : SameOutcome plain outcome
  attempts : exposedAttempts outcome = if isSubmit then some attempts else none
  finalHandle : final.truthy = true → exposedHandle outcome = final
  earlierHandle : final.truthy = false → earlier.truthy = true → exposedHandle outcome = earlier
  noHandle : final.truthy = false → earlier.truthy = false →
    exposedHandle outcome = .null

/-- **The specification of a call.** -/
inductive SendSpec (policy : RetryPolicy) (request : Request) (script : Script) :
    List Exchange × Except Exc StatementResponse → Prop
  | answered {k : Nat} {r : Response} {outcome : Except Exc StatementResponse} :
      k < policy.maxAttempts → (∀ i < k, (script i).event.Retried policy) →
      (script k).event = .answered r → policy.shouldRetryStatus r.statusCode = false →
      Exposes request.isSubmit (k + 1) r.handle (script.carried request.isSubmit k) r.interpret
        outcome →
      SendSpec policy request script (script.exchanges request (k + 1), outcome)
  | tokenError {k : Nat} {name : PyStr} {outcome : Except Exc StatementResponse} :
      k < policy.maxAttempts → (∀ i < k, (script i).event.Retried policy) →
      (script k).event = .tokenError name →
      Exposes request.isSubmit k .null (script.carried request.isSubmit k)
        (.error (foreignError name)) outcome →
      SendSpec policy request script (script.exchanges request k, outcome)
  | failed {k : Nat} {name : PyStr} {outcome : Except Exc StatementResponse} :
      k < policy.maxAttempts → (∀ i < k, (script i).event.Retried policy) →
      (script k).event = .failed name →
      Exposes request.isSubmit (k + 1) .null (script.carried request.isSubmit k)
        (.error (foreignError name)) outcome →
      SendSpec policy request script (script.exchanges request (k + 1), outcome)
  | exhausted {last : Nat} {outcome : Except Exc StatementResponse} :
      (last : Int) + 1 = policy.maxAttempts → (∀ i < last + 1, (script i).event.Retried policy) →
      Exposes request.isSubmit (last + 1)
        (if request.isSubmit then (script last).event.handle else .null)
        (script.carried request.isSubmit last)
        (.error (retriesExhausted policy (script last).event.exception)) outcome →
      SendSpec policy request script (script.exchanges request (last + 1), outcome)

/-- Every wait that the script comes to is made: it is computed, and the sleep takes it. -/
def WaitsMade (policy : RetryPolicy) (mode : Mode) (script : Script) : Prop :=
  ∀ k : Nat, k < policy.maxAttempts → (∀ i < k, (script i).event.Retried policy) →
    policy.wait mode (script k).draw k (script.retryResponse k) = .ok ()

/-- A final reply that is an error names a handle or none at all, or a handle is carried to it. -/
def HandleNamed (policy : RetryPolicy) (request : Request) (script : Script) : Prop :=
  ∀ (k : Nat) (r : Response), k < policy.maxAttempts →
    (∀ i < k, (script i).event.Retried policy) → (script k).event = .answered r →
    policy.shouldRetryStatus r.statusCode = false → r.statusCode ≠ 200 → r.statusCode ≠ 202 →
    r.handle.truthy = true ∨ (script.carried request.isSubmit k).truthy = true ∨ r.handle = .null

/-! ### The loop meets it -/

/-- The handle an outcome has of itself. -/
def ownHandle : Except Exc StatementResponse → Json
  | .ok result => result.body.get (py "statementHandle")
  | .error e => e.statementHandle

section Annotate

variable {isSubmit : Bool} {attempts : Nat} {known : Json} {plain : Except Exc StatementResponse}

theorem sameOutcome_annotate : SameOutcome plain (annotate isSubmit attempts known plain) := by
  cases plain with
  | ok result => exact ⟨rfl, rfl⟩
  | error e => rfl

theorem exposedAttempts_annotate : exposedAttempts (annotate isSubmit attempts known plain) =
    if isSubmit then some attempts else none := by
  cases plain <;> rfl

theorem exposedHandle_of_own (h : (ownHandle plain).truthy = true) :
    exposedHandle (annotate isSubmit attempts known plain) = ownHandle plain := by
  cases plain with
  | ok result => exact Json.orElse_of_truthy h _
  | error e =>
    have hown : e.statementHandle.truthy = true := h
    simp [annotate, exposedHandle, ownHandle, hown]

theorem exposedHandle_of_known (h : (ownHandle plain).truthy = false) (hknown : known.truthy = true) :
    exposedHandle (annotate isSubmit attempts known plain) = known := by
  cases plain with
  | ok result => exact Json.orElse_of_not_truthy h _
  | error e =>
    have hown : e.statementHandle.truthy = false := h
    simp [annotate, exposedHandle, hown, hknown]

theorem exposedHandle_error_of_none {e : Exc} :
    exposedHandle (annotate isSubmit attempts .null (.error e)) = e.statementHandle := by
  simp [annotate, exposedHandle]

/-- The final reply gives the outcome and its own handle, which is not merely empty where it is
exposed for want of one carried. -/
theorem exposes_own {final : Json} (hown : ownHandle plain = final)
    (hknown : known.truthy = true ∨ known = .null)
    (hnone : final.truthy = false → known.truthy = false →
      exposedHandle (annotate isSubmit attempts .null plain) = .null) :
    Exposes isSubmit attempts final known plain (annotate isSubmit attempts known plain) where
  same := sameOutcome_annotate
  attempts := exposedAttempts_annotate
  finalHandle h := by
    rw [← hown] at h ⊢
    exact exposedHandle_of_own h
  earlierHandle h := exposedHandle_of_known (by rw [hown]; exact h)
  noHandle h he := by
    rcases hknown with hknown | hknown
    · rw [hknown] at he
      cases he
    · have hempty := hnone h he
      rw [hknown]
      exact hempty

/-- The outcome has no handle of its own, and the final reply has already been carried. -/
theorem exposes_carried {final earlier : Json} {e : Exc} (hown : e.statementHandle = .null)
    (hearlier : earlier.truthy = true ∨ earlier = .null) :
    Exposes isSubmit attempts final earlier (.error e)
      (annotate isSubmit attempts (final.orElse earlier) (.error e)) where
  same := sameOutcome_annotate
  attempts := exposedAttempts_annotate
  finalHandle h := by
    rw [Json.orElse_of_truthy h]
    exact exposedHandle_of_known (by rw [ownHandle, hown]; rfl) h
  earlierHandle h he := by
    rw [Json.orElse_of_not_truthy h]
    exact exposedHandle_of_known (by rw [ownHandle, hown]; rfl) he
  noHandle h he := by
    rcases hearlier with hearlier | hearlier
    · rw [hearlier] at he
      cases he
    · rw [Json.orElse_of_not_truthy h, hearlier]
      exact exposedHandle_error_of_none.trans hown

end Annotate

theorem ownHandle_interpret (r : Response) : ownHandle r.interpret = r.handle := by
  rw [Response.interpret]
  split
  · rfl
  · split
    · rfl
    · split
      · rfl
      · split <;> rfl

section Spec

variable {policy : RetryPolicy} {mode : Mode} {request : Request} {script : Script}

theorem carried_last (isSubmit : Bool) (last : Nat) : script.carried isSubmit (last + 1) =
    (if isSubmit then (script last).event.handle else .null).orElse
      (script.carried isSubmit last) := by
  cases isSubmit with
  | false => rfl
  | true => rfl

/-- A policy that can wait is not interrupted. -/
theorem wait_of_canWait (hwaits : policy.CanWait mode) {k : Nat}
    (hk : k < policy.maxAttempts.toNat) (draw : Draw) (retryResponse : Option Response) :
    policy.wait mode draw k retryResponse = .ok () := by
  cases k with
  | zero => rfl
  | succ k =>
    obtain ⟨delay, hdelay, hsleep⟩ := hwaits k (by omega) draw
      (retryResponse.map (·.statusCode)) (retryResponse.bind (·.retryAfter))
    rw [RetryPolicy.wait, hdelay]
    exact hsleep

theorem waitsMade_of_canWait (hwaits : policy.CanWait mode) : WaitsMade policy mode script :=
  fun _ hk _ => wait_of_canWait hwaits (by omega) _ _

/-- A call whose every attempt is retried. -/
theorem send_exhausted {request : Request} (hwaits : policy.CanWait mode)
    (hretried : ∀ i < policy.maxAttempts.toNat, (script i).event.Retried policy) :
    send policy mode request script = (script.exchanges request policy.maxAttempts.toNat,
      annotate request.isSubmit policy.maxAttempts.toNat
        (script.carried request.isSubmit policy.maxAttempts.toNat)
        (.error (retriesExhausted policy (script.lastExc policy.maxAttempts.toNat)))) := by
  have hresult := send_result policy mode request script
  generalize send policy mode request script = out at hresult ⊢
  cases hresult with
  | answered hk _ hevent hdone =>
    have hagain := hretried _ hk
    rw [hevent, Event.Retried, hdone] at hagain
    cases hagain
  | tokenError hk _ hevent | failed hk _ hevent =>
    have hagain := hretried _ hk
    rw [hevent] at hagain
    exact hagain.elim
  | interrupted hk _ hwait =>
    rw [wait_of_canWait hwaits hk] at hwait
    cases hwait
  | exhausted _ => rfl

/-- The first attempt that is not retried is one. -/
theorem last_unique {j k : Nat} (hj : ∀ i < j, (script i).event.Retried policy)
    (hjlast : ¬ (script j).event.Retried policy) (hk : ∀ i < k, (script i).event.Retried policy)
    (hklast : ¬ (script k).event.Retried policy) : j = k := by
  rcases lt_trichotomy j k with hlt | heq | hlt
  · exact absurd (hk j hlt) hjlast
  · exact heq
  · exact absurd (hj k hlt) hklast

theorem answered_not_retried {k : Nat} {r : Response} (hevent : (script k).event = .answered r)
    (hdone : policy.shouldRetryStatus r.statusCode = false) :
    ¬ (script k).event.Retried policy := by
  rw [hevent, Event.Retried, hdone]
  exact Bool.false_ne_true

/-- What leaves a call counts the requests that were issued, of a submit. -/
theorem send_attempts (policy : RetryPolicy) (mode : Mode) (request : Request) (script : Script) :
    exposedAttempts (send policy mode request script).2 =
      if request.isSubmit then some (send policy mode request script).1.length else none := by
  have hresult := send_result policy mode request script
  generalize send policy mode request script = out at hresult
  cases hresult <;> rw [exposedAttempts_annotate, Script.exchanges_length]

/-- Where every wait is made and an error names its handle, the call meets the specification. -/
theorem send_spec (hattempts : 1 ≤ policy.maxAttempts) (hwaits : WaitsMade policy mode script)
    (hnamed : HandleNamed policy request script) :
    SendSpec policy request script (send policy mode request script) := by
  have hresult := send_result policy mode request script
  generalize send policy mode request script = out at hresult ⊢
  cases hresult with
  | @answered k r hk hretried hevent hstatus =>
    refine .answered (by omega) hretried hevent hstatus
      (exposes_own (ownHandle_interpret r) (script.carried_truthy_or _ k) fun hempty hknown => ?_)
    cases hinterpret : r.interpret with
    | ok response =>
      have hown : ownHandle (.ok response) = r.handle := by rw [← hinterpret, ownHandle_interpret]
      exact Json.orElse_of_not_truthy (by rw [← hown] at hempty; exact hempty) _
    | error e =>
      have hown : e.statementHandle = r.handle := by
        rw [← ownHandle_interpret r, hinterpret, ownHandle]
      obtain ⟨_, hok, hrunning, _⟩ := Response.interpret_error hinterpret
      rw [exposedHandle_error_of_none, hown]
      rcases hnamed k r (by omega) hretried hevent hstatus hok hrunning with h | h | h
      · rw [h] at hempty
        cases hempty
      · rw [h] at hknown
        cases hknown
      · exact h
  | @tokenError k name hk hretried hevent =>
    exact .tokenError (by omega) hretried hevent
      (exposes_own rfl (script.carried_truthy_or _ k) fun _ _ => exposedHandle_error_of_none)
  | @failed k name hk hretried hevent =>
    exact .failed (by omega) hretried hevent
      (exposes_own rfl (script.carried_truthy_or _ k) fun _ _ => exposedHandle_error_of_none)
  | exhausted hretried =>
    obtain ⟨last, hlast⟩ : ∃ last, policy.maxAttempts.toNat = last + 1 :=
      ⟨policy.maxAttempts.toNat - 1, by omega⟩
    rw [hlast] at hretried ⊢
    rw [carried_last, Script.lastExc]
    exact .exhausted (by omega) hretried (exposes_carried rfl (script.carried_truthy_or _ last))
  | @interrupted k e hk hretried hwait =>
    rw [hwaits k (by omega) hretried] at hwait
    cases hwait

/-- A call that a wait ends does not meet the specification: the token error that a call may end
with as early has no text. -/
theorem not_sendSpec_interrupted {k : Nat} {known : Json} {e : Exc} (hk : k < policy.maxAttempts)
    (hretried : ∀ i < k, (script i).event.Retried policy) (he : e.IsBuiltin) :
    ¬ SendSpec policy request script (script.exchanges request k,
      annotate request.isSubmit k known (.error e)) := by
  intro hspec
  generalize hrequests : script.exchanges request k = requests at hspec
  generalize houtcome : annotate request.isSubmit k known (.error e) = outcome at hspec
  have hlength : requests.length = k := by rw [← hrequests, Script.exchanges_length]
  cases hspec with
  | @answered j r _ _ _ hevent hdone _ =>
    rw [Script.exchanges_length] at hlength
    exact answered_not_retried hevent hdone (hretried j (by omega))
  | @tokenError j name _ _ _ hevent hexposes =>
    obtain ⟨_, message, hmessage, rfl⟩ := he
    have hsame := hexposes.same
    rw [← houtcome] at hsame
    have htext : message = [] := congrArg Exc.message hsame
    exact hmessage htext
  | @failed j name _ _ _ hevent _ =>
    rw [Script.exchanges_length] at hlength
    have hagain := hretried j (by omega)
    rw [hevent] at hagain
    exact hagain
  | @exhausted last _ hlast _ _ =>
    rw [Script.exchanges_length] at hlength
    omega

theorem waitsMade_of_sendSpec
    (hspec : SendSpec policy request script (send policy mode request script)) :
    WaitsMade policy mode script := by
  intro k
  -- A wait that raises ends the call, since those before it are made.
  induction k using Nat.strongRecOn with
  | ind k ih =>
    intro hk hretried
    have hwaited : ∀ i < k,
        policy.wait mode (script i).draw i (script.retryResponse i) = .ok () := fun i hi =>
      ih i hi (by omega) fun j hj => hretried j (hj.trans hi)
    cases hwait : policy.wait mode (script k).draw k (script.retryResponse k) with
    | ok _ => rfl
    | error e =>
      have hleft : policy.maxAttempts.toNat - k = policy.maxAttempts.toNat - (k + 1) + 1 := by omega
      rw [send_eq_callFrom (by omega) hretried hwaited, hleft, callFrom_interrupted hwait] at hspec
      exact absurd hspec (not_sendSpec_interrupted hk hretried (wait_error_builtin hwait))

theorem handleNamed_of_sendSpec
    (hspec : SendSpec policy request script (send policy mode request script)) :
    HandleNamed policy request script := by
  intro k r hk hretried hevent hdone hok hrunning
  by_cases hfinal : r.handle.truthy = true
  · exact .inl hfinal
  by_cases hcarried : (script.carried request.isSubmit k).truthy = true
  · exact .inr (.inl hcarried)
  rw [Bool.not_eq_true] at hfinal hcarried
  have hlast := answered_not_retried hevent hdone
  have hwaits := waitsMade_of_sendSpec hspec
  have hleft : policy.maxAttempts.toNat - k = policy.maxAttempts.toNat - (k + 1) + 1 := by omega
  rw [send_eq_callFrom (by omega) hretried fun i hi => hwaits i (by omega) fun j hj =>
    hretried j (hj.trans hi), hleft, callFrom_answered (hwaits k hk hretried) hevent hdone] at hspec
  obtain ⟨e, hinterpret⟩ : ∃ e, r.interpret = .error e := by
    cases hinterpret : r.interpret with
    | ok response => exact absurd (Response.interpret_ok hinterpret) (by simp [hok, hrunning])
    | error e => exact ⟨e, rfl⟩
  have hown : e.statementHandle = r.handle := by
    rw [← ownHandle_interpret r, hinterpret, ownHandle]
  have hnull : script.carried request.isSubmit k = .null := by
    rcases script.carried_truthy_or request.isSubmit k with h | h
    · rw [h] at hcarried
      cases hcarried
    · exact h
  rw [hinterpret, hnull] at hspec
  generalize hrequests : script.exchanges request (k + 1) = requests at hspec
  generalize houtcome : annotate request.isSubmit (k + 1) .null (.error e) = outcome at hspec
  refine .inr (.inr ?_)
  have hexposed : exposedHandle outcome = r.handle := by
    rw [← houtcome, exposedHandle_error_of_none, hown]
  rw [← hexposed]
  cases hspec with
  | @answered j s _ _ hretried' hevent' hdone' hexposes =>
    obtain rfl := last_unique hretried' (answered_not_retried hevent' hdone') hretried hlast
    rw [hevent] at hevent'
    cases hevent'
    exact hexposes.noHandle hfinal hcarried
  | @tokenError j _ _ _ hretried' hevent' _ =>
    have hstop : ¬ (script j).event.Retried policy := by rw [hevent']; exact id
    obtain rfl := last_unique hretried' hstop hretried hlast
    rw [hevent] at hevent'
    cases hevent'
  | @failed j _ _ _ hretried' hevent' _ =>
    have hstop : ¬ (script j).event.Retried policy := by rw [hevent']; exact id
    obtain rfl := last_unique hretried' hstop hretried hlast
    rw [hevent] at hevent'
    cases hevent'
  | @exhausted last _ hmax hretried' _ => exact absurd (hretried' k (by omega)) hlast

/-- **The retry loop is exactly its specification where** no wait raises and no error comes with a
handle that is empty but there. -/
theorem send_spec_iff (policy : RetryPolicy) (mode : Mode) (request : Request) (script : Script)
    (hattempts : 1 ≤ policy.maxAttempts) :
    SendSpec policy request script (send policy mode request script) ↔
      WaitsMade policy mode script ∧ HandleNamed policy request script :=
  ⟨fun hspec => ⟨waitsMade_of_sendSpec hspec, handleNamed_of_sendSpec hspec⟩,
    fun h => send_spec hattempts h.1 h.2⟩

end Spec

/-! ### Where the specification fails -/

/-- A backoff below zero, which the policy does not check. -/
def negativePolicy : RetryPolicy :=
  { defaultRetryPolicy with
    baseBackoff := -1
    jitter := false }

/-- The first attempt is lost, every further one answered with status 200. -/
def recoveringScript : Script
  | 0 => ⟨idleDraw, .lost (py "ConnectError")⟩
  | _ => ⟨idleDraw, .answered { statusCode := 200, json := some (.obj []) }⟩

/-- A 422 reply with an empty handle. -/
def emptyHandleScript : Script := fun _ =>
  ⟨idleDraw, .answered { statusCode := 422
                         json := some (.obj [(py "statementHandle", .str [])]) }⟩

def submitRequest : Request := .submit (py "id") false false .none

/-- **A negative wait ends the loop early**: one request is issued where the reply to the second
would have been the result. And **an empty handle of an error reply is exposed as it is**, not as
none. -/
theorem send_not_spec :
    (1 ≤ negativePolicy.maxAttempts ∧ ¬ SendSpec negativePolicy submitRequest recoveringScript
        (send negativePolicy .sync submitRequest recoveringScript)) ∧
      ¬ SendSpec {} submitRequest emptyHandleScript
        (send {} .sync submitRequest emptyHandleScript) := by
  refine ⟨⟨by decide, fun hspec => ?_⟩, fun hspec => ?_⟩
  · have hfirst : ∀ i < 1, (recoveringScript i).event.Retried negativePolicy := by
      intro i hi
      obtain rfl : i = 0 := by omega
      trivial
    have hwait := waitsMade_of_sendSpec hspec 1 (by decide) hfirst
    have hraised : (match negativePolicy.wait .sync (recoveringScript 1).draw 1
        (recoveringScript.retryResponse 1) with | .ok _ => false | .error _ => true) = true := by
      decide +kernel
    rw [hwait] at hraised
    cases hraised
  · rcases handleNamed_of_sendSpec hspec 0 _ (by decide) (fun i hi => absurd hi (Nat.not_lt_zero i))
      rfl (by decide) (by decide) (by decide) with h | h | h <;> cases h

theorem send_spec_iff_recovering :
    SendSpec {} submitRequest recoveringScript (send {} .sync submitRequest recoveringScript) := by
  have hgrowth : ∀ attempt : Nat, (attempt : Int) + 1 < 3 → (2 : ℚ) ^ attempt < floatBound := by
    intro attempt hattempt
    have hle : attempt ≤ 1 := by omega
    have hpow : (2 : ℚ) ^ attempt ≤ 2 ^ 1 := pow_le_pow_right₀ one_le_two hle
    exact hpow.trans_lt (by decide +kernel)
  have hwaits : ({} : RetryPolicy).CanWait .sync := RetryPolicy.canWait_of_bounds
    (by norm_num) (by norm_num) (by norm_num) (by norm_num [longestSleep])
    (by norm_num [longestSleep]) hgrowth .sync
  refine (send_spec_iff {} .sync submitRequest recoveringScript (by decide)).mpr
    ⟨waitsMade_of_canWait hwaits, ?_⟩
  rintro (_ | k) r _ _ hevent _ hok _
  · cases hevent
  · cases hevent
    exact absurd rfl hok

end SnowflakeSqlApi
