import SnowflakeSqlApi.Auth
import SnowflakeSqlApi.Transport

/-!
# Authorised requests

`_headers` asks the authenticator for a token in every attempt of `_send`, so that the attempts of
all calls of a client go through one cache.  A `Call` says when its attempts ask and what becomes
of their requests; `history` is what a client sends in a sequence of calls, each with the
authenticator that it asked.

`history_calls` reads such a history as a single sequence of calls of `token`, and
`requests_authorized` is what holds of it: every request carries a token for the account and the
user of the client that is good for its margin but for one second, however the attempts of the
calls went, and a new one is signed only when the last has run down to the margin.
-/

namespace SnowflakeSqlApi

/-- `_headers`, with a token. -/
def headers (userAgent token : PyStr) : List (PyStr × PyStr) :=
  [(py "Authorization", py "Bearer " ++ token),
    (py "X-Snowflake-Authorization-Token-Type", py "KEYPAIR_JWT"),
    (py "Content-Type", py "application/json"), (py "Accept", py "application/json"),
    (py "User-Agent", userAgent)]

/-- What becomes of a request. -/
inductive Reply
  | lost (name : PyStr)
  | failed (name : PyStr)
  | answered (r : Response)

def Reply.event : Reply → Event
  | .lost name => .lost name
  | .failed name => .failed name
  | .answered r => .answered r

/-- What an attempt meets: `now` is when it asks for a token. -/
structure TimedAttempt where
  draw : Draw
  now : ℚ
  reply : Reply

/-- A call of `_send`, and what its attempts would meet. -/
structure Call where
  policy : RetryPolicy
  mode : Mode
  request : Request
  attempts : Nat → TimedAttempt

/-- A request, with the authenticator as it was when it asked for its token, and the time. -/
structure Sent (Key : Type) where
  request : Request
  auth : KeypairAuthenticator Key
  now : ℚ

section

variable {Key : Type} (jwt : Jwt Key)

namespace Call

variable (call : Call) (auth : KeypairAuthenticator Key)

/-- The authenticator before an attempt, when all attempts before it have asked. -/
def authAt : Nat → KeypairAuthenticator Key
  | 0 => auth
  | k + 1 => ((authAt k).token jwt (call.attempts k).now).2

/-- The attempts, with the tokens they get. -/
def script : Script := fun k =>
  { draw := (call.attempts k).draw
    event :=
      match ((call.authAt jwt auth k).token jwt (call.attempts k).now).1 with
      | .ok _ => (call.attempts k).reply.event
      | .error e => .tokenError e.cls.name }

/-- What the call sends. -/
def sent : List (Sent Key) :=
  (send call.policy call.mode call.request (call.script jwt auth)).1.mapIdx fun i exchange =>
    ⟨exchange.request, call.authAt jwt auth i, (call.attempts i).now⟩

end Call

/-- What a client sends in a sequence of calls. -/
def history : KeypairAuthenticator Key → List Call → List (Sent Key)
  | _, [] => []
  | auth, call :: calls =>
    call.sent jwt auth ++ history (call.authAt jwt auth (call.sent jwt auth).length) calls

namespace Sent

variable (s : Sent Key)

/-- The headers of the request. -/
def headers (userAgent : PyStr) : Except Exc (List (PyStr × PyStr)) :=
  (s.auth.token jwt s.now).1.map (SnowflakeSqlApi.headers userAgent)

/-- The call of `token` that the request made. -/
def consult : KeypairAuthenticator Key × ℚ := (s.auth, s.now)

end Sent

/-! ### One cache for all calls -/

namespace KeypairAuthenticator

/-- The authenticator after calls of `token`. -/
def after (auth : KeypairAuthenticator Key) (times : List ℚ) : KeypairAuthenticator Key :=
  times.foldl (fun auth now => (auth.token jwt now).2) auth

/-- The authenticator without what it has cached. -/
def bare (auth : KeypairAuthenticator Key) : KeypairAuthenticator Key :=
  { auth with cachedToken := none, cachedExp := 0 }

/-- The cached token holds what was signed at some time up to `now`. -/
def Issued (auth : KeypairAuthenticator Key) (now : ℚ) : Prop :=
  ∀ token, auth.cachedToken = some token → ∃ signed, 0 ≤ signed ∧ signed ≤ now ∧
    auth.cachedExp = signed + auth.lifetime ∧ jwt.decode token = some (auth.payload signed)

variable {jwt} {auth : KeypairAuthenticator Key}

theorem calls_append (times later : List ℚ) :
    auth.calls jwt (times ++ later) = auth.calls jwt times ++ (auth.after jwt times).calls jwt later := by
  induction times generalizing auth with
  | nil => rfl
  | cons now times ih =>
    show (auth, now) :: calls jwt _ (times ++ later) = (auth, now) :: (calls jwt _ times ++ _)
    rw [ih]
    rfl

theorem after_append (times later : List ℚ) :
    auth.after jwt (times ++ later) = (auth.after jwt times).after jwt later := List.foldl_append

theorem mem_times_of_mem_calls {times : List ℚ} {call : KeypairAuthenticator Key × ℚ}
    (h : call ∈ auth.calls jwt times) : call.2 ∈ times := by
  induction times generalizing auth with
  | nil => cases h
  | cons now times ih =>
    rcases List.mem_cons.mp h with rfl | h
    · exact List.mem_cons_self
    · exact List.mem_cons_of_mem _ (ih h)

/-- A call leaves everything but the cache. -/
theorem bare_token (now : ℚ) : (auth.token jwt now).2.bare = auth.bare := by
  obtain ⟨token, -, -, hresult⟩ | ⟨-, ⟨token, -, hresult⟩ | ⟨e, -, hresult⟩⟩ :=
    auth.token_cases jwt now
  · rw [hresult]
  · rw [hresult]
    rfl
  · rw [hresult]

theorem fields_of_bare {other : KeypairAuthenticator Key} (h : auth.bare = other.bare) :
    auth.issuer = other.issuer ∧ auth.qualifiedUsername = other.qualifiedUsername ∧
      auth.lifetime = other.lifetime ∧ auth.margin = other.margin := by
  refine ⟨?_, ?_, ?_, ?_⟩
  · show auth.bare.issuer = other.bare.issuer
    rw [h]
  · show auth.bare.qualifiedUsername = other.bare.qualifiedUsername
    rw [h]
  · show auth.bare.lifetime = other.bare.lifetime
    rw [h]
  · show auth.bare.margin = other.bare.margin
    rw [h]

theorem Issued.token {now : ℚ} (h : auth.Issued jwt now) (hnow : 0 ≤ now) :
    (auth.token jwt now).2.Issued jwt now := by
  obtain ⟨token, -, -, hresult⟩ | ⟨-, ⟨token, hgenerate, hresult⟩ | ⟨e, -, hresult⟩⟩ :=
    auth.token_cases jwt now
  · rw [hresult]
    exact h
  · rw [hresult]
    intro t ht
    cases ht
    exact ⟨now, hnow, le_rfl, rfl, jwt.decode_encode hgenerate⟩
  · rw [hresult]
    exact h

theorem Issued.later {now t : ℚ} (h : auth.Issued jwt now) (hle : now ≤ t) : auth.Issued jwt t := by
  intro token htoken
  obtain ⟨signed, hnonneg, hsigned, hexp, hdecode⟩ := h token htoken
  exact ⟨signed, hnonneg, hsigned.trans hle, hexp, hdecode⟩

/-- **A token is good for its margin**, but for one second. -/
theorem Issued.claims {now : ℚ} {token : PyStr} (h : auth.Issued jwt now) (hnow : 0 ≤ now)
    (hmargin : auth.margin ≤ auth.lifetime) (htoken : (auth.token jwt now).1 = .ok token) :
    ∃ claims, jwt.decode token = some claims ∧ claims.iss = auth.issuer ∧
      claims.sub = auth.qualifiedUsername ∧ (claims.iat : ℚ) ≤ now ∧
        now + auth.margin - 1 < claims.exp := by
  obtain ⟨cached, hcached, hhit, hresult⟩ | ⟨-, ⟨signed, hgenerate, hresult⟩ | ⟨e, -, hresult⟩⟩ :=
    auth.token_cases jwt now
  · rw [hresult] at htoken
    cases htoken
    obtain ⟨signed, hnonneg, hle, hexp, hdecode⟩ := h _ hcached
    refine ⟨_, hdecode, rfl, rfl, ?_, ?_⟩
    · rw [payload, truncate_of_nonneg hnonneg]
      exact (Int.floor_le signed).trans hle
    · have hfloor := Int.sub_one_lt_floor signed
      rw [payload_exp hnonneg]
      push_cast
      linarith
  · rw [hresult] at htoken
    cases htoken
    refine ⟨_, jwt.decode_encode hgenerate, rfl, rfl, ?_, ?_⟩
    · rw [payload, truncate_of_nonneg hnow]
      exact Int.floor_le now
    · have hfloor := Int.sub_one_lt_floor now
      have hmargin' : (auth.margin : ℚ) ≤ auth.lifetime := by exact_mod_cast hmargin
      rw [payload_exp hnow]
      push_cast
      linarith
  · rw [hresult] at htoken
    cases htoken

/-- What every call of a run starts from. -/
theorem Issued.calls {now : ℚ} {times : List ℚ} (h : auth.Issued jwt now) (hnow : 0 ≤ now)
    (hle : ∀ t ∈ times, now ≤ t) (hmono : times.Pairwise (· ≤ ·)) :
    ∀ call ∈ auth.calls jwt times, call.1.bare = auth.bare ∧ call.1.Issued jwt call.2 := by
  induction times generalizing auth now with
  | nil => exact fun _ hcall => nomatch hcall
  | cons time times ih =>
    obtain ⟨hfirst, hrest⟩ := List.pairwise_cons.mp hmono
    have htime : now ≤ time := hle time List.mem_cons_self
    have hstart := h.later htime
    intro call hcall
    rcases List.mem_cons.mp hcall with rfl | hcall
    · exact ⟨rfl, hstart⟩
    · obtain ⟨hbare, hissued⟩ :=
        ih (hstart.token (hnow.trans htime)) (hnow.trans htime) hfirst hrest call hcall
      exact ⟨hbare.trans (bare_token time), hissued⟩

/-- The call signs a token. -/
def renews (call : KeypairAuthenticator Key × ℚ) : Bool := call.1.cached call.2 = none

/-- **Tokens are signed a lifetime less the margin apart**, where signing does not fail. -/
theorem renewals_spaced {times : List ℚ} (hmono : times.Pairwise (· ≤ ·))
    (hsigned : ∀ call ∈ auth.calls jwt times, ∃ token, (call.1.token jwt call.2).1 = .ok token) :
    (∀ call ∈ (auth.calls jwt times).filter renews,
        auth.cachedToken ≠ none → auth.cachedExp - auth.margin ≤ call.2) ∧
      ((auth.calls jwt times).filter renews).Pairwise fun first second =>
        first.2 + ((auth.lifetime : ℚ) - auth.margin) ≤ second.2 := by
  induction times generalizing auth with
  | nil => exact ⟨List.forall_mem_nil _, .nil⟩
  | cons time times ih =>
    obtain ⟨hfirst, hrest⟩ := List.pairwise_cons.mp hmono
    obtain ⟨hnow, hlater⟩ := List.forall_mem_cons.mp hsigned
    obtain ⟨hnext, hspaced⟩ := ih hrest hlater
    have hlifetime := @token_lifetime Key jwt auth time
    rw [hlifetime.1, hlifetime.2] at hspaced
    have hafter : ∀ call ∈ (auth.token jwt time).2.calls jwt times, time ≤ call.2 := by
      intro call hcall
      exact hfirst call.2 (mem_times_of_mem_calls hcall)
    show (∀ call ∈ ((auth, time) :: _).filter renews, _) ∧ (((auth, time) :: _).filter renews).Pairwise _
    obtain ⟨token, hcached, hhit, hresult⟩ | ⟨hmiss, ⟨token, -, hresult⟩ | ⟨e, -, hresult⟩⟩ :=
      auth.token_cases jwt time
    · have hkeeps : renews (auth, time) = false := by
        rw [renews, cached, if_pos hhit, hcached]
        rfl
      rw [List.filter_cons_of_neg (by rw [hkeeps]; exact Bool.false_ne_true)]
      rw [hresult] at hnext hspaced ⊢
      exact ⟨hnext, hspaced⟩
    · have hrenews : renews (auth, time) = true := by
        rw [renews, cached, decide_eq_true_eq]
        rcases hmiss with hnone | hlate
        · rw [hnone, ite_self]
        · exact if_neg (not_lt.mpr hlate)
      have hgap : ∀ call ∈ ((auth.token jwt time).2.calls jwt times).filter renews,
          time + ((auth.lifetime : ℚ) - auth.margin) ≤ call.2 := by
        intro call hcall
        have hle := hnext call hcall (by rw [hresult]; exact Option.some_ne_none token)
        rw [hresult] at hle
        dsimp only at hle
        linarith
      rw [List.filter_cons_of_pos hrenews]
      refine ⟨List.forall_mem_cons.mpr ⟨fun hne => ?_, fun call hcall hne => ?_⟩,
        List.pairwise_cons.mpr ⟨hgap, hspaced⟩⟩
      · exact hmiss.resolve_left hne
      · exact (hmiss.resolve_left hne).trans (hafter call (List.mem_of_mem_filter hcall))
    · obtain ⟨token, htoken⟩ := hnow
      rw [hresult] at htoken
      cases htoken

end KeypairAuthenticator

/-! ### A history is one sequence of calls of `token` -/

/-- A request is sent only with a token. -/
theorem send_issued (policy : RetryPolicy) (mode : Mode) (request : Request) (script : Script) :
    ∃ k, (send policy mode request script).1 = script.exchanges request k ∧
      ∀ i < k, ∀ name, (script i).event ≠ .tokenError name := by
  have hretried : ∀ {k : Nat}, (∀ i < k, (script i).event.Retried policy) →
      ∀ i < k, ∀ name, (script i).event ≠ .tokenError name := by
    intro k h i hi name hevent
    have := h i hi
    rw [hevent] at this
    exact this
  have hlast : ∀ {k : Nat}, (∀ i < k, (script i).event.Retried policy) →
      (∀ name, (script k).event ≠ .tokenError name) →
      ∀ i < k + 1, ∀ name, (script i).event ≠ .tokenError name := by
    intro k h hk i hi
    rcases Nat.lt_succ_iff_lt_or_eq.mp hi with hlt | rfl
    · exact hretried h i hlt
    · exact hk
  have hresult := send_result policy mode request script
  generalize send policy mode request script = out at hresult
  cases hresult with
  | answered _ h hevent _ => exact ⟨_, rfl, hlast h fun name => by rw [hevent]; nofun⟩
  | tokenError _ h _ => exact ⟨_, rfl, hretried h⟩
  | failed _ h hevent => exact ⟨_, rfl, hlast h fun name => by rw [hevent]; nofun⟩
  | exhausted h => exact ⟨_, rfl, hretried h⟩
  | interrupted _ h _ => exact ⟨_, rfl, hretried h⟩

section History

variable {jwt} {auth : KeypairAuthenticator Key}

theorem Call.authAt_eq (call : Call) (k : Nat) :
    call.authAt jwt auth k = auth.after jwt ((List.range k).map fun i => (call.attempts i).now) := by
  induction k with
  | zero => rfl
  | succ k ih =>
    rw [List.range_succ, List.map_append, KeypairAuthenticator.after_append, ← ih]
    rfl

/-- The attempts of a call ask one after the other. -/
theorem Call.consults (call : Call) (k : Nat) :
    ((List.range k).map fun i => (call.authAt jwt auth i, (call.attempts i).now)) =
      auth.calls jwt ((List.range k).map fun i => (call.attempts i).now) := by
  induction k with
  | zero => rfl
  | succ k ih =>
    rw [List.range_succ, List.map_append, List.map_append, KeypairAuthenticator.calls_append, ih,
      ← Call.authAt_eq]
    rfl

variable (jwt) in
theorem Call.sent_eq (call : Call) (auth : KeypairAuthenticator Key) :
    ∃ k, (call.sent jwt auth = (List.range k).map fun i =>
        ⟨call.request.attempt i, call.authAt jwt auth i, (call.attempts i).now⟩) ∧
      ∀ i < k, ∃ token,
        ((call.authAt jwt auth i).token jwt (call.attempts i).now).1 = .ok token := by
  obtain ⟨k, hk, hissued⟩ :=
    send_issued call.policy call.mode call.request (call.script jwt auth)
  refine ⟨k, ?_, fun i hi => ?_⟩
  · rw [Call.sent, hk]
    refine List.ext_getElem (by simp) fun i h h' => ?_
    simp [Script.exchanges]
  · cases htoken : ((call.authAt jwt auth i).token jwt (call.attempts i).now).1 with
    | ok token => exact ⟨token, rfl⟩
    | error e =>
      refine absurd ?_ (hissued i hi e.cls.name)
      rw [Call.script]
      dsimp only
      rw [htoken]

variable (jwt) in
/-- **The requests of a history ask one after the other**, and each has got its token. -/
theorem history_calls (auth : KeypairAuthenticator Key) (calls : List Call) :
    (history jwt auth calls).map Sent.consult =
        auth.calls jwt ((history jwt auth calls).map Sent.now) ∧
      ∀ s ∈ history jwt auth calls, ∃ token, (s.auth.token jwt s.now).1 = .ok token := by
  induction calls generalizing auth with
  | nil => exact ⟨rfl, List.forall_mem_nil _⟩
  | cons call calls ih =>
    obtain ⟨k, hsent, htokens⟩ := call.sent_eq jwt auth
    have hlength : (call.sent jwt auth).length = k := by
      rw [hsent, List.length_map, List.length_range]
    obtain ⟨hconsults, hissued⟩ := ih (call.authAt jwt auth k)
    rw [history, hlength, List.map_append, List.map_append, KeypairAuthenticator.calls_append,
      hconsults, hsent, List.map_map, List.map_map]
    refine ⟨?_, fun s hs => ?_⟩
    · refine congrArg₂ (· ++ ·) (call.consults k) ?_
      rw [Call.authAt_eq]
      rfl
    · rcases List.mem_append.mp hs with hs | hs
      · obtain ⟨i, hi, rfl⟩ := List.mem_map.mp hs
        exact htokens i (List.mem_range.mp hi)
      · exact hissued s hs

end History

/-! ### The claims of a request -/

theorem notMem_upper_partition (casing : Casing) (account : PyStr) :
    ch '.' ∉ casing.upper (partition (ch '.') account).1 := by
  refine casing.dot_notMem_upper ?_
  induction account with
  | nil => exact List.not_mem_nil
  | cons c cs ih =>
    rw [partition]
    by_cases hc : c = ch '.'
    · rw [if_pos hc]
      exact List.not_mem_nil
    · rw [if_neg hc, List.mem_cons, not_or]
      exact ⟨Ne.symm hc, ih⟩

/-- What `new` makes of its arguments. -/
theorem KeypairAuthenticator.new_identity {crypto : Cryptography Key} {casing : Casing}
    {account user : PyStr} {privateKey : KeyInput} {passphrase : Option KeyInput} {lifetime margin : Int}
    {auth : KeypairAuthenticator Key}
    (h : new crypto casing account user privateKey passphrase lifetime margin = .ok auth) :
    auth.accountClaim = casing.upper (partition (ch '.') account).1 ∧
      auth.user = casing.upper user ∧ auth.lifetime = lifetime ∧ auth.margin = margin ∧
      auth.cachedToken = none := by
  obtain ⟨hlifetime, hmargin, hempty⟩ := new_empty h
  rw [new] at h
  split at h
  · cases h
  split at h
  · cases h
  split at h
  · cases h
  obtain ⟨accountClaim, haccount, h⟩ := bind_eq_ok.mp h
  obtain ⟨key, -, h⟩ := bind_eq_ok.mp h
  cases h
  rw [normalizeAccountLocator] at haccount
  split at haccount
  · cases haccount
  · cases haccount
    exact ⟨rfl, rfl, hlifetime, hmargin, hempty⟩

/-- **Every request of a client is authorised**, in whatever calls and attempts it is sent: its token
names the account and the user, was valid when it was asked for and stays so for the margin but for
one second. Tokens are signed a lifetime less the margin apart. -/
theorem requests_authorized {crypto : Cryptography Key} {casing : Casing} {jwt : Jwt Key}
    {account user : PyStr} {privateKey : KeyInput} {passphrase : Option KeyInput} {lifetime margin : Int}
    {auth : KeypairAuthenticator Key} {calls : List Call} (userAgent : PyStr)
    (hnew : KeypairAuthenticator.new crypto casing account user privateKey passphrase lifetime margin =
      .ok auth)
    (hmargin : margin ≤ lifetime) (hnonneg : ∀ s ∈ history jwt auth calls, 0 ≤ s.now)
    (hmono : ((history jwt auth calls).map Sent.now).Pairwise (· ≤ ·)) :
    (∀ s ∈ history jwt auth calls, ∃ sent token claims, s.headers jwt userAgent = .ok sent ∧
      sent.lookup (py "Authorization") = some (py "Bearer " ++ token) ∧
      jwt.decode token = some claims ∧
      partition (ch '.') claims.sub =
        (casing.upper (partition (ch '.') account).1, casing.upper user) ∧
      claims.iss = claims.sub ++ [ch '.'] ++ auth.fingerprint ∧
      (claims.iat : ℚ) ≤ s.now ∧ s.now + margin - 1 < claims.exp) ∧
    ((history jwt auth calls).filter fun s => KeypairAuthenticator.renews s.consult).Pairwise
      fun first second => first.now + ((lifetime : ℚ) - margin) ≤ second.now := by
  obtain ⟨haccount, huser, hlifetime, hkept, hempty⟩ := KeypairAuthenticator.new_identity hnew
  obtain ⟨hconsults, htokens⟩ := history_calls jwt auth calls
  have hissued : auth.Issued jwt 0 := by
    intro token htoken
    rw [hempty] at htoken
    cases htoken
  have hcalls := hissued.calls le_rfl (List.forall_mem_map.mpr hnonneg) hmono
  rw [← hconsults] at hcalls
  refine ⟨fun s hs => ?_, ?_⟩
  · obtain ⟨token, htoken⟩ := htokens s hs
    obtain ⟨hbare, hholds⟩ := hcalls s.consult (List.mem_map_of_mem hs)
    obtain ⟨hissuer, hname, hlong, hwide⟩ := KeypairAuthenticator.fields_of_bare hbare
    have hfits : s.consult.1.margin ≤ s.consult.1.lifetime := by
      rw [hwide, hlong, hkept, hlifetime]
      exact hmargin
    obtain ⟨claims, hdecode, hiss, hsub, hiat, hexp⟩ :=
      KeypairAuthenticator.Issued.claims hholds (hnonneg s hs) hfits htoken
    have hsubject : claims.sub =
        casing.upper (partition (ch '.') account).1 ++ ch '.' :: casing.upper user := by
      rw [hsub, hname, KeypairAuthenticator.qualifiedUsername, haccount, huser, List.append_assoc]
      rfl
    refine ⟨_, token, claims, map_eq_ok.mpr ⟨token, htoken, rfl⟩, rfl, hdecode, ?_, ?_, hiat, ?_⟩
    · rw [hsubject]
      exact partition_append _ (notMem_upper_partition casing account)
    · rw [hiss, hissuer, hsub, hname]
      rfl
    · rwa [hwide, hkept] at hexp
  · have hsigned : ∀ call ∈ auth.calls jwt ((history jwt auth calls).map Sent.now),
        ∃ token, (call.1.token jwt call.2).1 = .ok token := by
      rw [← hconsults]
      exact List.forall_mem_map.mpr htokens
    have hspaced := (KeypairAuthenticator.renewals_spaced hmono hsigned).2
    rw [← hconsults, List.filter_map, List.pairwise_map, hlifetime, hkept] at hspaced
    exact hspaced

end

/-- A poll whose first request is lost, and one after the token has been renewed. -/
def polledTwice : List Call :=
  [{ policy := defaultRetryPolicy, mode := .async, request := .getStatement (.str (py "h"))
     attempts := fun k => ⟨idleDraw, if k = 0 then 1000 else 1001,
       if k = 0 then .lost (py "ReadTimeout") else .answered ⟨202, some (.obj []), [], none⟩⟩ },
   { policy := defaultRetryPolicy, mode := .async, request := .getStatement (.str (py "h"))
     attempts := fun _ => ⟨idleDraw, 4480, .answered ⟨200, some (.obj []), [], none⟩⟩ }]

theorem requests_authorized_polledTwice :
    (history oneKeyJwt KeypairAuthenticator.oneKeyAuth polledTwice).map Sent.now = [1000, 1001, 4480] ∧
    (∀ s ∈ history oneKeyJwt KeypairAuthenticator.oneKeyAuth polledTwice, ∃ sent token claims,
      s.headers oneKeyJwt (py "agent") = .ok sent ∧
      sent.lookup (py "Authorization") = some (py "Bearer " ++ token) ∧
      oneKeyJwt.decode token = some claims ∧
      partition (ch '.') claims.sub = (py "ACCT", py "USER") ∧
      (claims.iat : ℚ) ≤ s.now ∧ s.now + (120 : Int) - 1 < claims.exp) ∧
    ((history oneKeyJwt KeypairAuthenticator.oneKeyAuth polledTwice).filter
        fun s => KeypairAuthenticator.renews s.consult).Pairwise
      fun first second => first.now + (((3600 : Int) : ℚ) - (120 : Int)) ≤ second.now := by
  have hnow : (history oneKeyJwt KeypairAuthenticator.oneKeyAuth polledTwice).map Sent.now =
      [1000, 1001, 4480] := by decide +kernel
  have hnonneg : ∀ s ∈ history oneKeyJwt KeypairAuthenticator.oneKeyAuth polledTwice, 0 ≤ s.now := by
    intro s hs
    have hmem := List.mem_map_of_mem (f := Sent.now) hs
    rw [hnow] at hmem
    simp only [List.mem_cons, List.not_mem_nil, or_false] at hmem
    rcases hmem with h | h | h <;> rw [h] <;> norm_num
  have hmono : ((history oneKeyJwt KeypairAuthenticator.oneKeyAuth polledTwice).map Sent.now).Pairwise
      (· ≤ ·) := by
    rw [hnow]
    norm_num
  obtain ⟨hclaims, hspaced⟩ := requests_authorized (py "agent") KeypairAuthenticator.new_oneKey
    (by decide) hnonneg hmono
  refine ⟨hnow, fun s hs => ?_, hspaced⟩
  obtain ⟨sent, token, claims, hsent, hbearer, hdecode, hnames, -, hiat, hexp⟩ := hclaims s hs
  exact ⟨sent, token, claims, hsent, hbearer, hdecode, hnames, hiat, hexp⟩

end SnowflakeSqlApi
