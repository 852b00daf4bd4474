import SnowflakeSqlApi.Lib.Fallible
import SnowflakeSqlApi.Python.Numeral
import SnowflakeSqlApi.RoundTrip

/-!
# Key pair authentication

`auth.py`: an authenticator signs a JWT and keeps it until it comes near its expiry.

The cache and the token keep different clocks.  A token's `exp` claim is counted from
the whole second it was signed in, `_cached_exp` from the exact time.  Between the two a
cached token is handed out that is inside its renewal margin, or expired where there
is no margin: `token_fresh_iff` says that these calls are all that go wrong.

Loading a key and signing are `cryptography` and `jwt`, and stay parameters.
-/

namespace SnowflakeSqlApi

/-- The part of `cryptography` that loads a key. -/
structure Cryptography (Key : Type) where
  loadPem : Bytes → Option Bytes → Except Exc Key
  loadDer : Bytes → Option Bytes → Except Exc Key
  /-- SHA-256 of the public key's DER encoding, in base64. -/
  publicDigest : Key → PyStr

structure Claims where
  iss : PyStr
  sub : PyStr
  iat : Int
  exp : Int
  deriving DecidableEq

/-- `jwt`: a signed token holds the claims that were signed. -/
structure Jwt (Key : Type) where
  encode : Claims → Key → Except Exc PyStr
  decode : PyStr → Option Claims
  decode_encode : ∀ {claims key token}, encode claims key = .ok token → decode token = some claims

/-! ### The account and the key -/

def normalizeAccountLocator (casing : Casing) (account : PyStr) : Except Exc PyStr :=
  if account = [] then .error (.config [lit "account is required"])
  else .ok (casing.upper (partition (ch '.') account).1)

/-- A `str` or `bytes` argument. -/
inductive KeyInput
  | str (s : PyStr)
  | bytes (b : Bytes)

def KeyInput.encode : KeyInput → Except Exc Bytes
  | .bytes b => .ok b
  | .str s =>
    match utf8 s with
    | some b => .ok b
    | none => .error (.builtin "UnicodeEncodeError" [lit "surrogates not allowed"])

section

variable {Key : Type} (crypto : Cryptography Key) (jwt : Jwt Key)

def loadPrivateKey (data : KeyInput) (passphrase : Option KeyInput) : Except Exc Key := do
  let raw ← data.encode
  let password ← passphrase.mapM KeyInput.encode
  match crypto.loadPem raw password with
  | .ok key => .ok key
  | .error exc =>
    if exc.cls = .foreign (py "ValueError") then
      match crypto.loadDer raw password with
      | .ok key => .ok key
      | .error exc =>
        if exc.cls = .foreign (py "ValueError") ∨ exc.cls = .foreign (py "TypeError") then
          .error { Exc.config (lit "could not load private key: " :: exc.message) with cause := some exc }
        else .error exc
    else if exc.cls = .foreign (py "TypeError") then
      .error { Exc.config (lit "private key passphrase error: " :: exc.message) with cause := some exc }
    else .error exc

def publicKeyFingerprint (key : Key) : PyStr := py "SHA256:" ++ crypto.publicDigest key

/-! ### The authenticator -/

structure KeypairAuthenticator (Key : Type) where
  accountClaim : PyStr
  user : PyStr
  key : Key
  fingerprint : PyStr
  lifetime : Int
  margin : Int
  lifetime_valid : 0 < lifetime ∧ lifetime ≤ 3600
  margin_valid : 0 ≤ margin
  cachedToken : Option PyStr := none
  cachedExp : ℚ := 0

namespace KeypairAuthenticator

def new (casing : Casing) (account user : PyStr) (privateKey : KeyInput) (passphrase : Option KeyInput)
    (lifetimeSeconds renewalMarginSeconds : Int) : Except Exc (KeypairAuthenticator Key) :=
  if user = [] then .error (.config [lit "user is required"])
  else if hlifetime : lifetimeSeconds ≤ 0 ∨ 3600 < lifetimeSeconds then
    .error (.config [lit "lifetime_seconds must be in (0, 3600]"])
  else if hmargin : renewalMarginSeconds < 0 then
    .error (.config [lit "renewal_margin_seconds must be >= 0"])
  else do
    let accountClaim ← normalizeAccountLocator casing account
    let key ← loadPrivateKey crypto privateKey passphrase
    pure {
      accountClaim
      user := casing.upper user
      key
      fingerprint := publicKeyFingerprint crypto key
      lifetime := lifetimeSeconds
      margin := renewalMarginSeconds
      lifetime_valid := by omega
      margin_valid := by omega }

variable (auth : KeypairAuthenticator Key)

def qualifiedUsername : PyStr := auth.accountClaim ++ [ch '.'] ++ auth.user

def issuer : PyStr := auth.qualifiedUsername ++ [ch '.'] ++ auth.fingerprint

/-- The payload `_generate` signs: `int` drops the fraction of the clock. -/
def payload (now : ℚ) : Claims where
  iss := auth.issuer
  sub := auth.qualifiedUsername
  iat := truncate now
  exp := truncate now + auth.lifetime

def generate (now : ℚ) : Except Exc PyStr := jwt.encode (auth.payload now) auth.key

/-- The cached token, while it is outside the renewal margin by `_cached_exp`. -/
def cached (now : ℚ) : Option PyStr :=
  if now < auth.cachedExp - auth.margin then auth.cachedToken else none

/-- What `token(now)` returns, and the authenticator after it. -/
def token (now : ℚ) : Except Exc PyStr × KeypairAuthenticator Key :=
  match auth.cached now with
  | some token => (.ok token, auth)
  | none =>
    match auth.generate jwt now with
    | .ok token =>
      (.ok token, { auth with cachedToken := some token, cachedExp := now + auth.lifetime })
    | .error e => (.error e, auth)

/-- The authenticator before each of a sequence of calls, with the time of the call. -/
def calls : KeypairAuthenticator Key → List ℚ → List (KeypairAuthenticator Key × ℚ)
  | _, [] => []
  | auth, now :: times => (auth, now) :: calls (auth.token jwt now).2 times

/-! ### What a call returns -/

/-- The call returns no token, or one outside its margin that is already valid. -/
def Fresh (now : ℚ) : Prop := ∀ token, (auth.token jwt now).1 = .ok token →
  ∃ claims, jwt.decode token = some claims ∧ now + auth.margin < claims.exp ∧ (claims.iat : ℚ) ≤ now

/-- No token is cached, or the call misses the part of a second between the `exp` claim and
`_cached_exp`. -/
def Clear (now : ℚ) : Prop :=
  auth.cachedToken = none ∨ now + auth.margin < ⌊auth.cachedExp⌋ ∨ auth.cachedExp ≤ now + auth.margin

/-- What the cache knows of a token: it was signed at `signed`, not after `now`. -/
structure Signed (now signed : ℚ) (token : PyStr) : Prop where
  cached : auth.cachedToken = some token
  nonneg : 0 ≤ signed
  le : signed ≤ now
  cachedExp : auth.cachedExp = signed + auth.lifetime
  claims : ∃ claims, jwt.decode token = some claims ∧ claims.iat = ⌊signed⌋ ∧
    claims.exp = ⌊signed⌋ + auth.lifetime

/-- A cached token was signed at some time up to `now`. -/
def Tracked (now : ℚ) : Prop :=
  ∀ token, auth.cachedToken = some token → ∃ signed, auth.Signed jwt now signed token

variable {jwt auth} {now t : ℚ}

theorem Signed.later {signed : ℚ} {token : PyStr} (h : auth.Signed jwt now signed token)
    (hle : now ≤ t) : auth.Signed jwt t signed token := { h with le := h.le.trans hle }

theorem Tracked.later (h : auth.Tracked jwt now) (hle : now ≤ t) : auth.Tracked jwt t := by
  intro token htoken
  obtain ⟨signed, hsigned⟩ := h token htoken
  exact ⟨signed, hsigned.later hle⟩

/-- What a call can do: hand out the cached token, sign one, or fail to. -/
theorem token_cases (jwt : Jwt Key) (now : ℚ) :
    (∃ token, auth.cachedToken = some token ∧ now < auth.cachedExp - auth.margin ∧
      auth.token jwt now = (.ok token, auth)) ∨
    ((auth.cachedToken = none ∨ auth.cachedExp - auth.margin ≤ now) ∧
      ((∃ token, auth.generate jwt now = .ok token ∧ auth.token jwt now =
        (.ok token, { auth with cachedToken := some token, cachedExp := now + auth.lifetime })) ∨
      ∃ e, auth.generate jwt now = .error e ∧ auth.token jwt now = (.error e, auth))) := by
  cases hcached : auth.cached now with
  | some cachedToken =>
    rw [cached] at hcached
    split at hcached
    · next hhit =>
      refine .inl ⟨cachedToken, hcached, hhit, ?_⟩
      rw [token, cached, if_pos hhit, hcached]
    · cases hcached
  | none =>
    refine .inr ⟨?_, ?_⟩
    · rw [cached] at hcached
      split at hcached
      · exact .inl hcached
      · next hmiss => exact .inr (not_lt.mp hmiss)
    · rw [token, hcached]
      cases auth.generate jwt now with
      | ok token => exact .inl ⟨token, rfl, rfl⟩
      | error e => exact .inr ⟨e, rfl, rfl⟩

theorem payload_exp (hnow : 0 ≤ now) : (auth.payload now).exp = ⌊now⌋ + auth.lifetime := by
  rw [payload, truncate_of_nonneg hnow]

/-- A token handed out of the cache is fresh when the call is clear of the part of a second. -/
theorem Signed.fresh_iff {signed : ℚ} {token : PyStr} (h : auth.Signed jwt now signed token)
    (hhit : now < auth.cachedExp - auth.margin)
    (hresult : auth.token jwt now = (.ok token, auth)) : auth.Fresh jwt now ↔ auth.Clear now := by
  obtain ⟨claims, hdecode, hiat, hexp⟩ := h.claims
  have hfloor : ⌊auth.cachedExp⌋ = claims.exp := by
    rw [h.cachedExp, Int.floor_add_intCast, hexp]
  have hvalid : (claims.iat : ℚ) ≤ now := by
    rw [hiat]
    exact (Int.floor_le signed).trans h.le
  constructor
  · intro hfresh
    obtain ⟨claims', hdecode', hmargin, -⟩ := hfresh token (by rw [hresult])
    rw [hdecode] at hdecode'
    cases hdecode'
    exact .inr (.inl (by rw [hfloor]; exact hmargin))
  · intro hclear t ht
    rw [hresult] at ht
    cases ht
    refine ⟨claims, hdecode, ?_, hvalid⟩
    rcases hclear with hnone | hbefore | hafter
    · rw [h.cached] at hnone
      cases hnone
    · rwa [hfloor] at hbefore
    · linarith

/-- A token signed now is fresh. -/
theorem fresh_of_generate {token : PyStr} (hmargin : auth.margin < auth.lifetime) (hnow : 0 ≤ now)
    (hgenerate : auth.generate jwt now = .ok token) (hresult : (auth.token jwt now).1 = .ok token) :
    auth.Fresh jwt now := by
  intro t ht
  rw [hresult] at ht
  cases ht
  refine ⟨auth.payload now, jwt.decode_encode hgenerate, ?_, ?_⟩
  · have hfloor := Int.lt_floor_add_one now
    have hone : ((auth.margin : ℚ)) + 1 ≤ auth.lifetime := by exact_mod_cast hmargin
    rw [payload_exp hnow]
    push_cast
    linarith
  · rw [payload, truncate_of_nonneg hnow]
    exact Int.floor_le now

/-- **One call**: fresh if and only if clear. -/
theorem Tracked.fresh_iff (h : auth.Tracked jwt now) (hmargin : auth.margin < auth.lifetime)
    (hnow : 0 ≤ now) : auth.Fresh jwt now ↔ auth.Clear now := by
  obtain ⟨token, hcached, hhit, hresult⟩ | ⟨hmiss, hsign⟩ := auth.token_cases jwt now
  · obtain ⟨signed, hsigned⟩ := h token hcached
    exact hsigned.fresh_iff hhit hresult
  · have hclear : auth.Clear now := by
      rcases hmiss with hnone | hexpired
      · exact .inl hnone
      · exact .inr (.inr (by linarith))
    refine ⟨fun _ => hclear, fun _ => ?_⟩
    obtain ⟨token, hgenerate, hresult⟩ | ⟨e, -, hresult⟩ := hsign
    · exact fresh_of_generate hmargin hnow hgenerate (by rw [hresult])
    · intro t ht
      rw [hresult] at ht
      cases ht

/-- A call keeps track of the token it leaves in the cache. -/
theorem Tracked.token (h : auth.Tracked jwt now) (hnow : 0 ≤ now) :
    (auth.token jwt now).2.Tracked jwt now := by
  obtain ⟨token, -, -, hresult⟩ | ⟨-, ⟨token, hgenerate, hresult⟩ | ⟨e, -, hresult⟩⟩ :=
    auth.token_cases jwt now
  · rw [hresult]
    exact h
  · rw [hresult]
    intro t ht
    cases ht
    refine ⟨now, rfl, hnow, le_refl now, rfl, auth.payload now, jwt.decode_encode hgenerate, ?_, ?_⟩
    · rw [payload, truncate_of_nonneg hnow]
    · exact payload_exp hnow
  · rw [hresult]
    exact h

/-- A call leaves the lifetime and the margin. -/
theorem token_lifetime (now : ℚ) : (auth.token jwt now).2.lifetime = auth.lifetime ∧
    (auth.token jwt now).2.margin = auth.margin := by
  obtain ⟨token, -, -, hresult⟩ | ⟨-, ⟨token, -, hresult⟩ | ⟨e, -, hresult⟩⟩ :=
    auth.token_cases jwt now <;> rw [hresult] <;> exact ⟨rfl, rfl⟩

/-- The calls of a run, from a cache that is tracked. -/
theorem Tracked.calls {times : List ℚ} (h : auth.Tracked jwt now)
    (hmargin : auth.margin < auth.lifetime) (hnow : 0 ≤ now) (hle : ∀ t ∈ times, now ≤ t)
    (hmono : times.Pairwise (· ≤ ·)) :
    (∀ call ∈ auth.calls jwt times, call.1.Fresh jwt call.2) ↔
      ∀ call ∈ auth.calls jwt times, call.1.Clear call.2 := by
  induction times generalizing auth now with
  | nil => simp [KeypairAuthenticator.calls]
  | cons time times ih =>
    obtain ⟨hfirst, hrest⟩ := List.pairwise_cons.mp hmono
    have htime : now ≤ time := hle time (by simp)
    have hpos : 0 ≤ time := hnow.trans htime
    have hstart : auth.Tracked jwt time := h.later htime
    have hnext : (auth.token jwt time).2.margin < (auth.token jwt time).2.lifetime := by
      rw [(token_lifetime time).1, (token_lifetime time).2]
      exact hmargin
    rw [KeypairAuthenticator.calls, List.forall_mem_cons, List.forall_mem_cons,
      hstart.fresh_iff hmargin hpos, ih (hstart.token hpos) hnext hpos hfirst hrest]

theorem new_empty {crypto : Cryptography Key} {casing : Casing} {account user : PyStr}
    {privateKey : KeyInput} {passphrase : Option KeyInput} {lifetime margin : Int}
    (h : new crypto casing account user privateKey passphrase lifetime margin = .ok auth) :
    auth.lifetime = lifetime ∧ auth.margin = margin ∧ auth.cachedToken = none := by
  rw [new] at h
  split at h
  · cases h
  split at h
  · cases h
  split at h
  · cases h
  obtain ⟨accountClaim, -, h⟩ := bind_eq_ok.mp h
  obtain ⟨key, -, h⟩ := bind_eq_ok.mp h
  cases h
  exact ⟨rfl, rfl, rfl⟩

/-- **In every run from a new authenticator all tokens are fresh exactly when every call is clear**
of the part of a second between the `exp` claim of the cached token and `_cached_exp`. -/
theorem token_fresh_iff {crypto : Cryptography Key} {casing : Casing} {account user : PyStr}
    {privateKey : KeyInput} {passphrase : Option KeyInput} {lifetime margin : Int}
    (h : new crypto casing account user privateKey passphrase lifetime margin = .ok auth)
    (hmargin : margin < lifetime) {times : List ℚ} (hnonneg : ∀ t ∈ times, 0 ≤ t)
    (hmono : times.Pairwise (· ≤ ·)) :
    (∀ call ∈ auth.calls jwt times, call.1.Fresh jwt call.2) ↔
      ∀ call ∈ auth.calls jwt times, call.1.Clear call.2 := by
  obtain ⟨hlifetime, hkept, hempty⟩ := new_empty h
  have htracked : auth.Tracked jwt 0 := by
    intro token htoken
    rw [hempty] at htoken
    cases htoken
  exact htracked.calls (by rw [hlifetime, hkept]; exact hmargin) le_rfl hnonneg hmono

end KeypairAuthenticator

end

/-! ### A token inside its margin -/

/-- A key store with one key. -/
def oneKey : Cryptography Unit where
  loadPem _ _ := .ok ()
  loadDer _ _ := .ok ()
  publicDigest _ := py "digest"

def oneKeyIssuer : PyStr := py "ACCT.USER.SHA256:digest"

def oneKeySubject : PyStr := py "ACCT.USER"

/-- A signer for one subject, which writes the two times in the token. -/
def oneKeyJwt : Jwt Unit where
  encode claims _ :=
    if claims.iss = oneKeyIssuer ∧ claims.sub = oneKeySubject then
      .ok (strInt claims.iat ++ ch ' ' :: strInt claims.exp)
    else .error (.valueError [])
  decode token := do
    let iat ← readInt (partition (ch ' ') token).1
    let exp ← readInt (partition (ch ' ') token).2
    pure ⟨oneKeyIssuer, oneKeySubject, iat, exp⟩
  decode_encode := by
    intro claims _ token h
    have hspace : ch ' ' ∉ strInt claims.iat := notMem_strInt (by decide) (by decide) _
    split at h
    · next hsubject =>
      cases h
      rw [partition_append _ hspace, readInt_strInt, readInt_strInt, ← hsubject.1, ← hsubject.2]
      rfl
    · cases h

namespace KeypairAuthenticator

/-- `KeypairAuthenticator("acct", "user", key)`, with the default lifetime and margin. -/
def oneKeyAuth : KeypairAuthenticator Unit where
  accountClaim := py "ACCT"
  user := py "USER"
  key := ()
  fingerprint := py "SHA256:digest"
  lifetime := 3600
  margin := 120
  lifetime_valid := by decide
  margin_valid := by decide

theorem new_oneKey :
    new oneKey asciiCasing (py "acct") (py "user") (.bytes []) none 3600 120 = .ok oneKeyAuth := by
  rfl

theorem token_fresh_iff_oneKey :
    (∀ call ∈ oneKeyAuth.calls oneKeyJwt [1000, 4400, 4500], call.1.Fresh oneKeyJwt call.2) ↔
      ∀ call ∈ oneKeyAuth.calls oneKeyJwt [1000, 4400, 4500], call.1.Clear call.2 :=
  token_fresh_iff new_oneKey (by decide) (by simp) (by norm_num)

/-- **Not every token is fresh**: one signed at 1000.5 expires at 4600 and is handed out at 4480.2. -/
theorem oneKeyAuth_stale :
    new oneKey asciiCasing (py "acct") (py "user") (.bytes []) none 3600 120 = .ok oneKeyAuth ∧
      ¬ ∀ call ∈ oneKeyAuth.calls oneKeyJwt [1000.5, 4480.2], call.1.Fresh oneKeyJwt call.2 := by
  have htruncate : truncate 1000.5 = 1000 := by decide +kernel
  have hsign : oneKeyAuth.generate oneKeyJwt 1000.5 = .ok (py "1000 4600") := by
    rw [generate, payload, htruncate]
    rfl
  have hfirst : oneKeyAuth.token oneKeyJwt 1000.5 =
      (.ok (py "1000 4600"),
        { oneKeyAuth with cachedToken := some (py "1000 4600"), cachedExp := 1000.5 + 3600 }) := by
    rw [token, cached, if_neg (by norm_num [oneKeyAuth]), hsign]
    rfl
  have hsecond : ((oneKeyAuth.token oneKeyJwt 1000.5).2.token oneKeyJwt 4480.2).1 =
      .ok (py "1000 4600") := by
    rw [hfirst, token, cached, if_pos (by norm_num [oneKeyAuth])]
  have hdecode : oneKeyJwt.decode (py "1000 4600") =
      some ⟨oneKeyIssuer, oneKeySubject, 1000, 4600⟩ := by decide
  refine ⟨rfl, fun hfresh => ?_⟩
  obtain ⟨claims, hclaims, hmargin, -⟩ :=
    hfresh ((oneKeyAuth.token oneKeyJwt 1000.5).2, 4480.2) (by simp [calls]) _ hsecond
  rw [hdecode] at hclaims
  cases hclaims
  rw [hfirst] at hmargin
  norm_num [oneKeyAuth] at hmargin

end KeypairAuthenticator

end SnowflakeSqlApi
