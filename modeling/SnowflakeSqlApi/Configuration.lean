import SnowflakeSqlApi.Auth
import SnowflakeSqlApi.ClientBase

/-!
# Configuration

`_ClientBase.__init__` and `from_env`: what a client is made of, and what it takes from the
environment.  Of the two forms of an account the claim keeps the text before the first dot
(`normalizeAccountLocator`) and the host all of it (`accountHostname`).

`fromEnv_eq_ok` reads a client that was made back: its request context is what the environment
names, and nothing is set that the environment does not set.
-/

namespace SnowflakeSqlApi

def accountHostname (casing : Casing) (account : PyStr) : Except Exc PyStr :=
  if account = [] then .error (.config [lit "account is required"])
  else .ok ((casing.lower account).map (fun c => if c = ch '_' then ch '-' else c)
    ++ py ".snowflakecomputing.com")

theorem no_timeout_pos : ∀ t : Nat, none = some t → 0 < t := nofun

theorem timeout_toNat_pos {n : Int} (h : ¬n ≤ 0) : ∀ t : Nat, some n.toNat = some t → 0 < t := by
  intro t ht
  cases ht
  omega

/-- The value of a `statement_timeout` argument: `None`, or a positive `int`. -/
def validateStatementTimeout : Json → Except Exc { t : Option Nat // ∀ n, t = some n → 0 < n }
  | .null => .ok ⟨none, no_timeout_pos⟩
  | .int n =>
    if h : n ≤ 0 then do
      let _ ← intStr n
      .error (.config [lit "statement_timeout must be a positive integer of seconds, got ", .int n])
    else .ok ⟨some n.toNat, timeout_toNat_pos h⟩
  | value =>
    .error (.config [lit "statement_timeout must be a positive integer of seconds, got ", value])

/-- What becomes of reading a file: `os` is for `OSError` and its subclasses. -/
inductive FileRead
  | content (bytes : Bytes)
  | os (e : Exc)
  | other (e : Exc)

/-- `os.environ` and the files. -/
structure Environment where
  get : PyStr → Option PyStr
  readBytes : PyStr → FileRead

/-- The arguments of a client. -/
structure ClientArgs where
  account : PyStr
  user : PyStr
  privateKey : Option Bytes := none
  privateKeyPath : Option PyStr := none
  privateKeyPassphrase : Option PyStr := none
  role : Option PyStr := none
  warehouse : Option PyStr := none
  database : Option PyStr := none
  schema : Option PyStr := none
  timezone : Option PyStr := none
  parameters : Dict := []
  host : Option PyStr := none
  statementTimeout : Json := .null

/-- A client, as far as it does not depend on the network. -/
structure Client (Key : Type) where
  account : PyStr
  user : PyStr
  context : ClientContext
  auth : KeypairAuthenticator Key
  host : PyStr

namespace ClientArgs

/-- The bytes of the private key, given or read. -/
def keyBytes (args : ClientArgs) (env : Environment) : Except Exc Bytes :=
  match args.privateKey, args.privateKeyPath with
  | none, none => .error (.config [lit "a private_key or private_key_path is required"])
  | some key, _ => .ok key
  | none, some path =>
    match env.readBytes path with
    | .content bytes => .ok bytes
    | .os e => .error { Exc.config [lit "could not read private key file: ", .str path] with
        cause := some e }
    | .other e => .error e

/-- `host or account_hostname(account)`. -/
def hostname (casing : Casing) (args : ClientArgs) : Except Exc PyStr :=
  if args.host.getD [] = [] then accountHostname casing args.account else .ok (args.host.getD [])

end ClientArgs

section

variable {Key : Type} (crypto : Cryptography Key) (casing : Casing) (env : Environment)

/-- `_ClientBase.__init__`. -/
def Client.new (args : ClientArgs) : Except Exc (Client Key) := do
  let key ← args.keyBytes env
  let statementTimeout ← validateStatementTimeout args.statementTimeout
  let auth ← KeypairAuthenticator.new crypto casing args.account args.user (.bytes key)
    (args.privateKeyPassphrase.map .str) 3600 120
  let host ← args.hostname casing
  pure {
    account := args.account
    user := args.user
    context := {
      statementTimeout := statementTimeout.val
      database := args.database
      schema := args.schema
      warehouse := args.warehouse
      role := args.role
      timezone := args.timezone
      parameters := args.parameters
      timeout_pos := statementTimeout.property }
    auth
    host }

/-- `key_pem.encode() if key_pem else None`. -/
def environKey : Except Exc (Option Bytes) :=
  match env.get (py "SNOWFLAKE_PRIVATE_KEY") with
  | some pem => if pem = [] then .ok none else (KeyInput.str pem).encode.map some
  | none => .ok none

/-- `from_env`. -/
def fromEnv : Except Exc (Client Key) :=
  let account := (env.get (py "SNOWFLAKE_ACCOUNT")).getD []
  let user := (env.get (py "SNOWFLAKE_USER")).getD []
  if account = [] ∨ user = [] then
    .error (.config [lit "SNOWFLAKE_ACCOUNT and SNOWFLAKE_USER are required"])
  else do
    let privateKey ← environKey env
    Client.new crypto casing env {
      account
      user
      privateKey
      privateKeyPath := env.get (py "SNOWFLAKE_PRIVATE_KEY_PATH")
      privateKeyPassphrase := env.get (py "SNOWFLAKE_PRIVATE_KEY_PASSPHRASE")
      role := env.get (py "SNOWFLAKE_ROLE")
      warehouse := env.get (py "SNOWFLAKE_WAREHOUSE")
      database := env.get (py "SNOWFLAKE_DATABASE")
      schema := env.get (py "SNOWFLAKE_SCHEMA")
      host := env.get (py "SNOWFLAKE_HOST") }

variable {crypto casing env}

/-- **A client from the environment** sends in a body, beside the statement, what the environment
names and nothing else. -/
theorem fromEnv_eq_ok {client : Client Key} (h : fromEnv crypto casing env = .ok client) :
    env.get (py "SNOWFLAKE_ACCOUNT") = some client.account ∧
      env.get (py "SNOWFLAKE_USER") = some client.user ∧
      client.context.contextItems =
        ClientContext.textItem (py "database") (env.get (py "SNOWFLAKE_DATABASE"))
        ++ ClientContext.textItem (py "schema") (env.get (py "SNOWFLAKE_SCHEMA"))
        ++ ClientContext.textItem (py "warehouse") (env.get (py "SNOWFLAKE_WAREHOUSE"))
        ++ ClientContext.textItem (py "role") (env.get (py "SNOWFLAKE_ROLE")) := by
  rw [fromEnv] at h
  split at h
  · cases h
  · next hgiven =>
    rw [not_or] at hgiven
    have hsome : ∀ {value : Option PyStr}, value.getD [] ≠ [] → value = some (value.getD []) := by
      intro value hvalue
      cases value with
      | none => exact absurd rfl hvalue
      | some text => rfl
    obtain ⟨privateKey, -, h⟩ := bind_eq_ok.mp h
    obtain ⟨key, -, h⟩ := bind_eq_ok.mp h
    obtain ⟨statementTimeout, htimeout, h⟩ := bind_eq_ok.mp h
    obtain ⟨auth, -, h⟩ := bind_eq_ok.mp h
    obtain ⟨host, -, h⟩ := bind_eq_ok.mp h
    cases htimeout
    cases h
    refine ⟨hsome hgiven.1, hsome hgiven.2, ?_⟩
    exact List.append_nil _

end

end SnowflakeSqlApi
