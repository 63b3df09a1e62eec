import OpenVibeHost.Catalog
import OpenVibeHost.Sessions

/-! The console's connected accounts (server/console/console.js): a person's hosting
accounts, each added once its token is verified with the provider. -/
namespace OpenVibeHost.Console

open Catalog (Fault)

/-- `ConsoleError`. -/
def refusal (status : Nat) (code message : String) : Fault := .api ⟨status, code, message⟩

/-- A row of `host_console_accounts`. -/
structure Account where
  id : String
  ownerSubject : String
  provider : String
  label : String
  tokenSealed : String
  tokenHint : String
  createdAt : Int
  lastOkAt : Option Int
  lastError : Option String
  deriving DecidableEq

/-- A client of that table; it takes no row lock. -/
abbrev Client := Session (List Account) Empty Fault

structure Config where
  /-- The console has the key that tokens are sealed with. -/
  available : Bool
  maxAccounts : Nat

/-- `Object.keys(PROVIDERS)` of server/console/providers.js. -/
def providers : List String := ["linode", "digitalocean", "vultr", "hetzner"]

structure Request where
  provider : String
  token : String
  label : String

/-- `ProviderError`. -/
structure ProviderError where
  status : Nat
  message : String

/-- What connecting takes from outside: what the provider says to the token, a random
id, the time, and the token sealed. -/
structure Outside where
  verify : Except ProviderError String
  id : String
  now : Int
  sealed : String

def need (config : Config) : Except Fault Unit :=
  if config.available then .ok ()
  else .error (refusal 503 "console.unavailable"
    "Connecting hosting accounts is not set up on this server yet (HOST_CREDENTIALS_KEY).")

/-- `q.insert`: the id is the primary key, and the provider is checked. -/
def insert (row : Account) (accounts : List Account) : Except Fault (List Account) :=
  if row.provider ∉ providers then .error (.database "host_console_accounts_provider_check")
  else if accounts.any (·.id = row.id) then .error (.database "host_console_accounts_pkey")
  else .ok (accounts ++ [row])

def trimmed (text : String) : String := String.ofList (Json.trimChars text.toList)

/-- The last characters of a text, for `slice(-count)`. -/
def lastChars (count : Nat) (text : String) : String :=
  String.ofList (text.toList.drop (text.toList.length - count))

def connect (config : Config) (subject : String) (request : Request) (outside : Outside) :
    Client String := do
  Session.ofExcept (need config)
  let token := trimmed request.token
  if request.provider ∉ providers then
    Session.fail (refusal 422 "console.provider" "pick one of the listed providers")
  else if Catalog.units token < 16 ∨ 512 < Catalog.units token ∨ token.toList.any Json.blank then
    Session.fail (refusal 422 "console.token" "paste the whole API token (no spaces)")
  else
    let n ← Session.select fun accounts : List Account => accounts.countP (·.ownerSubject = subject)
    if config.maxAccounts ≤ n then
      Session.fail (refusal 429 "console.too_many" s!"you can connect {config.maxAccounts} accounts")
    else
      match outside.verify with
      | .error err =>
        Session.fail (refusal (if err.status = 401 then 422 else 502) "console.verify" err.message)
      | .ok found =>
        let label := String.ofList (Catalog.slice 60 (trimmed request.label).toList)
        Session.execute none (insert {
          id := outside.id, ownerSubject := subject, provider := request.provider
          label := if label = "" then String.ofList (Catalog.slice 60 found.toList) else label
          tokenSealed := outside.sealed, tokenHint := lastChars 4 token
          createdAt := outside.now, lastOkAt := some outside.now, lastError := none })
        pure outside.id

end OpenVibeHost.Console
