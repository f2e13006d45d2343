import Fwos.Netd.World

/-!
# Account operations

The writers of the Identity configuration (`identity.rs`): the first
administrator of a Bootstrap and the authenticated operations on local accounts.
Each call reads the stored configuration, decides, and writes a whole new one.

What the call cannot decide (whether the file can be read, written and synced, the
random token, the result of `crypt`) is its `CallEnv`.
-/

namespace Fwos

open Rust

/-- The files that the operations read and write. -/
structure Store where
  bootstrapped : Bool := false
  identity : Option (Raw IdentityConfiguration) := none
deriving DecidableEq, Repr

structure CallEnv where
  readable : Bool := true
  token : Option String := some "token"
  crypt : Option String := some "$y$"
  written : Bool := true
  synced : Bool := true
deriving DecidableEq, Repr

structure Authentication where
  principal : Principal
  assurance : Assurance
  credentialVersion : Nat
deriving DecidableEq, Repr

inductive AccountError where
  | forbidden
  | invalidCredentials
  | alreadyExists
  | notFound
  | lastAdministrator
  | storage
deriving DecidableEq, Repr

/-- The order of the assurances, `Password < MultiFactor`. -/
def Assurance.atLeast (given required : Assurance) : Bool :=
  required == .password || given == .multiFactor

/-- `IdentityConfiguration::read`. -/
def Store.read (store : Store) (env : CallEnv) : Except String IdentityConfiguration :=
  match store.identity with
  | some (.parsed config) =>
      if env.readable then config.check else .error "Identity configuration unavailable"
  | some (.garbled _) =>
      .error (if env.readable then "Identity configuration invalid"
        else "Identity configuration unavailable")
  | none => .error "Identity configuration unavailable"

/-- `crypt_password`: only a yescrypt hash is one. -/
def cryptPassword (crypt : Option String) : Except String String :=
  match crypt with
  | none => .error "password hashing failed"
  | some encoded =>
      if startsWith encoded "$y$" then .ok encoded else .error "password hashing failed"

def randomTokenOf (env : CallEnv) : Except String String :=
  okOr env.token "secure randomness unavailable"

/-- `write_configuration`: the rename publishes the whole file or nothing. Only
the sync of the directory can fail after it. -/
def Store.write (store : Store) (env : CallEnv) (config : IdentityConfiguration) :
    Except String Unit × Store :=
  if !env.written then (.error "publish Identity configuration", store)
  else (if env.synced then .ok () else .error "persist Identity directory",
    { store with identity := some (.parsed config) })

namespace IdentityConfiguration

def authorizedIn (config : IdentityConfiguration) (authentication : Authentication) : Bool :=
  authentication.assurance.atLeast config.requiredAssurance &&
    config.sources.contains authentication.principal.source &&
    config.accounts.any fun account =>
      account.source == authentication.principal.source &&
        account.subject == authentication.principal.subject &&
        account.username == authentication.principal.username &&
        account.credentialVersion == authentication.credentialVersion &&
        account.administrator

end IdentityConfiguration

/-- The local administrator of a name. -/
def LocalAccount.isAdministrator (username : String) (account : LocalAccount) : Bool :=
  account.source == localSource && account.username == username && account.administrator

def LocalAccount.isLocalAdministrator (account : LocalAccount) : Bool :=
  account.source == localSource && account.administrator

def newAdministrator (username subject passwordHash : String) : LocalAccount := {
  source := localSource, subject := subject, username := username
  passwordHash := passwordHash, credentialVersion := 1, administrator := true }

/-! ## What each operation writes -/

def firstConfiguration (store : Store) (env : CallEnv) (username password : String) :
    Except String IdentityConfiguration := do
  ensure (!store.bootstrapped) "already bootstrapped"
  ensure (validUsername username && validPassword password) "invalid administrator credentials"
  let subject ← randomTokenOf env
  let hash ← cryptPassword env.crypt
  return { sources := [localSource], accounts := [newAdministrator username subject hash] }

/-- The configuration that an authenticated operation starts from. -/
def authorizedConfiguration (store : Store) (env : CallEnv) (authentication : Authentication) :
    Except AccountError IdentityConfiguration := do
  ensure store.bootstrapped .forbidden
  let config ← (store.read env).mapError fun _ => .storage
  ensure (config.authorizedIn authentication) .forbidden
  return config

def createdConfiguration (store : Store) (env : CallEnv) (authentication : Authentication)
    (username password : String) : Except AccountError IdentityConfiguration := do
  ensure (validUsername username && validPassword password) .invalidCredentials
  let config ← authorizedConfiguration store env authentication
  ensure (config.sources.contains localSource) .storage
  ensure (!config.accounts.any fun account =>
    account.source == localSource && account.username == username) .alreadyExists
  let subject ← (randomTokenOf env).mapError fun _ => .storage
  let hash ← (cryptPassword env.crypt).mapError fun _ => .storage
  return { config with accounts := config.accounts ++ [newAdministrator username subject hash] }

def LocalAccount.withPassword (account : LocalAccount) (hash : String) : LocalAccount :=
  { account with passwordHash := hash, credentialVersion := account.credentialVersion + 1 }

def changedConfiguration (store : Store) (env : CallEnv) (authentication : Authentication)
    (username password : String) : Except AccountError IdentityConfiguration := do
  ensure (validPassword password) .invalidCredentials
  let config ← authorizedConfiguration store env authentication
  let account ← okOr (config.accounts.find? (·.isAdministrator username)) .notFound
  -- `checked_add` on `u64`.
  ensure (account.credentialVersion + 1 < 2 ^ 64) .storage
  let hash ← (cryptPassword env.crypt).mapError fun _ => .storage
  return { config with
    accounts := modifyFirst (·.isAdministrator username) (·.withPassword hash) config.accounts }

def removedConfiguration (store : Store) (env : CallEnv) (authentication : Authentication)
    (username : String) : Except AccountError IdentityConfiguration := do
  let config ← authorizedConfiguration store env authentication
  ensure (config.accounts.any (·.isAdministrator username)) .notFound
  ensure (1 < config.accounts.countP (·.isLocalAdministrator)) .lastAdministrator
  return { config with accounts := config.accounts.eraseP (·.isAdministrator username) }

/-! ## Calls -/

inductive AccountCall where
  | createFirstAdministrator (username password : String)
  | createLocalAdministrator (authentication : Authentication) (username password : String)
  | changeLocalAdministratorPassword (authentication : Authentication) (username password : String)
  | removeLocalAdministrator (authentication : Authentication) (username : String)
deriving DecidableEq, Repr

inductive CallError where
  | first (error : String)
  | account (error : AccountError)
deriving DecidableEq, Repr

/-- The configuration that the call would write. -/
def AccountCall.configuration (call : AccountCall) (store : Store) (env : CallEnv) :
    Except CallError IdentityConfiguration :=
  match call with
  | .createFirstAdministrator username password =>
      (firstConfiguration store env username password).mapError .first
  | .createLocalAdministrator authentication username password =>
      (createdConfiguration store env authentication username password).mapError .account
  | .changeLocalAdministratorPassword authentication username password =>
      (changedConfiguration store env authentication username password).mapError .account
  | .removeLocalAdministrator authentication username =>
      (removedConfiguration store env authentication username).mapError .account

/-- The error of a call whose write fails. -/
def AccountCall.writeError (call : AccountCall) (error : String) : CallError :=
  match call with
  | .createFirstAdministrator _ _ => .first error
  | _ => .account .storage

def AccountCall.run (call : AccountCall) (env : CallEnv) (store : Store) :
    Except CallError Unit × Store :=
  match call.configuration store env with
  | .error error => (.error error, store)
  | .ok config =>
      match store.write env config with
      | (.ok (), store) => (.ok (), store)
      | (.error error, store) => (.error (call.writeError error), store)

end Fwos
