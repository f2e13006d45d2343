import Fwos.Identity.Invariant

/-!
# HTTPS sessions

Logins (`identity.rs`: `authenticate`) and the session table of the UI (`ui.rs`:
`session_token`, `authenticated`, `login`, `logout`).

A login reads the Identity configuration twice and takes the table's lock after
that, so that account operations and other requests may run in between: its three
parts are three events of the UI. Only one login runs at a time (`LOGIN_LOCK`).
Time is the monotonic clock in nanoseconds.
-/

namespace Fwos

open Effects Rust

/-! ## Authentication -/

/-- What the check of a password depends on: whether the file can be read, the
hash of no account, and `crypt` of a password and a setting. -/
structure PasswordEnv where
  readable : Bool := true
  unknownAccountHash : Option String := some "$y$unknown"
  crypt : String → String → Option String

inductive AuthenticationResult where
  | denied
  | challenge (source : String) (requiredAssurance : Assurance)
  | authenticated (authentication : Authentication)
deriving DecidableEq, Repr

/-- `eq_ct`: all bytes are compared, whatever the first difference. -/
def eqCt (a b : List UInt8) : Bool :=
  a.length == b.length && (a.zip b).foldl (fun difference p => difference ||| (p.1 ^^^ p.2)) 0 == 0

/-- `authenticate`, for an account of the stored configuration. -/
def authenticateIn (config : IdentityConfiguration) (env : PasswordEnv)
    (source username password : String) : AuthenticationResult :=
  if !config.sources.contains source then .denied else
  let account := config.accounts.find? fun account =>
    account.source == source && account.username == username
  -- A missing name costs the same check of a password.
  match env.unknownAccountHash with
  | none => .denied
  | some dummy =>
      let expected := (account.map (·.passwordHash)).getD dummy
      match cryptPassword (env.crypt password expected) with
      | .error _ => .denied
      | .ok candidate =>
          if !eqCt candidate.toUTF8.toList expected.toUTF8.toList then .denied else
          match account with
          | none => .denied
          | some account =>
              if config.requiredAssurance != .password then
                .challenge source config.requiredAssurance
              else .authenticated {
                principal := ⟨source, account.subject, account.username⟩
                assurance := .password
                credentialVersion := account.credentialVersion }

def authenticate (store : Store) (env : PasswordEnv) (source username password : String) :
    AuthenticationResult :=
  if !store.bootstrapped || !validPassword password then .denied else
  match store.read { readable := env.readable } with
  | .error _ => .denied
  | .ok config => authenticateIn config env source username password

/-- `authorize_administrator`. -/
def authorizeAdministrator (store : Store) (readable : Bool) (authentication : Authentication) :
    Bool :=
  store.bootstrapped &&
    match store.read { readable := readable } with
    | .error _ => false
    | .ok config => config.authorizedIn authentication

/-! ## The session table -/

structure Session where
  authentication : Authentication
  expires : Nat
deriving DecidableEq, Repr

def sessionCookie : String := "__Host-fwos"

/-- Thirty minutes. -/
def sessionLifetime : Nat := 30 * 60 * 1000000000

def sessionCapacity : Nat := 1024

/-- The table of the sessions by token. -/
abbrev Sessions := List (String × Session)

namespace Sessions

def retain (sessions : Sessions) (now : Nat) : Sessions :=
  sessions.filter fun entry => decide (now < entry.2.expires)

def remove (sessions : Sessions) (token : String) : Sessions :=
  sessions.filter fun entry => entry.1 != token

def insert (sessions : Sessions) (token : String) (session : Session) : Sessions :=
  (token, session) :: sessions.remove token

def get (sessions : Sessions) (token : String) : Option Session :=
  sessions.lookup token

end Sessions

def isHexdigit (c : Char) : Bool :=
  c.isDigit || decide ('a' ≤ c ∧ c ≤ 'f') || decide ('A' ≤ c ∧ c ≤ 'F')

/-- The value of one cookie of the header, if it is a session's. -/
def cookieToken (cookie : String) : Option String :=
  (splitOnce (trim cookie) '=').bind fun (name, value) =>
    if name == sessionCookie && value.utf8ByteSize == 64 && value.toList.all isHexdigit then
      some value
    else none

/-- `session_token`: the only session cookie of the header. -/
def sessionToken (cookies : Option String) : Option String :=
  match ((cookies.map (split · ';')).getD []).filterMap cookieToken with
  | [token] => some token
  | _ => none

/-! ## The UI -/

/-- How far the login that holds the lock has come. -/
inductive LoginStage where
  | idle
  | authenticated (authentication : Authentication)
  | authorized (authentication : Authentication)
deriving DecidableEq, Repr

structure Ui where
  store : Store := {}
  login : LoginStage := .idle
  sessions : Sessions := []
  now : Nat := 0
deriving DecidableEq, Repr

inductive UiEvent where
  /-- A call on the Identity store, or the end of a Bootstrap. -/
  | store (event : StoreEvent)
  | tick (elapsed : Nat)
  /-- A new process has no session and no login. -/
  | restart
  | authenticate (env : PasswordEnv) (source username password : String)
  | authorize (readable : Bool)
  /-- The rest of a login, with the cookies of its request and the random token. -/
  | openSession (cookies : Option String) (token : Option String)
  /-- The table's part of `authenticated`. -/
  | request
  | logout (cookies : Option String)

namespace Ui

/-- The part of `authenticated` under the table's lock. -/
def sessionOf (ui : Ui) (cookies : Option String) : Option Authentication :=
  (sessionToken cookies).bind fun token =>
    ((ui.sessions.retain ui.now).get token).map (·.authentication)

/-- `authenticated`: the table is read in one state and the grant in a later one. -/
def authenticated (atTable atGrant : Ui) (readable : Bool) (cookies : Option String) :
    Option Authentication :=
  (atTable.sessionOf cookies).filter (authorizeAdministrator atGrant.store readable)

def openSession (ui : Ui) (authentication : Authentication) (cookies : Option String)
    (token : String) : Sessions :=
  let sessions := ui.sessions.retain ui.now
  let sessions := match sessionToken cookies with
    | some previous => sessions.remove previous
    | none => sessions
  if sessionCapacity ≤ sessions.length then sessions
  else sessions.insert token ⟨authentication, ui.now + sessionLifetime⟩

def step (ui : Ui) : UiEvent → Ui
  | .store event => { ui with store := event.run ui.store }
  | .tick elapsed => { ui with now := ui.now + elapsed }
  | .restart => { ui with login := .idle, sessions := [], now := 0 }
  | .authenticate env source username password =>
      match ui.login with
      | .idle =>
          match Fwos.authenticate ui.store env source username password with
          | .authenticated authentication => { ui with login := .authenticated authentication }
          | _ => ui
      | _ => ui
  | .authorize readable =>
      match ui.login with
      | .authenticated authentication =>
          if authorizeAdministrator ui.store readable authentication then
            { ui with login := .authorized authentication }
          else { ui with login := .idle }
      | _ => ui
  | .openSession cookies token =>
      match ui.login, token with
      | .authorized authentication, some token =>
          { ui with login := .idle, sessions := ui.openSession authentication cookies token }
      | .authorized _, none => { ui with login := .idle }
      | _, _ => ui
  | .request => { ui with sessions := ui.sessions.retain ui.now }
  | .logout cookies =>
      match sessionToken cookies with
      | some token => { ui with sessions := ui.sessions.remove token }
      | none => ui

def run (ui : Ui) (events : List UiEvent) : Ui := events.foldl step ui

end Ui

/-- The random token that the event draws. -/
def UiEvent.token : UiEvent → Option String
  | .store event => event.token
  | .openSession _ token => token
  | _ => none

end Fwos
