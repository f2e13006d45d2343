import Fwos.Rust.Text

/-!
# Identity configuration

The local accounts of `identity.rs`, as far as netd and the UI read them: a
configuration is read with all its checks, and ownership is bound to the subject
of its first local administrator.
-/

namespace Fwos

open Rust

/-- A source-qualified account, `identity::Principal`. -/
structure Principal where
  source : String
  subject : String
  username : String
deriving DecidableEq, Repr

inductive Assurance where
  | password
  | multiFactor
deriving DecidableEq, Repr

structure LocalAccount where
  subject : String
  source : String
  username : String
  passwordHash : String
  credentialVersion : Nat
  administrator : Bool
deriving DecidableEq, Repr

structure IdentityConfiguration where
  version : Nat := 1
  /-- The ids of the sources, each a local password source. -/
  sources : List String
  requiredAssurance : Assurance := .password
  accounts : List LocalAccount
deriving DecidableEq, Repr

def localSource : String := "local"

def maxPasswordBytes : Nat := 511

def validUsername (name : String) : Bool :=
  match name.toList with
  | [] => false
  | first :: rest =>
      (first.isLower || first == '_') && name.utf8ByteSize ≤ 32 && name != "root" &&
        rest.all fun c => c.isLower || c.isDigit || c == '_' || c == '-'

/-- No ASCII control character, which are bytes of no other character. -/
def validPassword (password : String) : Bool :=
  !password.isEmpty && password.utf8ByteSize ≤ maxPasswordBytes &&
    password.toList.all fun c => !(c.val < 0x20 || c.val == 0x7f)

namespace IdentityConfiguration

def firstLocalAdministratorSubject (config : IdentityConfiguration) : Option String :=
  (config.accounts.find? fun account =>
    account.source == localSource && account.administrator).map (·.subject)

/-- `HashSet::insert` of every element in turn: no element came before. -/
def allNew {α : Type} [BEq α] : List α → List α → Bool
  | _, [] => true
  | seen, a :: rest => !seen.contains a && allNew (a :: seen) rest

def checkAccount (config : IdentityConfiguration) (account : LocalAccount) : Bool :=
  config.sources.contains account.source && !account.subject.isEmpty &&
    validUsername account.username && account.credentialVersion != 0 &&
    startsWith account.passwordHash "$y$"

/-- The checks of `IdentityConfiguration::read` on what it parsed. -/
def check (config : IdentityConfiguration) : Except String IdentityConfiguration :=
  if config.version != 1 then .error "unsupported Identity configuration version"
  else if config.sources.any (·.isEmpty) || !allNew [] config.sources then
    .error "invalid Authentication sources"
  else if !(config.accounts.all config.checkAccount &&
      allNew [] (config.accounts.map fun account => (account.source, account.subject)) &&
      allNew [] (config.accounts.map fun account => (account.source, account.username))) then
    .error "invalid local accounts"
  else .ok config

end IdentityConfiguration

end Fwos
