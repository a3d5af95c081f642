import SyncedBookmarks.Identity.Question
import SyncedBookmarks.KeyBundle

namespace SyncedBookmarks

/-! The identity of a client: the account, its keys, and the token for the storage server. -/

inductive IdentityState where
  | uninitialized
  | initializing
  | readyToAuthenticate
  deriving DecidableEq, Repr

/-- How the last login has ended. -/
inductive Readiness where
  | pending
  | ready
  | failed (reason : String)
  deriving DecidableEq, Repr

inductive AuthState where
  | ok
  | noUsername
  | noKeyBundle
  deriving DecidableEq, Repr

def IdentityState.name : IdentityState → String
  | .uninitialized => "Uninitialized"
  | .initializing => "Initializing"
  | .readyToAuthenticate => "ReadyToAuthenticate"

def AuthState.name : AuthState → String
  | .ok => "Ok"
  | .noUsername => "NoUsername"
  | .noKeyBundle => "NoKeyBundle"

structure Identity where
  tokenServer : String
  state : IdentityState := .uninitialized
  account : Option String := none
  /-- The storage user that the token was issued for; empty without keys. -/
  username : String := ""
  token : Option Token := none
  keys : Option KeyBundle := none
  /-- Whether the keys have been looked up, with or without success. -/
  keysSettled : Bool := false
  /-- Grows with every login and logout. What an older login finds out is dropped. -/
  generation : Nat := 0
  readiness : Readiness := .pending
  /-- Whether events of the account system are listened to. -/
  listening : Bool := false
  logouts : Nat := 0
  /-- The storage node, remembered until the next logout. -/
  node : Option String := none

namespace Identity

def authState (identity : Identity) : AuthState :=
  if identity.keysSettled && identity.keys.isNone then .noKeyBundle
  else if identity.username.isEmpty then .noUsername
  else .ok

/-- Forgets whose keys these are and starts over. -/
def beginLogin (identity : Identity) : Identity :=
  { identity with
    generation := identity.generation + 1
    state := .initializing
    keysSettled := false
    keys := none
    username := ""
    readiness := .pending }

def logout (identity : Identity) : Identity :=
  { identity with
    generation := identity.generation + 1
    state := .uninitialized
    account := none
    username := ""
    token := none
    keys := none
    keysSettled := false
    readiness := .failed IdentityError.notSignedIn.message
    logouts := identity.logouts + 1
    node := none }

/-- What a wait for the last login comes to. -/
def outcome (identity : Identity) : Except IdentityError Unit :=
  match identity.readiness with
  | .ready => .ok ()
  | .failed reason => .error (.account reason)
  | .pending => .error .timeout

end Identity

end SyncedBookmarks
