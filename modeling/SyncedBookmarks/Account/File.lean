import SyncedBookmarks.Account.Basic
import SyncedBookmarks.Disk
import SyncedBookmarks.Error
import SyncedBookmarks.Json.Fields

namespace SyncedBookmarks

/-! The account that a file describes. -/

structure AccountFile where
  email : String
  uid : String
  verified : Bool
  secret : String
  /-- What is shown to a token server, whoever asks. -/
  assertion : String
  deriving DecidableEq, Repr

def AccountFile.schema : Schema AccountFile where
  declared := [["email"], ["uid"], ["verified"], ["kB"], ["assertion"]]
  build
    | [email, uid, verified, secret, assertion] => do
        pure
          { email := ← Json.required Json.asString? email
            uid := ← Json.required Json.asString? uid
            verified := ← Json.defaulted true Json.asBool? verified
            secret := ← Json.required Json.asString? secret
            assertion := ← Json.required Json.asString? assertion }
    | _ => none

/-- The account read last, and what a listener has not yet been told. -/
structure AccountProvider where
  path : String
  current : Option AccountFile := none
  inbox : Option (List AccountEvent) := none

namespace AccountProvider

/-- The account in a file; nobody is signed in when there is no file. -/
def readFile (path : String) (disk : Disk) : Except IdentityError (Option AccountFile) :=
  if disk.contains path then
    match disk.readText path with
    | .error fault => .error (.account s!"Failed to read account file: {fault.message}")
    | .ok text =>
        match AccountFile.schema.parse? text with
        | some account => .ok (some account)
        | none => .error (.account "Failed to parse account file: this is no account")
  else .ok none

def ofFile (path : String) (disk : Disk) : Except IdentityError AccountProvider := do
  pure { path, current := ← readFile path disk }

/-- How many events wait for a listener before the oldest is lost. -/
def capacity : Nat := 16

def tell (provider : AccountProvider) (event : AccountEvent) : AccountProvider :=
  { provider with
    inbox := provider.inbox.map fun events =>
      let events := events ++ [event]
      events.drop (events.length - capacity) }

/-- Reads the file again and tells whether there is an account in it now. -/
def reload (provider : AccountProvider) (disk : Disk) :
    Except IdentityError (AccountEvent × AccountProvider) := do
  let current ← readFile provider.path disk
  let event := if current.isSome then AccountEvent.login else .logout
  pure (event, { provider with current }.tell event)

def subscribe (provider : AccountProvider) : AccountProvider :=
  { provider with inbox := some [] }

/-- The events since the last look. -/
def events (provider : AccountProvider) : List AccountEvent × AccountProvider :=
  (provider.inbox.getD [], { provider with inbox := provider.inbox.map fun _ => [] })

def user (provider : AccountProvider) : Option Account :=
  provider.current.map fun account =>
    { email := account.email, uid := account.uid, verified := account.verified }

def keys (provider : AccountProvider) : Option AccountKeys :=
  provider.current.map fun account => { email := account.email, secret := account.secret }

def assertion (provider : AccountProvider) : Except IdentityError String :=
  match provider.current with
  | some account => .ok account.assertion
  | none => .error .notSignedIn

def verify (account : Account) : Except IdentityError Unit :=
  if account.verified then .ok () else .error (.account "account is not verified")

end AccountProvider

end SyncedBookmarks
