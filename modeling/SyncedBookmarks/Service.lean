import SyncedBookmarks.Account.Local
import SyncedBookmarks.Database
import SyncedBookmarks.Directories
import SyncedBookmarks.Settings.Basic
import SyncedBookmarks.Sync.Remote

namespace SyncedBookmarks

/-! All that syncs the bookmarks of the signed-in account. -/

structure Service (σ : Type) where
  settings : Settings
  client : Client
  conversation : Conversation σ

/-- What there is to know about a service at a glance. -/
structure ServiceStatus where
  account : Option String
  auth : AuthState
  state : IdentityState
  validToken : Bool
  pending : Nat
  score : Nat
  lastSync : Timestamp

namespace Service

/-- A service over what was kept, with a first login under way. -/
def start (settings : Settings) (database : Database) (world : σ) : Service σ where
  settings := settings
  client :=
    { Client.resume settings.collection (some []) true database.tree database.ledger with
      sealings := database.sealings }
  conversation :=
    ({ identity := { tokenServer := settings.tokenServer }, world } : Conversation σ).listen
      |>.startLogin

def database (service : Service σ) : Database where
  tree := service.client.tree
  ledger := service.client.tracker.ledger
  sealings := service.client.sealings

/-- A step of the conversation. -/
def converse (step : Conversation σ → α × Conversation σ) (service : Service σ) : α × Service σ :=
  let (value, conversation) := step service.conversation
  (value, { service with conversation })

/-- Waits for the login and for the keys that it is to bring. -/
def ready (respondent : Respondent σ) (service : Service σ) :
    Except SyncError KeyBundle × Service σ :=
  match service.converse (·.wait respondent) with
  | (.error cause, service) => (.error (.notReady cause.message), service)
  | (.ok (), service) =>
      let identity := service.conversation.identity
      match identity.authState, identity.keys with
      | .ok, some keys => (.ok keys, service)
      | .ok, none => (.error (.notReady "no key bundle"), service)
      | state, _ => (.error (.notReady state.name), service)

def node (respondent : Respondent σ) (service : Service σ) :
    Except SyncError String × Service σ :=
  match service.converse (·.node respondent) with
  | (.ok node, service) => (.ok node, service)
  | (.error cause, service) => (.error (.cluster cause), service)

/-- One pass with a given storage server. -/
def syncWith (respondent : Respondent σ) (storage : Storage τ) (service : Service σ) (state : τ) :
    Except SyncError Summary × Service σ × τ :=
  match service.ready respondent with
  | (.error cause, service) => (.error cause, service, state)
  | (.ok keys, service) =>
      let (outcome, client, state) := service.client.sync storage keys state
      (outcome, { service with client }, state)

/-- One pass with the storage node of the account. -/
def sync (respondent : Respondent σ) (service : Service σ) :
    Except SyncError Summary × Service σ :=
  match service.ready respondent with
  | (.error cause, service) => (.error cause, service)
  | (.ok _, service) =>
      match service.node respondent with
      | (.error cause, service) => (.error cause, service)
      | (.ok node, service) =>
          match service.ready respondent with
          | (.error cause, service) => (.error cause, service)
          | (.ok keys, service) =>
              let (outcome, client, conversation) :=
                service.client.sync (Remote.storage respondent node) keys service.conversation
              (outcome, { service with client, conversation })

def wipe (service : Service σ) : Except SyncError Unit × Service σ :=
  let (outcome, client) := service.client.wipeClient
  (outcome, { service with client })

def status (respondent : Respondent σ) (service : Service σ) : ServiceStatus × Service σ :=
  let (validToken, service) := service.converse (·.hasValidToken respondent)
  let identity := service.conversation.identity
  ({ account := identity.account
     auth := identity.authState
     state := identity.state
     validToken
     pending := service.client.tracker.changed.length
     score := service.client.tracker.score
     lastSync := service.client.lastSync }, service)

end Service

/-! ### A service on a disk -/

inductive OpenError where
  | database (reason : String)
  | account (cause : IdentityError)
  deriving DecidableEq, Repr

def OpenError.message : OpenError → String
  | .database reason => reason
  | .account cause => cause.message

namespace Database

def notOne : String := "file is not a database"

/-- The most bytes in the path of a database. -/
def maxPath : Nat := 488

/-- The most bytes in the name of its file, next to which a journal of a longer name is kept. -/
def maxName : Nat := 247

/-- The path of the file that is meant by the path of a database: without dots, and without a slash
at its end. -/
def filePath (path : String) : String :=
  (DiskPath.ofText path).text

/-- Whether a database may have that path. -/
def accepts (path : String) : Bool :=
  let place := DiskPath.ofText path
  place.text.utf8ByteSize ≤ maxPath && place.getLast?.all (·.utf8ByteSize ≤ maxName)

def unopened : String := "unable to open database file"

/-- Removes a file that no database needs any more. -/
def clear (path : String) : DiskAction Unit := do
  match ← Action.read (·.find path) with
  | .ok (.file _) => Disk.remove path
  | .ok .directory => throw .isDirectory
  | .error _ => pure ()

/-- Makes the files next to a database that are there while it is in use. A journal of an earlier
use is not among them. -/
def attend (file : String) : DiskAction Unit := do
  clear (file ++ "-journal")
  ["-wal", "-shm"].forM fun ending => Disk.write (file ++ ending) [signature]

/-- The database in a file. One is made when there is no file, or an empty one. -/
def openFile (path : String) : DiskAction (Except String Database) := do
  Disk.makeDirectory (DiskPath.parent path)
  let file := filePath path
  if !accepts path then pure (.error unopened)
  else
    let content := ((← Action.read (·.read file)).toOption).getD []
    match if content.isEmpty then some {} else ofBytes? content with
    | none => pure (.error notOne)
    | some database =>
        Disk.write file database.bytes
        attend file
        pure (.ok database)

end Database

namespace Service

/-- A service on the files of a user. The directory for the database is made first. -/
def ofDisk (environment : Environment) (settings : Settings) (clock : Int) :
    Action Disk OpenError (Service LocalAccount) := do
  let opened ← (Database.openFile (environment.databasePath settings.databaseFile)).within id
    (fun disk _ => disk) (.database ·.message)
  let database ← Action.check fun _ => opened.mapError .database
  let provider ← Action.check fun disk =>
    (AccountProvider.ofFile (environment.accountPath settings.accountFile) disk).mapError .account
  pure (start settings database { provider, clock })

/-- The disk with the service's database on it. -/
def save (environment : Environment) (service : Service σ) (disk : Disk) : Disk :=
  let path := environment.databasePath service.settings.databaseFile
  disk.after (Disk.write (Database.filePath path) service.database.bytes)

end Service

end SyncedBookmarks
