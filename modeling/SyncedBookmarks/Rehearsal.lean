import SyncedBookmarks.Identity.Scripted
import SyncedBookmarks.Service
import SyncedBookmarks.Sync.Server

namespace SyncedBookmarks

/-! A service with all that it meets in memory: the account system, by script or from a file, the
storage server, and the disk. -/

namespace Respondent

/-- Either of two, whichever there is. -/
def either (first : Respondent σ) (second : Respondent τ) : Respondent (σ ⊕ τ) where
  reply
    | question, .inl state =>
        let (reply, state) := first.reply question state
        (reply, .inl state)
    | question, .inr state =>
        let (reply, state) := second.reply question state
        (reply, .inr state)
  now
    | .inl state => first.now state
    | .inr state => second.now state
  transfer
    | request, .inl state => (first.transfer request state).map id .inl
    | request, .inr state => (second.transfer request state).map id .inr

end Respondent

def Conversation.mapWorld (change : σ → τ) (conversation : Conversation σ) : Conversation τ where
  identity := conversation.identity
  world := change conversation.world
  logins := conversation.logins
  nonces := conversation.nonces

def Service.mapWorld (change : σ → τ) (service : Service σ) : Service τ where
  settings := service.settings
  client := service.client
  conversation := service.conversation.mapWorld change

abbrev Players := Script ⊕ LocalAccount

structure Rehearsal where
  service : Service Players
  server : Server := {}
  environment : Environment := {}
  disk : Disk := {}

namespace Rehearsal

def respondent : Respondent Players :=
  Script.respondent.either LocalAccount.respondent

/-- The service, its first login over. -/
def settled (service : Service Players) : Service Players :=
  (service.converse (·.wait respondent)).2

def ofScript (settings : Settings) (script : Script) : Rehearsal where
  service := settled (Service.start settings {} (.inl script))

/-- A client and an identity that nothing has happened to. -/
def idle (client : Client) (settings : Settings) (script : Script) : Rehearsal where
  service :=
    { settings, client
      conversation :=
        { identity := { tokenServer := settings.tokenServer }, world := .inl script } }

def ofDisk (environment : Environment) (settings : Settings) (disk : Disk) :
    Except OpenError Rehearsal :=
  match (Service.ofDisk environment settings 0).result disk with
  | (.error cause, _) => .error cause
  | (.ok service, disk) =>
      .ok { service := settled (service.mapWorld Sum.inr), environment, disk }

def client (rehearsal : Rehearsal) : Client :=
  rehearsal.service.client

def withClient (rehearsal : Rehearsal) (client : Client) : Rehearsal :=
  { rehearsal with service := { rehearsal.service with client } }

def identity (rehearsal : Rehearsal) : Identity :=
  rehearsal.service.conversation.identity

def script (rehearsal : Rehearsal) : Script :=
  match rehearsal.service.conversation.world with
  | .inl script => script
  | .inr _ => {}

/-- Tells the script what to do from now on. -/
def direct (command : ScriptCommand) (rehearsal : Rehearsal) : Rehearsal :=
  let conversation := rehearsal.service.conversation
  let service :=
    { rehearsal.service with
      conversation := conversation.mapWorld (Sum.map (·.apply command) id) }
  { rehearsal with service }

/-- Starts the client again over what it keeps. -/
def resumeClient (journaled : Bool) (rehearsal : Rehearsal) : Rehearsal :=
  let client := rehearsal.client
  rehearsal.withClient
    { Client.resume client.collection client.store.generators journaled client.tree
        client.tracker.ledger with
      sealings := client.sealings }

/-- Starts the service again over the files on the disk. -/
def reopen (rehearsal : Rehearsal) : Except OpenError Rehearsal := do
  let service := rehearsal.service
  let reopened ←
    ofDisk rehearsal.environment service.settings
      (service.save rehearsal.environment rehearsal.disk)
  pure { reopened with server := rehearsal.server }

/-- A pass with given keys, whoever is signed in. -/
def syncClient (keys : KeyBundle) (rehearsal : Rehearsal) :
    Except SyncError Summary × Rehearsal :=
  let (outcome, client, server) := rehearsal.client.sync Server.storage keys rehearsal.server
  (outcome, { rehearsal.withClient client with server })

def sync (rehearsal : Rehearsal) : Except SyncError Summary × Rehearsal :=
  let (outcome, service, server) :=
    rehearsal.service.syncWith respondent Server.storage rehearsal.server
  (outcome, { rehearsal with service, server })

/-- A step of the service. -/
def onService (step : Service Players → α × Service Players) (rehearsal : Rehearsal) :
    α × Rehearsal :=
  let (value, service) := step rehearsal.service
  (value, { rehearsal with service })

/-- What the client has told and the server was asked, which is then forgotten. -/
def watch (rehearsal : Rehearsal) : List Event × List ServerCall × Rehearsal :=
  let client := rehearsal.client
  (client.log.map (·.event), rehearsal.server.calls,
    { rehearsal.withClient { client with log := [] } with
      server := { rehearsal.server with calls := [] } })

end Rehearsal

end SyncedBookmarks
