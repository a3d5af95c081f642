import SyncedBookmarks.Service
import SyncedBookmarks.Settings.File

namespace SyncedBookmarks

/-! The commands of the program, and what a run of one does to the files of a user. -/

inductive Command where
  | sync
  | status
  | wipe
  | set (key value : String)
  deriving DecidableEq, Repr

/-- A command, with the settings file to use instead of the user's own. -/
structure Invocation where
  settingsPath : Option String := none
  command : Command := .sync
  deriving DecidableEq, Repr

namespace Invocation

def isOption (argument : String) : Bool :=
  argument.startsWith "-"

/-- The command in arguments without options. -/
def commandOf? : List String → Option Command
  | [] => some .sync
  | ["sync"] => some .sync
  | ["status"] => some .status
  | ["wipe"] => some .wipe
  | ["set", key, value] => some (.set key value)
  | _ => none

/-- One option is known, and it comes first. -/
def ofArguments? (arguments : List String) : Option Invocation := do
  let (settingsPath, arguments) :=
    match arguments with
    | "--config" :: path :: arguments => (some path, arguments)
    | arguments => (none, arguments)
  if arguments.any isOption then none
  else pure { settingsPath, command := ← commandOf? arguments }

end Invocation

/-- How a run ends. -/
structure RunOutcome where
  code : UInt32 := 0
  output : String := ""
  errors : String := ""
  /-- What went wrong, for the log. -/
  log : List String := []
  deriving DecidableEq, Repr

namespace RunOutcome

def ofLines (lines : List String) : RunOutcome where
  output := String.join (lines.map (· ++ "\n"))

def complaint (text : String) : RunOutcome where
  code := 1
  errors := text ++ "\n"

def logged (text : String) : RunOutcome where
  code := 1
  log := [text]

def usage : RunOutcome where
  code := 2
  errors := "usage: [--config FILE] [sync | status | wipe | set KEY VALUE]\n"

end RunOutcome

namespace CommandLine

def summaryLine (summary : Summary) : String :=
  s!"applied {summary.applied}, failed {summary.failed}, " ++
    s!"reparented {summary.reparented}, uploaded {summary.uploaded}"

def statusLines (status : ServiceStatus) : List String :=
  ["account:    " ++ status.account.getD "-",
    s!"auth state: {status.auth.name}",
    s!"pending:    {status.pending} (score {status.score})",
    s!"last sync:  {status.lastSync.plainText}"]

def outcomeOf : Except SyncError (List String) → RunOutcome
  | .ok lines => RunOutcome.ofLines lines
  | .error cause => RunOutcome.logged cause.message

/-- Runs a command on a service. Settings are no matter of the service. -/
def serve (respondent : Respondent σ) (service : Service σ) : Command → RunOutcome × Service σ
  | .sync =>
      let (outcome, service) := service.sync respondent
      (outcomeOf (outcome.map fun summary => [summaryLine summary]), service)
  | .status =>
      let (_, service) := service.converse (·.wait respondent)
      let (status, service) := service.status respondent
      (outcomeOf (.ok (statusLines status)), service)
  | .wipe =>
      let (outcome, service) := service.wipe
      (outcomeOf (outcome.map fun _ => []), service)
  | .set _ _ => ({}, service)

/-- The value in an argument: JSON, or else the argument itself. -/
def valueOf (argument : String) : Json :=
  (Json.parse? argument).getD (.string argument)

def change (path : String) (settings : Settings) (key value : String) (disk : Disk) :
    RunOutcome × Disk :=
  let state : SettingsState := { file := { path, settings }, disk }
  match (SettingsFile.set key (valueOf value)).result state with
  | (.ok (), state) => ({}, state.disk)
  | (.error cause, state) =>
      (RunOutcome.complaint s!"Error updating setting: {cause.message}", state.disk)

def onService (environment : Environment) (clock : Int) (settings : Settings) (command : Command)
    (disk : Disk) : RunOutcome × Disk :=
  match (Service.ofDisk environment settings clock).result disk with
  | (.error cause, disk) =>
      (RunOutcome.logged s!"could not open sync service: {cause.message}", disk)
  | (.ok service, disk) =>
      let (outcome, service) := serve LocalAccount.respondent service command
      (outcome, service.save environment disk)

def settingsPath (environment : Environment) (invocation : Invocation) : String :=
  invocation.settingsPath.getD environment.settingsPath

def run (environment : Environment) (clock : Int) (arguments : List String) (disk : Disk) :
    RunOutcome × Disk :=
  match Invocation.ofArguments? arguments with
  | none => (RunOutcome.usage, disk)
  | some invocation =>
      let path := settingsPath environment invocation
      match SettingsFile.read path disk with
      | .error cause =>
          (RunOutcome.complaint s!"Error loading settings from {path}: {cause.message}", disk)
      | .ok settings =>
          match invocation.command with
          | .set key value => change path settings key value disk
          | command => onService environment clock settings command disk

/-- The files that a run looks at: the settings, and those that the settings name. -/
def files (environment : Environment) (arguments : List String) (disk : Disk) : List String :=
  match Invocation.ofArguments? arguments with
  | none => []
  | some invocation =>
      let path := settingsPath environment invocation
      match SettingsFile.read path disk with
      | .error _ => [path]
      | .ok settings =>
          [path, environment.databasePath settings.databaseFile,
            environment.accountPath settings.accountFile]

end CommandLine

end SyncedBookmarks
