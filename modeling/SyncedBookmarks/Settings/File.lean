import SyncedBookmarks.Action
import SyncedBookmarks.Disk
import SyncedBookmarks.Json.Printer
import SyncedBookmarks.Settings.Basic

namespace SyncedBookmarks

/-! The settings and the file that keeps them. -/

structure SettingsFile where
  path : String
  settings : Settings := {}

structure SettingsState where
  file : SettingsFile
  disk : Disk := {}

abbrev SettingsAction (α : Type) :=
  Action SettingsState SettingsError α

namespace SettingsFile

/-- The settings in the file; the defaults when there is no file. -/
def read (path : String) (disk : Disk) : Except SettingsError Settings :=
  if disk.contains path then
    match disk.readText path with
    | .error fault => .error (.io s!"Failed to read config file: {fault.message}")
    | .ok text =>
        match Settings.schema.parse? text with
        | some settings => .ok settings
        | none => .error (.serialization "Failed to parse config file: these are no settings")
  else .ok {}

def hold (settings : Settings) : SettingsAction Unit :=
  Action.change fun state => { state with file := { state.file with settings } }

def load : SettingsAction Unit := do
  hold (← Action.check fun state => read state.file.path state.disk)

/-- A change of the disk, with what a failure of it is called. -/
def onDisk (task : String) (change : DiskAction Unit) : SettingsAction Unit :=
  change.within (·.disk) (fun disk state => { state with disk })
    fun fault => .io s!"{task}: {fault.message}"

/-- Writes the settings to their file. The directories made for it stay when that fails. -/
def save : SettingsAction Unit := do
  let file ← Action.read (·.file)
  onDisk "Failed to create config directory" (Disk.makeDirectory (DiskPath.parent file.path))
  onDisk "Failed to write config file"
    (Disk.write file.path (Bytes.ofText file.settings.toJson.indentedText))

/-- Changes a setting and saves. The change stays when saving fails. -/
def set (key : String) (value : Json) : SettingsAction Unit := do
  hold (← Action.check fun state => state.file.settings.withValue key value)
  save

def reset : SettingsAction Unit := do
  hold {}
  save

end SettingsFile

end SyncedBookmarks
