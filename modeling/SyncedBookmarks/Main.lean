import SyncedBookmarks.CommandLine

namespace SyncedBookmarks

/-! The program on the disk of the machine. -/

namespace Program

/-- A disk with a file as it is now. What cannot be read as a file counts as a directory. -/
def withFile (disk : Disk) (path : String) : IO Disk := do
  let node ←
    try
      let content ← IO.FS.readBinFile path
      pure (some (DiskNode.file content.toList))
    catch
      | .noFileOrDirectory .. => pure none
      | _ => pure (some .directory)
  match node with
  | some node =>
      let disk := disk.withDirectory (some (DiskPath.parent path))
      pure (disk.put (DiskPath.ofText path) node)
  | none => pure disk

/-- Writes a file that a run has changed. -/
def keepFile (before after : Disk) (path : String) : IO Unit := do
  match after.read path with
  | .ok content =>
      unless (before.read path).toOption == some content do
        let parent := "/".intercalate (piecesOf '/' path).dropLast
        unless parent.isEmpty do
          IO.FS.createDirAll parent
        IO.FS.writeBinFile path (ByteArray.mk content.toArray)
  | .error _ => pure ()

def run (arguments : List String) : IO UInt32 := do
  let environment : Environment :=
    { home := ← IO.getEnv "HOME"
      configHome := ← IO.getEnv "XDG_CONFIG_HOME"
      dataHome := ← IO.getEnv "XDG_DATA_HOME" }
  let clock ← IO.monoMsNow
  let settings ← ((CommandLine.files environment arguments {}).take 1).foldlM withFile {}
  let files := CommandLine.files environment arguments settings
  let before ← files.foldlM withFile {}
  let (outcome, after) := CommandLine.run environment clock arguments before
  for path in files do
    keepFile before after path
  IO.print outcome.output
  IO.eprint outcome.errors
  for line in outcome.log do
    IO.eprintln line
  pure outcome.code

end Program

end SyncedBookmarks

def main (arguments : List String) : IO UInt32 :=
  SyncedBookmarks.Program.run arguments
