import SyncedBookmarks.Action
import SyncedBookmarks.Codec.Bytes
import SyncedBookmarks.Text.Pieces

namespace SyncedBookmarks

/-! Files and directories, held in memory. -/

/-- A place in the tree of directories: the names on the way to it. -/
abbrev DiskPath := List String

inductive DiskNode where
  | directory
  | file (content : Bytes)
  deriving DecidableEq, Repr

inductive DiskFault where
  | missing
  | occupied
  | notDirectory
  | isDirectory
  | nameTooLong
  | noName
  | notText
  deriving DecidableEq, Repr

def DiskFault.message : DiskFault → String
  | .missing => "No such file or directory (os error 2)"
  | .occupied => "File exists (os error 17)"
  | .notDirectory => "Not a directory (os error 20)"
  | .isDirectory => "Is a directory (os error 21)"
  | .nameTooLong => "File name too long (os error 36)"
  | .noName => "file name contained an unexpected NUL byte"
  | .notText => "stream did not contain valid UTF-8"

namespace DiskPath

/-- The names in a path, without those that stand for the place itself. -/
def names (path : String) : List String :=
  (piecesOf '/' path).filter fun name => name != "" && name != "."

/-- The place that a path names when two dots take back the name before them. -/
def ofText (path : String) : DiskPath :=
  (names path).foldl (fun place name => if name = ".." then place.dropLast else place ++ [name]) []

def text (place : DiskPath) : String :=
  "/".intercalate place

/-- The path without its last name. -/
def parent (path : String) : String :=
  text (names path).dropLast

/-- Whether a path can only mean a directory. -/
def endsInDirectory (path : String) : Bool :=
  match (piecesOf '/' path).getLast? with
  | some name => ["", ".", ".."].contains name
  | none => true

/-- The most bytes in a name. -/
def maxName : Nat := 255

/-- The most bytes in a path below the root. -/
def maxPath : Nat := 4079

/-- What is wrong with a path, whatever is on the disk. -/
def fault? (path : String) : Option DiskFault :=
  if path.contains '\x00' then some .noName
  else if maxPath < path.utf8ByteSize then some .nameTooLong
  else none

end DiskPath

structure Disk where
  /-- Everything below the root, each place once. -/
  nodes : List (DiskPath × DiskNode) := []

/-- A change of the disk, which may come to nothing halfway. -/
abbrev DiskAction (α : Type) :=
  Action Disk DiskFault α

namespace Disk

def node? (disk : Disk) (place : DiskPath) : Option DiskNode :=
  if place.isEmpty then some .directory
  else (disk.nodes.find? (·.1 == place)).map (·.2)

def put (disk : Disk) (place : DiskPath) (node : DiskNode) : Disk :=
  { disk with nodes := disk.nodes.filter (·.1 != place) ++ [(place, node)] }

/-- Follows names from a place. Each step leads out of a directory that is there; two dots lead to
the one around it. -/
def walk (disk : Disk) (place : DiskPath) : List String → Except DiskFault DiskPath
  | [] => .ok place
  | name :: rest =>
      match disk.node? place with
      | none => .error .missing
      | some (.file _) => .error .notDirectory
      | some .directory =>
          if name = ".." then disk.walk place.dropLast rest
          else if DiskPath.maxName < name.utf8ByteSize then .error .nameTooLong
          else disk.walk (place ++ [name]) rest

/-- The place that a path leads to, which may be free. -/
def locate (disk : Disk) (path : String) : Except DiskFault DiskPath :=
  match DiskPath.fault? path with
  | some fault => .error fault
  | none => disk.walk [] (DiskPath.names path)

def find (disk : Disk) (path : String) : Except DiskFault DiskNode := do
  let place ← disk.locate path
  match disk.node? place with
  | none => throw .missing
  | some .directory => pure .directory
  | some (.file content) =>
      if DiskPath.endsInDirectory path then throw .notDirectory else pure (.file content)

def contains (disk : Disk) (path : String) : Bool :=
  (disk.find path).toBool

def read (disk : Disk) (path : String) : Except DiskFault Bytes := do
  match ← disk.find path with
  | .file content => pure content
  | .directory => throw .isDirectory

def readText (disk : Disk) (path : String) : Except DiskFault String := do
  match Bytes.text? (← disk.read path) with
  | some text => pure text
  | none => throw .notText

/-! ### Changes -/

/-- Makes the directories that are missing along names from a place. -/
def makeWay (place : DiskPath) : List String → DiskAction Unit
  | [] => pure ()
  | name :: rest => do
      if name = ".." then makeWay place.dropLast rest
      else if DiskPath.maxName < name.utf8ByteSize then throw .nameTooLong
      else
        let next := place ++ [name]
        match ← Action.read (·.node? next) with
        | some (.file _) => throw (if rest.isEmpty then .occupied else .notDirectory)
        | some .directory => makeWay next rest
        | none =>
            Action.change (·.put next .directory)
            makeWay next rest

/-- Makes a directory and those that it lies in, as far as they are missing. -/
def makeDirectory (path : String) : DiskAction Unit :=
  match DiskPath.fault? path with
  | some fault => throw fault
  | none => makeWay [] (DiskPath.names path)

def write (path : String) (content : Bytes) : DiskAction Unit := do
  let place ← Action.check (·.locate path)
  match ← Action.read (·.node? place) with
  | some .directory => throw .isDirectory
  | some (.file _) =>
      if DiskPath.endsInDirectory path then throw .notDirectory
      else Action.change (·.put place (.file content))
  | none =>
      if DiskPath.endsInDirectory path then throw .isDirectory
      else Action.change (·.put place (.file content))

/-- Writes a file, in directories made for it where they are missing. -/
def store (path : String) (content : Bytes) : DiskAction Unit := do
  makeDirectory (DiskPath.parent path)
  write path content

/-- Removes a file. -/
def remove (path : String) : DiskAction Unit := do
  let place ← Action.check (·.locate path)
  let _ ← Action.check (·.read path)
  Action.change fun disk => { disk with nodes := disk.nodes.filter (·.1 != place) }

/-- The disk after a change, as far as that can be made. -/
def after (disk : Disk) (change : DiskAction Unit) : Disk :=
  (change.result disk).2

/-- With a text in a file, if there is a text. -/
def withText (disk : Disk) (path : String) (content : Option String) : Disk :=
  match content with
  | some content => disk.after (store path (Bytes.ofText content))
  | none => disk

/-- With a directory, if there is a path for one. -/
def withDirectory (disk : Disk) (path : Option String) : Disk :=
  match path with
  | some path => disk.after (makeDirectory path)
  | none => disk

end Disk

end SyncedBookmarks
