namespace SyncedBookmarks

/-! Where a user's files are kept. -/

/-- The variables that say where. -/
structure Environment where
  home : Option String := none
  configHome : Option String := none
  dataHome : Option String := none
  deriving DecidableEq, Repr

namespace Environment

/-- The path of a name in a directory. An absolute path stands for itself. -/
def joined (directory name : String) : String :=
  if name.startsWith "/" then name
  else if directory.isEmpty || directory.endsWith "/" then directory ++ name
  else directory ++ "/" ++ name

def ownDirectory : String := "bookmark-sync"

def homeDirectory (environment : Environment) : String :=
  environment.home.getD "/tmp"

/-- The directory of that name, unless the name is empty, or else another. -/
def directoryOr (named : Option String) (otherwise : String) : String :=
  let directory := named.getD ""
  joined (if directory.isEmpty then otherwise else directory) ownDirectory

def configDirectory (environment : Environment) : String :=
  directoryOr environment.configHome (joined environment.homeDirectory ".config")

def dataDirectory (environment : Environment) : String :=
  directoryOr environment.dataHome (joined (joined environment.homeDirectory ".local") "share")

def settingsPath (environment : Environment) : String :=
  joined environment.configDirectory "settings.json"

def accountPath (environment : Environment) (file : String) : String :=
  joined environment.configDirectory file

def databasePath (environment : Environment) (file : String) : String :=
  joined environment.dataDirectory file

end Environment

end SyncedBookmarks
