import SyncedBookmarks.Json.Fields
import SyncedBookmarks.Text.Literal
import SyncedBookmarks.Text.Pieces
import SyncedBookmarks.Error

namespace SyncedBookmarks

/-! The settings, and how one of them is changed by name. -/

structure Settings where
  tokenServer : String := "https://token.services.mozilla.com/1.0/sync/1.5"
  /-- In seconds, for any wait for the account or the token server. -/
  authTimeout : UInt64 := 30
  /-- In seconds, for a request to the storage server. -/
  requestTimeout : UInt64 := 30
  databaseFile : String := "places.sqlite"
  accountFile : String := "account.json"
  collection : String := "bookmarks"
  logFilter : String := "info"
  deriving DecidableEq, Repr

inductive Setting where
  | tokenServer
  | authTimeout
  | requestTimeout
  | databaseFile
  | accountFile
  | collection
  | logFilter
  deriving DecidableEq, Repr

namespace Setting

def all : List Setting :=
  [.tokenServer, .authTimeout, .requestTimeout, .databaseFile, .accountFile, .collection,
    .logFilter]

def name : Setting → String
  | .tokenServer => "token_server_uri"
  | .authTimeout => "auth_timeout_secs"
  | .requestTimeout => "request_timeout_secs"
  | .databaseFile => "database_file"
  | .accountFile => "account_file"
  | .collection => "collection"
  | .logFilter => "log_filter"

def ofName? (name : String) : Option Setting :=
  all.find? (·.name == name)

end Setting

namespace Json

/-- A whole number of 64 bits without a sign. -/
def asUInt64? : Json → Option UInt64
  | .number (.natural value) => if value < Nat.pow 2 64 then some (UInt64.ofNat value) else none
  | _ => none

/-- What a value is, in the words of a complaint. -/
def described : Json → String
  | .null => "null"
  | .bool value => s!"boolean `{value}`"
  | .number (.natural value) => s!"integer `{value}`"
  | .number (.negative value) => s!"integer `-{value}`"
  | .number (.real value) => s!"floating point `{value.wireText}`"
  | .string value => "string " ++ Literal.quoted value
  | .array _ => "sequence"
  | .object _ => "map"

def isWhole : Json → Bool
  | .number (.natural _) => true
  | .number (.negative _) => true
  | _ => false

/-- The text in a value, or why it is none. -/
def expectText (value : Json) : Except String String :=
  match value.asString? with
  | some text => .ok text
  | none => .error s!"invalid type: {value.described}, expected a string"

/-- The number of seconds in a value, or why it is none. A whole number is of the right type. -/
def expectSeconds (value : Json) : Except String UInt64 :=
  match value.asUInt64? with
  | some seconds => .ok seconds
  | none =>
      let fault := if value.isWhole then "value" else "type"
      .error s!"invalid {fault}: {value.described}, expected u64"

end Json

namespace Settings

def toJson (settings : Settings) : Json :=
  .object
    [(Setting.tokenServer.name, .string settings.tokenServer),
      (Setting.authTimeout.name, Json.ofNat settings.authTimeout.toNat),
      (Setting.requestTimeout.name, Json.ofNat settings.requestTimeout.toNat),
      (Setting.databaseFile.name, .string settings.databaseFile),
      (Setting.accountFile.name, .string settings.accountFile),
      (Setting.collection.name, .string settings.collection),
      (Setting.logFilter.name, .string settings.logFilter)]

/-- Whatever is missing has its default. -/
def schema : Schema Settings where
  declared := Setting.all.map fun setting => [setting.name]
  build
    | [tokenServer, authTimeout, requestTimeout, databaseFile, accountFile, collection,
        logFilter] => do
        let standard : Settings := {}
        pure
          { tokenServer := ← Json.defaulted standard.tokenServer Json.asString? tokenServer
            authTimeout := ← Json.defaulted standard.authTimeout Json.asUInt64? authTimeout
            requestTimeout :=
              ← Json.defaulted standard.requestTimeout Json.asUInt64? requestTimeout
            databaseFile := ← Json.defaulted standard.databaseFile Json.asString? databaseFile
            accountFile := ← Json.defaulted standard.accountFile Json.asString? accountFile
            collection := ← Json.defaulted standard.collection Json.asString? collection
            logFilter := ← Json.defaulted standard.logFilter Json.asString? logFilter }
    | _ => none

/-! ### Changing one -/

/-- The settings with a new value for one of them, or what is wrong with the value. -/
def assign (settings : Settings) (setting : Setting) (value : Json) : Except String Settings := do
  match setting with
  | .tokenServer => pure { settings with tokenServer := ← value.expectText }
  | .authTimeout => pure { settings with authTimeout := ← value.expectSeconds }
  | .requestTimeout => pure { settings with requestTimeout := ← value.expectSeconds }
  | .databaseFile => pure { settings with databaseFile := ← value.expectText }
  | .accountFile => pure { settings with accountFile := ← value.expectText }
  | .collection => pure { settings with collection := ← value.expectText }
  | .logFilter => pure { settings with logFilter := ← value.expectText }

/-- The setting that a key means. Dots in a key lead into a setting, and there is nothing in any. -/
def settingOf (key : String) : Except SettingsError Setting :=
  let unknown := SettingsError.invalidKey s!"Key '{key}' not found in settings"
  if key.isEmpty then .error (.invalidKey "Key cannot be empty")
  else
    match piecesOf '.' key with
    | [name] =>
        match Setting.ofName? name with
        | some setting => .ok setting
        | none => .error unknown
    | [name, _] =>
        match Setting.ofName? name with
        | some _ =>
            .error (.invalidKey
              s!"Cannot navigate to key '{key}': intermediate value is not an object")
        | none => .error unknown
    | _ => .error unknown

def withValue (settings : Settings) (key : String) (value : Json) : Except SettingsError Settings :=
  match settingOf key with
  | .error cause => .error cause
  | .ok setting =>
      match settings.assign setting value with
      | .ok settings => .ok settings
      | .error reason => .error (.invalidValue s!"Invalid value for key '{key}': {reason}")

end Settings

end SyncedBookmarks
