import SyncedBookmarks.Rehearsal

namespace SyncedBookmarks

/-! Items, events and states in JSON, for those who watch a client. Items and events are lists of
their fields in order. -/

def Item.toJson (item : Item) : Json :=
  .array
    [Json.ofInt item.id, .string item.guid, Json.ofOption Json.ofInt item.parent,
      Json.ofInt item.position, .string item.type.name, Json.ofOption .string item.title,
      Json.ofOption .string item.url]

def Row.toJson (row : Row) : Json :=
  .array
    [Json.ofInt row.id, .string row.guid, Json.ofOption Json.ofInt row.parent,
      Json.ofInt row.position, Json.ofInt row.typeCode, Json.ofOption .string row.title,
      Json.ofOption .string row.url, Json.ofOption .string row.keyword,
      .object (row.annotations.map fun (name, value) => (name, .string value))]

def Tree.toJson (tree : Tree) : Json :=
  .array (tree.rows.map Row.toJson)

def Event.toJson : Event → Json
  | .batchBegun => .array [.string "begin"]
  | .batchEnded => .array [.string "end"]
  | .added id folder index => .array (.string "added" :: [id, folder, index].map Json.ofInt)
  | .removing id guid => .array [.string "removing", Json.ofInt id, .string guid]
  | .changed id property annotated value =>
      .array [.string "changed", Json.ofInt id, .string property, .bool annotated, .string value]
  | .moved id oldParent oldIndex newParent newIndex =>
      .array (.string "moved" :: [id, oldParent, oldIndex, newParent, newIndex].map Json.ofInt)

/-- Names in order. -/
def sorted (names : List String) : List String :=
  names.mergeSort (· ≤ ·)

def ServerCall.toJson : ServerCall → Json
  | .fetch collection newer => .array [.string "fetch", .string collection, Json.ofReal newer]
  | .upload collection ids =>
      .array [.string "upload", .string collection, Json.ofStrings (sorted ids)]

def Summary.toJson (summary : Summary) : Json :=
  .object
    [("applied", Json.ofNat summary.applied), ("failed", Json.ofNat summary.failed),
      ("reparented", Json.ofNat summary.reparented), ("uploaded", Json.ofNat summary.uploaded)]

/-- The keys are shown bare. -/
def Identity.members (identity : Identity) : List (String × Json) :=
  [("state", .string identity.state.name), ("account", Json.ofOption .string identity.account),
    ("username", .string identity.username), ("token", Json.ofOption Token.toJson identity.token),
    ("keys",
      Json.ofOption
        (fun keys => Json.ofStrings [Hex.encode keys.encryptionKey, Hex.encode keys.hmacKey])
        identity.keys),
    ("ready", .bool identity.keysSettled), ("auth", .string identity.authState.name),
    ("logouts", Json.ofNat identity.logouts)]

def ServiceStatus.toJson (status : ServiceStatus) (settings : Settings) : Json :=
  .object
    [("account", Json.ofOption .string status.account), ("auth", .string status.auth.name),
      ("state", .string status.state.name), ("valid_token", .bool status.validToken),
      ("pending", Json.ofNat status.pending), ("last_sync", Json.ofReal status.lastSync),
      ("settings", settings.toJson)]

def Account.toJson (account : Account) : Json :=
  .object
    [("email", .string account.email), ("uid", .string account.uid),
      ("verified", .bool account.verified)]

def AccountKeys.toJson (keys : AccountKeys) : Json :=
  .object [("email", .string keys.email), ("kb", .string keys.secret)]

/-- The identity with what a script has seen of it. -/
def Rehearsal.identityJson (rehearsal : Rehearsal) : Json :=
  .object
    (rehearsal.identity.members
      ++ [("fetches", Json.ofNat rehearsal.script.fetches),
        ("last_fetch",
          Json.ofOption (fun (server, assertion) => Json.ofStrings [server, assertion])
            rehearsal.script.lastFetch)])

/-- What a stored record holds: an object, or else its text; null when it does not open. -/
def StoredRecord.contentJson (stored : StoredRecord) (keys : KeyBundle) : Json :=
  match (Envelope.schema.parse? stored.payload).map keys.openPayload with
  | some (.ok bytes) =>
      let text := Bytes.repairedText bytes
      match Json.parse? text with
      | some (.object members) => .object members
      | _ => .string text
  | _ => .null

/-- The records of a server, in the order last written. -/
def Server.toJson (server : Server) (keys : KeyBundle) : Json :=
  .array (server.records.map fun (collection, stored) =>
    .array
      [.string collection, .string stored.id, Json.ofReal stored.modified,
        stored.contentJson keys])

/-! ### Values of all kinds -/

class Reported (α : Type) where
  json : α → Json

namespace Reported

instance : Reported Json := ⟨id⟩
instance : Reported Unit := ⟨fun _ => .null⟩
instance : Reported Bool := ⟨.bool⟩
instance : Reported Nat := ⟨Json.ofNat⟩
instance : Reported Int := ⟨Json.ofInt⟩
instance : Reported String := ⟨.string⟩
instance : Reported Timestamp := ⟨Json.ofReal⟩
instance : Reported Bytes := ⟨fun bytes => .string (Hex.encode bytes)⟩
instance : Reported ItemType := ⟨fun type => .string type.name⟩
instance : Reported Item := ⟨Item.toJson⟩
instance : Reported Tree := ⟨Tree.toJson⟩
instance : Reported Record := ⟨Record.toJson⟩
instance : Reported Summary := ⟨Summary.toJson⟩
instance : Reported Token := ⟨Token.toJson⟩
instance : Reported Account := ⟨Account.toJson⟩
instance : Reported AccountKeys := ⟨AccountKeys.toJson⟩
instance : Reported AccountEvent := ⟨fun event => .string event.name⟩

instance [Reported α] : Reported (Option α) := ⟨Json.ofOption json⟩

instance (priority := low) [Reported α] : Reported (List α) :=
  ⟨fun items => .array (items.map json)⟩

instance [Reported α] [Reported β] : Reported (α × β) :=
  ⟨fun pair => .array [json pair.1, json pair.2]⟩

end Reported

end SyncedBookmarks
