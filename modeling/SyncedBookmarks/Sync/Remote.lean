import SyncedBookmarks.Http
import SyncedBookmarks.Identity.Conversation
import SyncedBookmarks.Sync.Pass

namespace SyncedBookmarks

/-! The storage node of an account as a client meets it. Its requests are signed. -/

namespace Remote

def version : String := "1.5"

/-- A text without the slashes at its end. -/
def trimmed (text : String) : String :=
  String.ofList (text.toList.reverse.dropWhile (· = '/')).reverse

/-- Where a user's collection lies on a storage node. -/
def collectionUrl (node username collection : String) : String :=
  s!"{trimmed node}/{version}/{username}/storage/{collection}"

/-- The records that are newer than a time, to a hundredth of a second. -/
def newerUrl (node username collection : String) (newer : Timestamp) : String :=
  s!"{collectionUrl node username collection}?full=1&newer={newer.fixedText}"

def json : String := "application/json"

def request (method url authorization : String) (body : Option String) : HttpRequest where
  method := method
  url := url
  headers :=
    [("Authorization", authorization), ("Accept", json)]
      ++ (if body.isSome then [("Content-Type", json)] else [])
  body := body

/-- The text of an answer that reports success. -/
def textOf : Option (Except String HttpResponse) → Except StorageError String
  | none => .error .timeout
  | some (.error reason) => .error (.network reason)
  | some (.ok response) =>
      if response.status = 401 then .error .unauthorized
      else if 200 ≤ response.status ∧ response.status < 300 then .ok response.text
      else .error (.http response.status)

/-- A request that cannot be signed is not authorized. -/
def send (respondent : Respondent σ) (method url : String) (body : Option String)
    (conversation : Conversation σ) : Except StorageError String × Conversation σ :=
  match conversation.authorize respondent url method with
  | (none, conversation) => (.error .unauthorized, conversation)
  | (some authorization, conversation) =>
      let (response, world) :=
        respondent.transfer (request method url authorization body) conversation.world
      (textOf response, { conversation with world })

def recordsIn (text : String) : Except StorageError (List StoredRecord) :=
  match Json.parse? text with
  | some (.array values) =>
      match values.mapM StoredRecord.schema.ofJson? with
      | some records => .ok records
      | none => .error (.parse "an entry of the answer is no record")
  | _ => .error (.parse "the answer is no list of records")

def resultIn (text : String) : Except StorageError UploadResult :=
  match UploadResult.schema.parse? text with
  | some result => .ok result
  | none => .error (.parse "the answer is no result of an upload")

def fetch (respondent : Respondent σ) (node collection : String) (newer : Timestamp)
    (conversation : Conversation σ) :
    Except StorageError (List StoredRecord) × Conversation σ :=
  let url := newerUrl node conversation.identity.username collection newer
  let (answer, conversation) := send respondent "GET" url none conversation
  (answer.bind recordsIn, conversation)

def upload (respondent : Respondent σ) (node collection : String) (records : List StoredRecord)
    (conversation : Conversation σ) : Except StorageError UploadResult × Conversation σ :=
  let url := collectionUrl node conversation.identity.username collection
  let body := (Json.array (records.map StoredRecord.toJson)).text
  let (answer, conversation) := send respondent "POST" url (some body) conversation
  (answer.bind resultIn, conversation)

def storage (respondent : Respondent σ) (node : String) : Storage (Conversation σ) where
  fetch := fetch respondent node
  upload := upload respondent node

end Remote

end SyncedBookmarks
