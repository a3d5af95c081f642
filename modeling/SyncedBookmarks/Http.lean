import SyncedBookmarks.Url.Basic

namespace SyncedBookmarks

/-! Requests to servers, and what comes of them. -/

structure HttpRequest where
  method : String
  url : String
  headers : List (String × String)
  body : Option String := none
  deriving DecidableEq, Repr

namespace HttpRequest

def schemes : List String :=
  ["http", "https"]

/-- Whether there is a server to send the request to. -/
def isAddressed (request : HttpRequest) : Bool :=
  match Url.parse request.url with
  | .ok url => schemes.contains url.scheme
  | .error _ => false

def unaddressed : String := "the URL names no server to send a request to"

def unconnected : String := "there is no connection to send a request over"

/-- Why the request gets no answer where there is no connection. -/
def refusal (request : HttpRequest) : String :=
  if request.isAddressed then unconnected else unaddressed

end HttpRequest

structure HttpResponse where
  status : Nat
  text : String
  deriving DecidableEq, Repr

end SyncedBookmarks
