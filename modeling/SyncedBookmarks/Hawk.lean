import SyncedBookmarks.Codec.Base64
import SyncedBookmarks.Crypto.Hmac
import SyncedBookmarks.Error
import SyncedBookmarks.Url.Basic

namespace SyncedBookmarks

/-! HAWK: signing of requests with a shared key. -/

namespace Hawk

structure Credentials where
  id : String
  key : String
  deriving DecidableEq, Repr

/-- What a single request adds: the time in seconds, a nonce, and text of the application. -/
structure Artifacts where
  seconds : Int
  nonce : String
  ext : Option String := none
  deriving DecidableEq, Repr

/-- The parts of a request that its signature covers. -/
structure Request where
  method : String
  resource : String
  host : String
  port : Nat
  deriving DecidableEq, Repr

def upper (text : String) : String :=
  String.ofList (text.toList.map Char.toUpper)

def lower (text : String) : String :=
  String.ofList (text.toList.map Char.toLower)

def Request.ofUri (uri method : String) : Except CryptoError Request := do
  let url ← match Url.parse uri with
    | .ok url => pure url
    | .error cause => throw (.invalidUri s!"{uri}: {cause.message}")
  let host ← match url.hostText? with
    | some host => pure host
    | none => throw (.invalidUri s!"{uri}: no host")
  let port ← match url.effectivePort? with
    | some port => pure port
    | none => throw (.invalidUri s!"{uri}: no port")
  pure { method := upper method, resource := url.resource, host := lower host, port }

def Artifacts.extText (artifacts : Artifacts) : String :=
  artifacts.ext.getD ""

/-- The text that is signed: a line for each part, the hash of the body left out. -/
def normalized (request : Request) (artifacts : Artifacts) : String :=
  "\n".intercalate
    ["hawk.1.header", toString artifacts.seconds, artifacts.nonce, request.method,
      request.resource, request.host, toString request.port, "", artifacts.extText, ""]

def mac (key : String) (text : String) : String :=
  Base64.encode (Hmac.sign (Bytes.ofText key) (Bytes.ofText text))

/-- The value of the authorization header. -/
def header (uri method : String) (credentials : Credentials) (artifacts : Artifacts) :
    Except CryptoError String := do
  let request ← Request.ofUri uri method
  let ext :=
    if artifacts.extText.isEmpty then "" else s!", ext=\"{artifacts.extText}\""
  pure
    (s!"Hawk id=\"{credentials.id}\", ts=\"{artifacts.seconds}\", nonce=\"{artifacts.nonce}\""
      ++ ext ++ s!", mac=\"{mac credentials.key (normalized request artifacts)}\"")

end Hawk

end SyncedBookmarks
