import SyncedBookmarks.Codec.Base64
import SyncedBookmarks.Crypto.Aead
import SyncedBookmarks.Json.Fields
import SyncedBookmarks.Json.Printer
import SyncedBookmarks.KeyBundle

namespace SyncedBookmarks

/-! The sealed form of a record's content: ciphertext, initialization vector and tag in base64,
and a keyed hash of the ciphertext's text in hexadecimal. -/

structure Envelope where
  ciphertext : String
  iv : String
  tag : String
  hmac : String
  deriving DecidableEq, Repr

namespace Envelope

def toJson (envelope : Envelope) : Json :=
  .object
    [("ciphertext", .string envelope.ciphertext), ("IV", .string envelope.iv),
      ("tag", .string envelope.tag), ("hmac", .string envelope.hmac)]

def schema : Schema Envelope where
  declared := [["ciphertext"], ["IV"], ["tag"], ["hmac"]]
  build
    | [ciphertext, iv, tag, hmac] => do
        pure
          { ciphertext := ← Json.required Json.asString? ciphertext
            iv := ← Json.required Json.asString? iv
            tag := ← Json.required Json.asString? tag
            hmac := ← Json.required Json.asString? hmac }
    | _ => none

end Envelope

namespace KeyBundle

/-- The keyed hash of a ciphertext's text. -/
def sign (keys : KeyBundle) (ciphertext : String) : Bytes :=
  Hmac.sign keys.hmacKey (Bytes.ofText ciphertext)

def sealPayload (keys : KeyBundle) (iv plaintext : Bytes) : Except CryptoError Envelope := do
  let (ciphertext, tag) ← Aead.encrypt keys.encryptionKey iv plaintext
  let ciphertext := Base64.encode ciphertext
  pure
    { ciphertext
      iv := Base64.encode iv
      tag := Base64.encode tag
      hmac := Hex.encode (keys.sign ciphertext) }

def decodeField (name text : String) : Except CryptoError Bytes :=
  match Base64.decode text with
  | .ok bytes => .ok bytes
  | .error cause => .error (.decryption s!"bad base64 in {name}: {cause.message}")

/-- Opens an envelope. The keyed hash is checked before anything else is looked at. -/
def openPayload (keys : KeyBundle) (envelope : Envelope) : Except CryptoError Bytes := do
  match Hex.decode envelope.hmac with
  | .error _ => throw .hmacMismatch
  | .ok expected =>
      if keys.sign envelope.ciphertext ≠ expected then
        throw .hmacMismatch
  let ciphertext ← decodeField "ciphertext" envelope.ciphertext
  let iv ← decodeField "IV" envelope.iv
  let tag ← decodeField "tag" envelope.tag
  Aead.decrypt keys.encryptionKey iv ciphertext tag

end KeyBundle

end SyncedBookmarks
