import SyncedBookmarks.Codec.Hex
import SyncedBookmarks.Crypto.Hmac
import SyncedBookmarks.Error

namespace SyncedBookmarks

/-! The pair of keys that an account's records are sealed with. -/

structure KeyBundle where
  encryptionKey : Bytes
  hmacKey : Bytes
  deriving DecidableEq

namespace KeyBundle

/-- What the derived keys are for. -/
def purpose : String :=
  "identity.mozilla.com/picl/v1/oldsync"

def secretLength : Nat := 32

def ofSecret (secret : Bytes) : KeyBundle :=
  let material := Hkdf.expand (Hkdf.extract (List.replicate 32 0) secret) (Bytes.ofText purpose) 64
  ⟨material.take 32, material.drop 32⟩

/-- The keys of a master secret in hexadecimal. -/
def derive (secret : String) : Except CryptoError KeyBundle :=
  if secret.isEmpty then .error (.invalidSecret "master secret is empty")
  else
    match Hex.decode secret with
    | .error cause => .error (.invalidSecret s!"not valid hex: {cause.message}")
    | .ok bytes =>
        if bytes.length = secretLength then .ok (ofSecret bytes)
        else .error (.invalidSecret s!"expected {secretLength} bytes, got {bytes.length}")

@[simp] theorem length_encryptionKey_ofSecret (secret : Bytes) :
    (ofSecret secret).encryptionKey.length = 32 := by
  simp [ofSecret]

@[simp] theorem length_hmacKey_ofSecret (secret : Bytes) :
    (ofSecret secret).hmacKey.length = 32 := by
  simp [ofSecret]

/-- How a bundle shows in messages: without its keys. -/
def masked (_ : KeyBundle) : String :=
  "KeyBundle \x7b .. \x7d"

end KeyBundle

end SyncedBookmarks
