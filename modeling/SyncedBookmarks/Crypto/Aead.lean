import SyncedBookmarks.Crypto.Gcm
import SyncedBookmarks.Error

namespace SyncedBookmarks

/-! Sealing of byte strings with AES-256 in Galois/counter mode. -/

namespace Aead

def keyLength : Nat := 32

def ivLength : Nat := 12

def tagLength : Nat := 16

def checkKey (key : Bytes) : Except CryptoError Unit :=
  if key.length = keyLength then .ok ()
  else .error (.invalidKey s!"Key must be {keyLength} bytes, got {key.length}")

/-- The ciphertext and its tag. -/
def encrypt (key iv plaintext : Bytes) : Except CryptoError (Bytes × Bytes) := do
  checkKey key
  pure (Gcm.encrypt (Aes.encipher (Aes.roundKeys key)) iv plaintext)

def decrypt (key iv ciphertext tag : Bytes) : Except CryptoError Bytes := do
  checkKey key
  if iv.length ≠ ivLength then
    throw (.decryption s!"IV must be {ivLength} bytes, got {iv.length}")
  if tag.length ≠ tagLength then
    throw (.decryption s!"Auth tag must be {tagLength} bytes, got {tag.length}")
  match Gcm.decrypt? (Aes.encipher (Aes.roundKeys key)) iv ciphertext tag with
  | some plaintext => pure plaintext
  | none => throw (.decryption "invalid key or corrupted data")

end Aead

end SyncedBookmarks
